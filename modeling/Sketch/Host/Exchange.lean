import Sketch.Host.Disk

/-!
# Exchanges with files

What a program asks of the files before it can go on: nothing, the content of a file, or that a file
be written. `Exchange.run` answers from a `FileSystem`, of which a `Disk` is one.
-/

namespace Sketch

/-- Files in some state: what is read under a name, and what writing does. -/
structure FileSystem (σ : Type) where
  read : σ → String → Except FileFault ByteArray
  write : σ → String → ByteArray → Except FileFault Unit × σ

/-- What has been written under a name is read back under it. -/
def FileSystem.ReadsBack {σ : Type} (files : FileSystem σ) : Prop :=
  ∀ {state after : σ} {name : String} {content : ByteArray},
    files.write state name content = (.ok (), after) → files.read after name = .ok content

/-- The files of a disk. -/
def Disk.files : FileSystem Disk := ⟨Disk.read, Disk.write⟩

/-- What has been written on a disk is read back. -/
theorem Disk.files_readsBack : Disk.files.ReadsBack := Disk.read_write

/-- A result that may wait for one answer about a file. -/
inductive Exchange (α : Type) where
  /-- nothing is asked -/
  | done (value : α)
  /-- the content of a file is asked for -/
  | read (name : String) (next : Except FileFault ByteArray → α)
  /-- a file is to be written -/
  | write (name : String) (content : ByteArray) (next : Except FileFault Unit → α)

namespace Exchange

variable {α β σ : Type}

/-- The exchange with its result put through a function. -/
def map (f : α → β) : Exchange α → Exchange β
  | .done value => .done (f value)
  | .read name next => .read name fun answer => f (next answer)
  | .write name content next => .write name content fun answer => f (next answer)

/-- The result of an exchange with files, and their state afterwards. -/
def run (files : FileSystem σ) (state : σ) : Exchange α → α × σ
  | .done value => (value, state)
  | .read name next => (next (files.read state name), state)
  | .write name content next =>
    let (answer, state) := files.write state name content
    (next answer, state)

/-- The state of the files does not depend on what is made of the answer. -/
@[simp] theorem run_map (f : α → β) (exchange : Exchange α) (files : FileSystem σ) (state : σ) :
    (exchange.map f).run files state =
      (f (exchange.run files state).1, (exchange.run files state).2) := by
  cases exchange <;> rfl

end Exchange

end Sketch
