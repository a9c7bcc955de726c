import Sketch.Check

/-!
# The engine

An engine is a store together with a canvas. It runs programs, and it executes single lines that
are typed at a prompt; a method called from there runs in the stored program until it returns.

A run may go on for ever, so `run` and `direct` take a bound on the number of lines that are
executed and give `none` if the bound is not enough. A larger bound gives the same answer
(`runFrom_mono`, `follow_mono`).
-/

namespace Sketch

/-- The state of a run, and the pen with what it has drawn. -/
structure Engine where
  store : Store
  canvas : Canvas

/-- A line that failed: what was wrong, and where it left the cursor. -/
structure Stop where
  failure : Failure
  cursor : Address
  deriving DecidableEq

/-- The end of a run: a result or a failure, and the engine afterwards. -/
abbrev Outcome (α : Type) := EStateM.Result Failure Engine α

namespace Engine

/-- An engine that has done nothing. -/
def initial : Engine := ⟨.empty, .blank⟩

instance : Inhabited Engine := ⟨initial⟩

/-- Forgets variables, methods and what is open. Pen and picture stay. -/
def start (engine : Engine) : Engine :=
  { engine with store := .empty }

/-- Forgets variables, methods and what is open, wipes the picture and resets the pen. -/
def reset (engine : Engine) : Engine :=
  ⟨.empty, (engine.canvas.add .clear).resetPen⟩

/-- Takes the primitives out of the picture. -/
def takePicture (engine : Engine) : Array Primitive × Engine :=
  (engine.canvas.picture, { engine with canvas := { engine.canvas with picture := #[] } })

/-- The canvas after the drawing of a line, if it has one. -/
def drawn (canvas : Canvas) : Option Instruction → Canvas
  | some instruction => canvas.perform instruction
  | none => canvas

/-- Executes a line with the cursor at an address. Both ends, the result and the `Stop`, hold the
cursor afterwards. -/
def execute (line : Line) (cursor : Address) : EStateM Stop Engine Address := fun engine =>
  match Store.execute line ⟨engine.store, cursor⟩ with
  | .ok drawing site => .ok site.cursor ⟨site.store, drawn engine.canvas drawing⟩
  | .error failure site => .error ⟨failure, site.cursor⟩ ⟨site.store, engine.canvas⟩

/-! ## Running a program -/

/-- Runs a program from an address until the cursor leaves it. -/
def runFrom (program : Program) : (fuel : Nat) → Address → Engine → Option (Outcome Unit)
  | 0, _, _ => none
  | fuel + 1, cursor, engine =>
    match program.line? cursor with
    | none => some (.ok () engine)
    | some line =>
      match execute line cursor engine with
      | .ok next engine => runFrom program fuel (next + 1) engine
      | .error stop engine => some (.error (stop.failure.annotate cursor line) engine)

/-- Runs a program from its first line, with nothing left of earlier runs but pen and picture. -/
def run (program : Program) (fuel : Nat) (engine : Engine) : Option (Outcome Unit) :=
  runFrom program fuel 0 engine.start

/-! ## Lines at the prompt -/

/-- Closes all that was opened since the checkpoint. -/
def unwind (engine : Engine) (checkpoint : Checkpoint) : Engine :=
  { engine with store := engine.store.unwind checkpoint }

/-- Follows a call that was made at the prompt until no more than `depth` calls are open. Before
each line `interrupt` is asked, with the number of polls before, whether to stop. -/
def follow (program : Program) (interrupt : Nat → Bool) (checkpoint : Checkpoint) (depth : Nat) :
    (fuel polls : Nat) → Address → Engine → Option (Outcome (Option Address))
  | 0, _, _, _ => none
  | fuel + 1, polls, cursor, engine =>
    if engine.store.flow.calls.height ≤ depth then some (.ok none engine)
    else
      let index := cursor + 1
      if interrupt polls then some (.ok (some index) (engine.unwind checkpoint))
      else
        match program.line? index with
        | none => some (.error (.ofFault .bodyMissing) (engine.unwind checkpoint))
        | some line =>
          match execute line index engine with
          | .ok next engine =>
            follow program interrupt checkpoint depth fuel (polls + 1) next engine
          | .error stop engine =>
            some (.error (stop.failure.annotate index line) (engine.unwind checkpoint))

/-- Executes a line as if it stood after the last line of the program, and follows the call that it
makes. Gives the address at which it was interrupted, if it was. A failure or a break leaves nothing
open that was not open before. -/
def direct (program : Program) (interrupt : Nat → Bool) (fuel : Nat) (line : Line)
    (engine : Engine) : Option (Outcome (Option Address)) :=
  let checkpoint := engine.store.checkpoint
  match execute line (UInt64.ofNat program.size) engine with
  | .ok next after =>
    follow program interrupt checkpoint engine.store.flow.calls.height fuel 0 next after
  | .error stop after => some (.error stop.failure (after.unwind checkpoint))

/-! ## A larger bound changes no answer -/

/-- A run that ends within a bound ends alike within a larger one. -/
theorem runFrom_mono {program : Program} {fuel more : Nat} (h : fuel ≤ more) {cursor : Address}
    {engine : Engine} {outcome : Outcome Unit}
    (hr : runFrom program fuel cursor engine = some outcome) :
    runFrom program more cursor engine = some outcome := by
  induction fuel generalizing more cursor engine with
  | zero => simp [runFrom] at hr
  | succ fuel ih =>
    obtain ⟨more, rfl⟩ : ∃ k, more = k + 1 := ⟨more - 1, by omega⟩
    rw [runFrom] at hr ⊢
    cases hl : program.line? cursor with
    | none => simpa only [hl] using hr
    | some line =>
      simp only [hl] at hr ⊢
      cases he : execute line cursor engine with
      | ok next after =>
        simp only [he] at hr ⊢
        exact ih (by omega) hr
      | error stop after => simpa only [he] using hr

/-- A call at the prompt that ends within a bound ends alike within a larger one. -/
theorem follow_mono {program : Program} {interrupt : Nat → Bool} {checkpoint : Checkpoint}
    {depth fuel more : Nat} (h : fuel ≤ more) {polls : Nat} {cursor : Address} {engine : Engine}
    {outcome : Outcome (Option Address)}
    (hr : follow program interrupt checkpoint depth fuel polls cursor engine = some outcome) :
    follow program interrupt checkpoint depth more polls cursor engine = some outcome := by
  induction fuel generalizing more polls cursor engine with
  | zero => simp [follow] at hr
  | succ fuel ih =>
    obtain ⟨more, rfl⟩ : ∃ k, more = k + 1 := ⟨more - 1, by omega⟩
    rw [follow] at hr ⊢
    by_cases hd : engine.store.flow.calls.height ≤ depth
    · simpa only [hd, if_true] using hr
    · by_cases hi : interrupt polls
      · simpa only [hd, hi, if_true, if_false] using hr
      · simp only [hd, hi, if_false] at hr ⊢
        cases hl : program.line? (cursor + 1) with
        | none => simpa only [hl] using hr
        | some line =>
          simp only [hl] at hr ⊢
          cases he : execute line (cursor + 1) engine with
          | ok next after =>
            simp only [he] at hr ⊢
            exact ih (by omega) hr
          | error stop after => simpa only [he] using hr

end Engine

end Sketch
