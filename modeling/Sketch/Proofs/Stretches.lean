import Sketch.Proofs.Blocks

/-!
# Stretches of a run

A run between two of its points, and how it compares with an evaluation. `Engine.Leads` says that
the run from one point is the run from a later one. `Block.Realizes` says that the run from a point
comes to what an evaluation comes to: it lasts longer than the bound, it fails at the same line, or
it comes to a point that goes with the value. The other possibility, at any time, is that the run
ends with `outOfMemory` (`Engine.Exhausted`), which an evaluation does not know of.
-/

namespace Sketch

/-! ## Lines in their places -/

/-- Addresses one after the other. -/
theorem Address.add_one_add (a : Address) (n : Nat) :
    a + 1 + UInt64.ofNat n = a + UInt64.ofNat (n + 1) := by
  rw [UInt64.ofNat_add, UInt64.add_assoc, UInt64.add_comm 1]
  rfl

namespace Program

variable {program : Program} {a : Address} {lines more : List Line}

/-- These lines stand in the program, the first of them at this address. -/
def Holds (program : Program) : Address → List Line → Prop
  | _, [] => True
  | a, line :: lines => program.line? a = some line ∧ program.Holds (a + 1) lines

/-- `Holds`, part by part. -/
theorem holds_append :
    program.Holds a (lines ++ more) ↔
      program.Holds a lines ∧ program.Holds (a + UInt64.ofNat lines.length) more := by
  induction lines generalizing a with
  | nil => simp [Holds]
  | cons line lines ih =>
    rw [List.cons_append, Holds, Holds, ih, and_assoc, Address.add_one_add, List.length_cons]

/-- A program `Holds` all of its lines if there is an address for each of them. -/
theorem holds_lines (h : program.size < UInt64.size) : program.Holds 0 program.lines.toList := by
  have hfrom : ∀ {rest : List Line} {n : Nat}, program.lines.toList.drop n = rest →
      program.Holds (UInt64.ofNat n) rest := by
    intro rest
    induction rest with
    | nil => exact fun _ => trivial
    | cons line rest ih =>
      intro n hn
      have hline : program.lines[n]? = some line := by
        rw [← Array.getElem?_toList, ← List.head?_drop, hn, List.head?_cons]
      have hlt : n < program.size := (Array.getElem?_eq_some_iff.1 hline).1
      refine ⟨?_, ?_⟩
      · rw [line?_ofNat (by omega), hline]
      · have hnext : program.lines.toList.drop (n + 1) = rest := by
          rw [← List.drop_drop, hn, List.drop_one, List.tail_cons]
        simpa [UInt64.ofNat_add] using ih hnext
  exact hfrom (n := 0) rfl

/-- `line?` finds nothing after the last line. -/
theorem line?_size (h : program.size < UInt64.size) :
    program.line? (UInt64.ofNat program.size) = none := by
  rw [line?_ofNat h]
  exact Array.getElem?_eq_none (Nat.le_refl _)

end Program

/-! ## Stretches of a run -/

namespace Engine

variable {program : Program} {m n fuel : Nat} {a b c : Address} {engine between after : Engine}
  {line : Line} {store next : Store} {canvas : Canvas} {fault : Fault}

/-- From one point of a run the program comes to another within this number of lines. -/
def Leads (program : Program) (n : Nat) (a : Address) (engine : Engine) (b : Address)
    (after : Engine) : Prop :=
  ∀ fuel, runFrom program (n + fuel) a engine = runFrom program fuel b after

/-- The run from this point ends with `outOfMemory`. -/
def Exhausted (program : Program) (a : Address) (engine : Engine) : Prop :=
  ∃ n failure after, runFrom program n a engine = some (.error failure after) ∧
    failure.fault.kind = .outOfMemory

/-- `Leads` is reflexive. -/
theorem Leads.refl : Leads program 0 a engine a engine := fun fuel => by rw [Nat.zero_add]

/-- `Leads` is kept by going on. -/
theorem Leads.trans (h : Leads program m a engine b between)
    (hn : Leads program n b between c after) : Leads program (m + n) a engine c after := by
  intro fuel
  rw [Nat.add_assoc, h, hn]

/-- If `execute` succeeds, a run `Leads` to the line after the cursor. -/
theorem Leads.of_execute (hl : program.line? a = some line)
    (he : execute line a engine = .ok b after) : Leads program 1 a engine (b + 1) after := by
  intro fuel
  rw [Nat.add_comm, runFrom]
  simp only [hl, he]

/-- A line that `Executes` leads on, with what it draws. -/
theorem Leads.of_step {drawing : Option Instruction} (hl : program.line? a = some line)
    (h : Store.Executes line a store ⟨b, drawing⟩ next) :
    Leads program 1 a ⟨store, canvas⟩ (b + 1) ⟨next, drawn canvas drawing⟩ :=
  .of_execute hl (execute_eq_ok_iff.2 ⟨⟨b, drawing⟩, h, rfl, rfl⟩)

/-- A line that `Executes` and draws nothing leads on with the same canvas. -/
theorem Leads.of_executes (hl : program.line? a = some line)
    (h : Store.Executes line a store ⟨b, none⟩ next) :
    Leads program 1 a ⟨store, canvas⟩ (b + 1) ⟨next, canvas⟩ :=
  .of_step hl h

/-- `runFrom` succeeds after the last line. -/
theorem runFrom_size (hsize : program.size < UInt64.size) (engine : Engine) :
    runFrom program 1 (UInt64.ofNat program.size) engine = some (.ok () engine) := by
  rw [runFrom, Program.line?_size hsize]

/-- `runFrom` ends at a line that fails, with the place of that line. -/
theorem runFrom_of_error (hl : program.line? a = some line)
    (he : execute line a engine = .error (fault.stop a) after) :
    runFrom program 1 a engine = some (.error ⟨fault, some (.of a line)⟩ after) := by
  rw [runFrom]
  simp only [hl, he]
  rfl

/-- A run ends at a line that fails as `Store.Fails` says. -/
theorem runFrom_of_fails (hl : program.line? a = some line)
    (h : Store.Fails line a store fault next) :
    runFrom program 1 a ⟨store, canvas⟩ =
      some (.error ⟨fault, some (.of a line)⟩ ⟨next, canvas⟩) :=
  runFrom_of_error hl (execute_eq_stop_iff.2 ⟨h, rfl⟩)

/-- A run is `Exhausted` at a line that fails with `full`. -/
theorem Exhausted.of_fails {bound : Bound} (hl : program.line? a = some line)
    (h : Store.Fails line a store (.full bound) next) : Exhausted program a ⟨store, canvas⟩ :=
  ⟨1, _, _, runFrom_of_fails hl h, rfl⟩

/-- A run is `Exhausted` if it leads to a point where it is. -/
theorem Exhausted.of_leads (h : Leads program n a engine b after)
    (he : Exhausted program b after) : Exhausted program a engine := by
  obtain ⟨m, failure, last, hr, hk⟩ := he
  exact ⟨n + m, failure, last, (h m).trans hr, hk⟩

/-- A bound that is not enough for `runFrom` at a later point is not enough at an earlier one. -/
theorem Leads.runFrom_eq_none (h : Leads program n a engine b after)
    (hr : runFrom program fuel b after = none) (hm : m ≤ n + fuel) :
    runFrom program m a engine = none := by
  rw [← h] at hr
  cases hs : runFrom program m a engine with
  | none => rfl
  | some outcome => rw [runFrom_mono hm hs] at hr; cases hr

end Engine

namespace Block

open Engine

/-- The engine with the variables, methods and canvas of a state. -/
def State.engine (state : State) (flow : Flow) : Engine :=
  ⟨⟨state.vars, state.methods, flow⟩, state.canvas⟩

variable {α β : Type} {program : Program} {m n fuel : Nat} {a b : Address}
  {engine between : Engine} {flow : Flow} {state : State} {result : Result α}
  {post : α → State → Address → Engine → Prop}

/-! ## Runs that follow an evaluation -/

/-- The run from this point comes to the result of an evaluation, or it is `Exhausted`. A value goes
with a point of the run to which it comes. -/
def Realizes (program : Program) (fuel : Nat) (a : Address) (engine : Engine) (result : Result α)
    (post : α → State → Address → Engine → Prop) : Prop :=
  Exhausted program a engine ∨
    match result with
    | none => runFrom program fuel a engine = none
    | some (.error failure state) =>
      ∃ n flow, runFrom program n a engine = some (.error failure (state.engine flow))
    | some (.ok value state) =>
      ∃ n b last, Leads program n a engine b last ∧ post value state b last

/-- A run that is `Exhausted` realizes every result. -/
theorem Realizes.of_exhausted (h : Exhausted program a engine) :
    Realizes program fuel a engine result post :=
  .inl h

/-- A run `Realizes` a value at the point where it is. -/
theorem Realizes.of_ok {value : α} (h : post value state a engine) :
    Realizes program fuel a engine (some (.ok value state)) post :=
  .inr ⟨0, a, engine, .refl, h⟩

/-- A line that `Fails` and leaves the state as it was `Realizes` the failure of the evaluation. -/
theorem Realizes.of_fails {line : Line} {fault : Fault} (hl : program.line? a = some line)
    (h : Store.Fails line a (state.engine flow).store fault (state.engine flow).store) :
    Realizes program fuel a (state.engine flow) (state.attempt a line (.error fault)) post :=
  .inr ⟨1, flow, runFrom_of_fails hl h⟩

/-- What a run `Realizes` from a later point it realizes from an earlier one. Each line on the way
makes up for one unit of the bound. -/
theorem Realizes.of_leads (h : Leads program n a engine b between)
    (hr : Realizes program fuel b between result post) (hm : m ≤ n + fuel) :
    Realizes program m a engine result post := by
  rcases hr with he | hr
  · exact .inl (he.of_leads h)
  refine .inr ?_
  match result with
  | none => exact h.runFrom_eq_none hr hm
  | some (.error failure state) =>
    obtain ⟨k, flow, hk⟩ := hr
    exact ⟨n + k, flow, (h k).trans hk⟩
  | some (.ok value state) =>
    obtain ⟨k, c, last, hk, hp⟩ := hr
    exact ⟨n + k, c, last, h.trans hk, hp⟩

/-- `Realizes` is kept by `andThen`. -/
theorem Realizes.andThen {next : α → State → Result β} {post' : β → State → Address → Engine → Prop}
    (h : Realizes program fuel a engine result post)
    (hn : ∀ value state b last, post value state b last →
      Realizes program fuel b last (next value state) post') :
    Realizes program fuel a engine (Result.andThen result next) post' := by
  rcases h with he | hr
  · exact .inl he
  match result with
  | none => exact .inr hr
  | some (.error failure state) => exact .inr hr
  | some (.ok value state) =>
    obtain ⟨k, b, last, hk, hp⟩ := hr
    exact (hn value state b last hp).of_leads hk (by omega)

end Block

end Sketch
