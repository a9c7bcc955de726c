import Sketch.Proofs.Steps

/-!
# Computing without drawing

A run can be cut in two. `Store.compute` is the computation: it knows neither pen nor picture and
ends with a store and with the drawing instructions that it came to, in their order. Drawing is then
to carry out these instructions on the canvas. `Engine.runFrom_eq_compute` says that this is what a
run comes to, line by line.

Main statement: `Engine.run_forgets`, what a run computes depends on nothing but the program, and
what it adds to the picture on nothing but the program and the pen.
-/

namespace Sketch

/-! ## Carrying out many instructions -/

namespace Canvas

/-- The canvas after these instructions have been carried out, the first one first. -/
def performAll (canvas : Canvas) (instructions : List Instruction) : Canvas :=
  instructions.foldl perform canvas

@[simp] theorem performAll_nil (canvas : Canvas) : canvas.performAll [] = canvas := rfl

@[simp] theorem performAll_cons (canvas : Canvas) (instruction : Instruction)
    (rest : List Instruction) :
    canvas.performAll (instruction :: rest) = (canvas.perform instruction).performAll rest := rfl

/-- `perform` looks at the pen only, and what it draws comes after what was drawn before. -/
theorem perform_eq (pen : Pen) (picture : Array Primitive) (instruction : Instruction) :
    perform ⟨pen, picture⟩ instruction =
      ⟨(perform ⟨pen, #[]⟩ instruction).pen,
        picture ++ (perform ⟨pen, #[]⟩ instruction).picture⟩ := by
  cases instruction <;> simp [perform, add, resetPen]

/-- `performAll` only adds to the picture, and what it adds depends on the pen and on the
instructions. -/
theorem performAll_eq (pen : Pen) (picture : Array Primitive) (instructions : List Instruction) :
    performAll ⟨pen, picture⟩ instructions =
      ⟨(performAll ⟨pen, #[]⟩ instructions).pen,
        picture ++ (performAll ⟨pen, #[]⟩ instructions).picture⟩ := by
  induction instructions generalizing pen picture with
  | nil => simp
  | cons instruction rest ih =>
    rw [performAll_cons, performAll_cons, perform_eq pen picture]
    rcases perform ⟨pen, #[]⟩ instruction with ⟨moved, strokes⟩
    rw [ih moved strokes, ih moved (picture ++ strokes), Array.append_assoc]

end Canvas

/-! ## The computation -/

/-- What a run comes to without its canvas: the failure with which it ends, if it fails, the store,
and the instructions that are to be carried out. -/
structure Computation where
  failure? : Option Failure
  store : Store
  instructions : List Instruction

namespace Computation

/-- The computation with the drawing of a line before its instructions. -/
def drawing (computation : Computation) (instruction? : Option Instruction) : Computation :=
  { computation with instructions := instruction?.toList ++ computation.instructions }

/-- The outcome of a run with this computation that began with this canvas. -/
def outcome (computation : Computation) (canvas : Canvas) : Outcome Unit :=
  let engine : Engine := ⟨computation.store, canvas.performAll computation.instructions⟩
  match computation.failure? with
  | none => .ok () engine
  | some failure => .error failure engine

/-- The engine of an `outcome` has the store and the drawing of the computation. -/
theorem engine_outcome (computation : Computation) (canvas : Canvas) :
    (computation.outcome canvas).engine =
      ⟨computation.store, canvas.performAll computation.instructions⟩ := by
  unfold outcome
  cases computation.failure? <;> rfl

/-- The `outcome` of a computation has its failure. -/
theorem error?_outcome (computation : Computation) (canvas : Canvas) :
    error? (computation.outcome canvas) = computation.failure? := by
  unfold outcome
  cases computation.failure? <;> rfl

/-- `drawing` first and then the `outcome` is the outcome on the canvas that is `drawn`. -/
theorem outcome_drawing (computation : Computation) (instruction? : Option Instruction)
    (canvas : Canvas) :
    (computation.drawing instruction?).outcome canvas =
      computation.outcome (Engine.drawn canvas instruction?) := by
  cases instruction? <;> rfl

end Computation

/-- Runs a program from an address until the cursor leaves it, and draws nothing. -/
def Store.compute (program : Program) : (fuel : Nat) → Address → Store → Option Computation
  | 0, _, _ => none
  | fuel + 1, cursor, store =>
    match program.line? cursor with
    | none => some ⟨none, store, []⟩
    | some line =>
      match Store.execute line ⟨store, cursor⟩ with
      | .ok instruction? site =>
        (compute program fuel (site.cursor + 1) site.store).map (·.drawing instruction?)
      | .error failure site => some ⟨some (failure.annotate cursor line), site.store, []⟩

namespace Engine

/-- `runFrom` is `compute` with its `outcome` on the canvas. -/
theorem runFrom_eq_compute (program : Program) (fuel : Nat) (cursor : Address) (engine : Engine) :
    runFrom program fuel cursor engine =
      (Store.compute program fuel cursor engine.store).map (·.outcome engine.canvas) := by
  induction fuel generalizing cursor engine with
  | zero => rfl
  | succ fuel ih =>
    rw [runFrom, Store.compute]
    cases hl : program.line? cursor with
    | none => rfl
    | some line =>
      dsimp only
      cases he : Store.execute line ⟨engine.store, cursor⟩ with
      | error failure site => simp only [execute, he]; rfl
      | ok instruction? site =>
        simp only [execute, he]
        rw [ih, Option.map_map]
        -- to draw now and go on is to go on and put the drawing in front
        refine Option.map_congr fun computation _ => ?_
        exact (computation.outcome_drawing instruction? engine.canvas).symm

/-- **A run forgets the past, and drawing has no say in it.** With the same bound, the runs of a
program in two engines both end or both do not, with the same failure or none and with the same
store. Each only appends to its picture, and if the pens were equal, then both append the same
primitives and leave equal pens. -/
theorem run_forgets (program : Program) (fuel : Nat) (one other : Engine) :
    (run program fuel one).isSome = (run program fuel other).isSome ∧
    ∀ first second, run program fuel one = some first → run program fuel other = some second →
      error? first = error? second ∧ first.engine.store = second.engine.store ∧
      ∃ added addedOther : Array Primitive,
        first.engine.canvas.picture = one.canvas.picture ++ added ∧
        second.engine.canvas.picture = other.canvas.picture ++ addedOther ∧
        (one.canvas.pen = other.canvas.pen →
          added = addedOther ∧ first.engine.canvas.pen = second.engine.canvas.pen) := by
  -- the engine takes part in this only with its canvas
  have hrun : ∀ engine : Engine, run program fuel engine =
      (Store.compute program fuel 0 .empty).map (·.outcome engine.canvas) :=
    fun engine => runFrom_eq_compute program fuel 0 engine.start
  refine ⟨by rw [hrun, hrun, Option.isSome_map, Option.isSome_map], ?_⟩
  intro first second hone hother
  rw [hrun] at hone hother
  obtain ⟨computation, hc, rfl⟩ := Option.map_eq_some_iff.1 hone
  obtain ⟨same, hsame, rfl⟩ := Option.map_eq_some_iff.1 hother
  obtain rfl : computation = same := Option.some.inj (hc.symm.trans hsame)
  simp only [Computation.error?_outcome, Computation.engine_outcome, true_and]
  rcases one.canvas with ⟨pen, picture⟩
  rcases other.canvas with ⟨penOther, pictureOther⟩
  rw [Canvas.performAll_eq pen picture, Canvas.performAll_eq penOther pictureOther]
  refine ⟨_, _, rfl, rfl, ?_⟩
  rintro rfl
  exact ⟨rfl, rfl⟩

/-- Leaves a variable, a method, a circle and an open branch behind. -/
def remains : Program :=
  .parse "x = 7\nMETHOD g()\nENDMETHOD\nCIRCLE x\nIF x > 1\n"

/-- Draws circles in a loop and then looks for a variable that it has not set. -/
def bubbles : Program :=
  .parse "n = 2\nWHILE n > 0\nMOVE n n\nCIRCLE n\nn = n - 1\nENDWHILE\nn = n + x\n"

/-- In an engine that knows such a variable from an earlier run, the loop adds the same primitives
to another picture, and the variable is not found either. -/
theorem run_forgets_bubbles : ∃ (used : Engine) (first second : Outcome Unit),
    run remains 9 .initial = some (.ok () used) ∧ used.store.vars.lookup? "x" = some 7 ∧
      used.store.flow.frames.height = 1 ∧ used.canvas.picture.size = 1 ∧
      used.canvas.pen = initial.canvas.pen ∧
      run bubbles 40 .initial = some first ∧ run bubbles 40 used = some second ∧
      error? second = some ⟨.undefinedVariable "x", some (.of 6 (.ofText "n = n + x"))⟩ ∧
      first.engine.store = second.engine.store ∧
      ∃ added : Array Primitive, added.size = 4 ∧
        first.engine.canvas.picture = initial.canvas.picture ++ added ∧
        second.engine.canvas.picture = used.canvas.picture ++ added ∧
        first.engine.canvas.pen = second.engine.canvas.pen := by
  have hremains : ((run remains 9 .initial).bind value?).map (fun last =>
      (last.2.store.vars.lookup? "x", last.2.store.flow.frames.height,
        last.2.canvas.picture.size, last.2.canvas.pen)) =
      some (some 7, 1, 1, initial.canvas.pen) := by
    decide +kernel
  have hbubbles : (run bubbles 40 .initial).map (fun outcome : Outcome Unit =>
      (error? outcome, outcome.engine.canvas.picture.size)) =
      some (some ⟨.undefinedVariable "x", some (.of 6 (.ofText "n = n + x"))⟩, 4) := by
    decide +kernel
  obtain ⟨⟨_, used⟩, hend, hused⟩ := Option.map_eq_some_iff.1 hremains
  obtain ⟨done, hdone, hvalue⟩ := Option.bind_eq_some_iff.1 hend
  rw [value?_eq_some_iff.1 hvalue] at hdone
  simp only [Prod.mk.injEq] at hused
  obtain ⟨hx, hframes, hcircle, hpen⟩ := hused
  obtain ⟨first, hfirst, hfails⟩ := Option.map_eq_some_iff.1 hbubbles
  obtain ⟨hfailure, hsize⟩ := Prod.mk.inj hfails
  obtain ⟨hsome, hagree⟩ := run_forgets bubbles 40 .initial used
  obtain ⟨second, hsecond⟩ : ∃ second, run bubbles 40 used = some second :=
    Option.isSome_iff_exists.1 (by rw [← hsome, hfirst]; rfl)
  obtain ⟨herror, hstore, added, _, hadded, hother, hpens⟩ := hagree first second hfirst hsecond
  obtain ⟨rfl, hlast⟩ := hpens hpen.symm
  have hempty : initial.canvas.picture ++ added = added := Array.empty_append
  refine ⟨used, first, second, hdone, hx, hframes, hcircle, hpen, hfirst, hsecond,
    herror ▸ hfailure, hstore, added, ?_, hadded, hother, hlast⟩
  rw [← hsize, hadded, hempty]

end Engine

end Sketch
