import Sketch.Proofs.Returns

/-!
# Reachable engines

`Engine.Reachable` are the engines that a user can come to: by starting and resetting, by executing
any lines at any addresses, and by lines at the prompt, however those end. What holds of the control
stacks in all of them is `Reachable.regular`, and `Reachable.store_balanced` says it block by block.
What else every line keeps holds in all of them by `Reachable.store_induction`.

A line at the prompt is the one place where stacks are cut back. It is cut back to what was open
before it (`direct_control`), since a call that is followed never touches what lies below it.
-/

namespace Sketch

/-! ## The room on the stacks -/

namespace Store

variable {store after : Store} {cursor next : Address} {tokens : List String}

/-- The blocks and the calls are within their bounds. -/
structure Bounded (store : Store) : Prop where
  frames : store.flow.frames.height ≤ frameBound.size
  calls : store.flow.calls.height ≤ callBound.size

/-- `Bounded` is kept when the end of a definition is noted. -/
theorem Bounded.closed (h : store.Bounded) (cursor : Address) : (store.closed cursor).Bounded := by
  unfold Store.closed
  split
  · exact ⟨h.frames, h.calls⟩
  · exact h

/-- `Bounded` is kept when a frame is popped. -/
theorem Bounded.pop (h : store.Bounded) {frame : Frame} {frames : Stack Frame}
    (hf : store.flow.frames = frames.cons frame) :
    Bounded { store with flow.frames := frames } := by
  have hroom := h.frames
  rw [hf, Stack.height_cons] at hroom
  exact ⟨by simp only; omega, h.calls⟩

/-- `Bounded` is kept by the return from a call. -/
theorem Bounded.leaves (h : store.Bounded) (hl : Leaves cursor store next after) :
    after.Bounded := by
  cases hl with
  | stays _ => exact h
  | returns hf hc _ =>
    have hframes := h.frames
    have hcalls := h.calls
    rw [hf, Stack.height_cons] at hframes
    rw [hc, Stack.height_cons] at hcalls
    exact ⟨by simp only; omega, by simp only; omega⟩

/-- `Bounded` is kept by a line that is skipped. -/
theorem Bounded.skips (h : store.Bounded) (he : Skips tokens cursor store next after) :
    after.Bounded := by
  cases he with
  | ignores _ _ => exact h
  | nests _ room => exact ⟨room, h.calls⟩
  | closes _ hf _ => exact h.pop hf
  | endsLoop _ hf _ =>
    obtain ⟨hframes, hcalls⟩ := h.pop hf
    exact ⟨hframes, hcalls⟩
  | endsDefinition _ hf hl => exact ((h.pop hf).closed cursor).leaves hl

/-- `Bounded` is kept by every command that succeeds, since pushes are bounded. -/
theorem Bounded.performs {command : Command} {step : Step} (h : store.Bounded)
    (he : Performs cursor store command tokens step after) : after.Bounded := by
  cases he with
  | assigns _ _ _ => exact ⟨h.frames, h.calls⟩
  | calls _ _ hc hf => exact ⟨hf, hc⟩
  | branches _ hf => exact ⟨hf, h.calls⟩
  | loops _ hf _ => exact ⟨hf, h.calls⟩
  | defines _ _ hf _ => exact ⟨hf, h.calls⟩
  | closesNothing _ _ _ => exact h
  | closesBranch _ hf => exact h.pop hf
  | closesLoop _ hf _ =>
    obtain ⟨hframes, hcalls⟩ := h.pop hf
    exact ⟨hframes, hcalls⟩
  | closesMethod _ hl => exact h.leaves hl
  | draws _ => exact h

/-- `Bounded` is kept by `Executes`. -/
theorem Bounded.step {line : Line} {result : Step} (h : store.Bounded)
    (he : Executes line cursor store result after) : after.Bounded := by
  cases he with
  | blank _ => exact h
  | skips _ _ he => exact h.skips he
  | performs _ _ _ he => exact h.performs he

/-- The invariant of a whole store, in which `lost` calls have no block any more. -/
structure Regular (store : Store) (lost : Nat) : Prop where
  stands : store.Stands (.bottom lost)
  bounded : store.Bounded

namespace Regular

variable {lost : Nat}

/-- The empty store is `Regular`. -/
theorem empty : Store.empty.Regular 0 where
  stands := stands_bottom_iff.2 .empty
  bounded := ⟨Nat.zero_le _, Nat.zero_le _⟩

/-- `Regular` looks at nothing but the `control`. -/
theorem of_control_eq (h : store.Regular lost) (hc : after.control = store.control) :
    after.Regular lost where
  stands := by
    have := stands_bottom_iff.1 h.stands
    exact stands_bottom_iff.2 (hc ▸ this)
  bounded := by
    have hframes : after.flow.frames.entries = store.flow.frames.entries :=
      congrArg Control.frames hc
    have hcalls : after.flow.calls.entries = store.flow.calls.entries := congrArg Control.calls hc
    refine ⟨?_, ?_⟩
    · rw [Stack.ext_entries hframes]
      exact h.bounded.frames
    · rw [Stack.ext_entries hcalls]
      exact h.bounded.calls

/-- `Regular` is kept by every line that succeeds. -/
theorem step {line : Line} {result : Step} (h : store.Regular lost)
    (he : Executes line cursor store result after) : after.Regular lost := by
  refine ⟨?_, h.bounded.step he⟩
  rcases h.stands.step he with hs | hreturned
  · exact hs
  · cases hreturned

/-- After a `Leftover`, the store is `Regular` with at most one more call that has lost its frame.
-/
theorem leftover {line : Line} (h : store.Regular lost)
    (hl : Leftover line cursor store after) : after.Regular lost ∨ after.Regular (lost + 1) := by
  cases hl with
  | @call _ invocation _ _ _ hc =>
    refine .inr ⟨stands_bottom_iff.2 ?_, h.bounded.frames, hc⟩
    obtain ⟨layered, loops, calls, definitions, scopes⟩ := stands_bottom_iff.1 h.stands
    refine ⟨layered, loops, ?_, definitions, ?_⟩
    · have : (store.control.calls).length + 1 =
          store.control.frames.countP Frame.isCall + (lost + 1) := by omega
      exact this
    · exact congrArg (· + 1) scopes
  | method _ _ _ _ => exact .inl (h.of_control_eq rfl)

end Regular

/-! ## Cutting back -/

/-- `unwind` gives the stacks that were there at the checkpoint, if nothing of them was taken. -/
theorem control_unwind (extra : Control) (h : after.control = extra.onto store.control) :
    (after.unwind store.checkpoint).control = store.control := by
  rw [Control.ext_iff] at h
  obtain ⟨frames, loops, calls, definitions, scopes⟩ := h
  rw [Control.ext_iff]
  exact ⟨congrArg Stack.entries (Stack.truncate_of_entries_eq frames),
    congrArg Stack.entries (Stack.truncate_of_entries_eq loops),
    congrArg Stack.entries (Stack.truncate_of_entries_eq calls),
    congrArg Stack.entries (Stack.truncate_of_entries_eq definitions),
    congrArg Stack.entries (Stack.truncate_of_entries_eq scopes)⟩

/-- A `Leftover` lies on top of what was there. -/
theorem Leftover.onto {line : Line} (h : Leftover line cursor store after) :
    ∃ extra : Control, after.control = extra.onto store.control := by
  cases h with
  | @call _ invocation _ _ _ _ =>
    exact ⟨⟨[], [], [⟨invocation.name, cursor⟩], [], [invocation.scope]⟩, rfl⟩
  | method _ _ _ _ => exact ⟨.empty, rfl⟩

end Store

/-! ## Lines at the prompt -/

namespace Engine

variable {program : Program} {interrupt : Nat → Bool} {line : Line} {cursor next : Address}
  {engine after : Engine} {lost : Nat}

/-- Where the store is `Regular`, a line that fails takes nothing from the stacks. -/
theorem error_onto (h : engine.store.Regular lost) {stop : Stop}
    (he : execute line cursor engine = .error stop after) :
    ∃ extra : Control, after.store.control = extra.onto engine.store.control := by
  obtain ⟨fault, -, hf, -⟩ := execute_eq_error_iff.1 he
  rcases h.stands.fails hf with hs | ⟨-, -, -, hl⟩
  · exact ⟨.empty, by rw [hs]; rfl⟩
  · exact hl.onto

/-- `Underway` keeps what `Executes` keeps. -/
theorem Underway.invariant {P : Store → Prop}
    (step : ∀ {line cursor store result after}, P store →
      Store.Executes line cursor store result after → P after)
    {depth n : Nat} {a b : Address} (h : Underway program depth n a engine b after)
    (hp : P engine.store) : P after.store := by
  induction h with
  | refl => exact hp
  | step _ _ he _ ih =>
    obtain ⟨_, hx, -, -⟩ := execute_eq_ok_iff.1 he
    exact ih (step hp hx)

/-- `Regular` is kept by the lines of a call. -/
theorem Underway.regular {depth n : Nat} {a b : Address}
    (h : Underway program depth n a engine b after) (hr : engine.store.Regular lost) :
    after.store.Regular lost :=
  h.invariant Store.Regular.step hr

/-- `follow` leaves the `control` from before the call, however it ends. -/
theorem follow_control {origin : Store} {call : Call} {fuel polls : Nat}
    {outcome : Outcome (Option Address)} (hr : engine.store.Regular lost)
    (hs : engine.store.Stands (.within origin.control call))
    (hf : follow program interrupt origin.checkpoint origin.flow.calls.height fuel polls cursor
      engine = some outcome) :
    outcome.engine.store.control = origin.control := by
  obtain ⟨n, b, last, hu, hend⟩ := follow_ends hf
  rcases hu.stands_or_returned hs with hinside | hreturned
  · -- the call is open, and what it has opened is cut back
    rcases hend with ⟨hback, -⟩ | ⟨-, hbreaks⟩
    · exact absurd hback (Nat.not_le_of_gt hinside.height_lt)
    obtain ⟨extra, hover⟩ := hinside.onto
    cases hbreaks with
    | interrupted _ => exact Store.control_unwind extra hover
    | missing _ => exact Store.control_unwind extra hover
    | fails _ he =>
      -- the line that fails adds to what the call has opened
      obtain ⟨more, hmore⟩ := error_onto (hu.regular hr) he
      rw [hover] at hmore
      exact Store.control_unwind (more.onto extra) (by simp [hmore, Control.onto])
  · rcases hend with ⟨-, rfl⟩ | ⟨hopen, -⟩
    · exact hreturned.control_eq
    · exact absurd hreturned.height_eq (Nat.ne_of_gt hopen)

/-- After a line that opens a call, the store `Stands` within that call. -/
theorem stands_within_of_executes {store after : Store} {step : Step}
    (hx : Store.Executes line cursor store step after)
    (hdeep : store.flow.calls.height < after.flow.calls.height) :
    ∃ call, after.Stands (.within store.control call) := by
  have hmoves := hx.moves
  generalize step.cursor = next at hmoves
  cases hmoves with
  | stays hc => exact absurd hdeep (hc ▸ Nat.lt_irrefl _)
  | @enters _ invocation _ _ =>
    exact ⟨⟨invocation.name, cursor⟩, store.stands_entered invocation cursor⟩
  | rewinds _ _ hc => exact absurd hdeep (hc ▸ Nat.lt_irrefl _)
  | returns _ hc =>
    rw [hc, Stack.height_cons] at hdeep
    omega

/-- `direct` leaves the `control` as it was, or the line opens no call: it then succeeds, is over
after itself and has done to the stacks what a line does. -/
theorem direct_control {fuel : Nat} {outcome : Outcome (Option Address)}
    (hr : engine.store.Regular lost)
    (hd : direct program interrupt fuel line engine = some outcome) :
    outcome.engine.store.control = engine.store.control ∨
      ∃ cursor step after, Store.Executes line cursor engine.store step after.store ∧
        after.store.flow.calls.height ≤ engine.store.flow.calls.height ∧
        outcome = .ok none after := by
  rcases direct_cases hd with ⟨next, first, he, hf⟩ | ⟨fault, after, he, rfl⟩
  · obtain ⟨step, hx, rfl, -⟩ := execute_eq_ok_iff.1 he
    -- only a line that opened a call is followed; any other is over after itself
    by_cases hdeep : engine.store.flow.calls.height < first.store.flow.calls.height
    · obtain ⟨call, hs⟩ := stands_within_of_executes hx hdeep
      exact .inl (follow_control (hr.step hx) hs hf)
    · cases fuel with
      | zero => simp [follow] at hf
      | succ fuel =>
        rw [follow, if_pos (Nat.not_lt.1 hdeep)] at hf
        cases hf
        exact .inr ⟨_, step, first, hx, Nat.not_lt.1 hdeep, rfl⟩
  · obtain ⟨extra, hover⟩ := error_onto hr he
    exact .inl (Store.control_unwind extra hover)

/-! ## Every reachable engine -/

/-- The engines that a fresh one can become. A line that fails is among the steps if its fault is
tolerated; a line at the prompt may end in any way. -/
inductive Reachable (tolerated : Fault → Prop) : Engine → Prop where
  | initial : Reachable tolerated .initial
  | start {engine : Engine} (h : Reachable tolerated engine) : Reachable tolerated engine.start
  | reset {engine : Engine} (h : Reachable tolerated engine) : Reachable tolerated engine.reset
  | takePicture {engine : Engine} (h : Reachable tolerated engine) :
      Reachable tolerated engine.takePicture.2
  | execute {engine after : Engine} {line : Line} {cursor next : Address}
      (h : Reachable tolerated engine) (he : execute line cursor engine = .ok next after) :
      Reachable tolerated after
  | refuse {engine after : Engine} {line : Line} {cursor : Address} {stop : Stop}
      (h : Reachable tolerated engine) (he : execute line cursor engine = .error stop after)
      (ht : tolerated stop.failure.fault) : Reachable tolerated after
  | direct {engine : Engine} {program : Program} {interrupt : Nat → Bool} {fuel : Nat}
      {line : Line} {outcome : Outcome (Option Address)} (h : Reachable tolerated engine)
      (hd : direct program interrupt fuel line engine = some outcome) :
      Reachable tolerated outcome.engine

namespace Reachable

variable {tolerated : Fault → Prop}

/-- The stacks of a reachable engine go together. A call can lose its frame only where
`full frameBound` is tolerated. -/
theorem regular (h : Reachable tolerated engine) :
    ∃ lost, engine.store.Regular lost ∧ (lost = 0 ∨ tolerated (.full frameBound)) := by
  induction h with
  | initial => exact ⟨0, .empty, .inl rfl⟩
  | start _ _ => exact ⟨0, .empty, .inl rfl⟩
  | reset _ _ => exact ⟨0, .empty, .inl rfl⟩
  | takePicture _ ih => exact ih
  | execute _ he ih =>
    obtain ⟨lost, hr, hl⟩ := ih
    obtain ⟨step, hx, -, -⟩ := execute_eq_ok_iff.1 he
    exact ⟨lost, hr.step hx, hl⟩
  | refuse _ he ht ih =>
    obtain ⟨lost, hr, hl⟩ := ih
    obtain ⟨fault, rfl, hf, -⟩ := execute_eq_error_iff.1 he
    rcases hr.stands.fails hf with hs | ⟨-, -, rfl, hleft⟩
    · exact ⟨lost, hs ▸ hr, hl⟩
    · rcases hr.leftover hleft with hr' | hr'
      · exact ⟨lost, hr', hl⟩
      · exact ⟨lost + 1, hr', .inr ht⟩
  | direct _ hd ih =>
    obtain ⟨lost, hr, hl⟩ := ih
    rcases direct_control hr hd with hc | ⟨_, _, _, hx, -, rfl⟩
    · exact ⟨lost, hr.of_control_eq hc, hl⟩
    · exact ⟨lost, hr.step hx, hl⟩

/-- What holds of the empty store, and is kept by `Executes`, by a `Leftover` and by `unwind`, holds
of every `Reachable` engine. -/
theorem store_induction {P : Store → Prop} (empty : P .empty)
    (step : ∀ {line cursor store result after}, P store →
      Store.Executes line cursor store result after → P after)
    (leftover : ∀ {line cursor store after}, P store →
      Store.Leftover line cursor store after → P after)
    (unwind : ∀ {store origin}, P store → P origin → P (store.unwind origin.checkpoint))
    (h : Reachable tolerated engine) : P engine.store := by
  -- a line that fails leaves the store alone or leaves a leftover behind
  have hline : ∀ {line cursor engine stop after lost}, engine.store.Regular lost →
      P engine.store → Engine.execute line cursor engine = .error stop after → P after.store := by
    intro line cursor engine stop after lost hr hp he
    obtain ⟨fault, -, hf, -⟩ := execute_eq_error_iff.1 he
    rcases hr.stands.fails hf with hs | ⟨-, -, -, hleft⟩
    · exact hs ▸ hp
    · exact leftover hp hleft
  induction h with
  | initial => exact empty
  | start _ _ => exact empty
  | reset _ _ => exact empty
  | takePicture _ ih => exact ih
  | execute _ he ih =>
    obtain ⟨_, hx, -, -⟩ := execute_eq_ok_iff.1 he
    exact step ih hx
  | refuse h he _ ih =>
    obtain ⟨_, hr, -⟩ := h.regular
    exact hline hr ih he
  | direct h hd ih =>
    rcases direct_cases hd with ⟨next, first, he, hf⟩ | ⟨fault, after, he, rfl⟩
    · obtain ⟨_, hr, -⟩ := (h.execute he).regular
      obtain ⟨_, hx, -, -⟩ := execute_eq_ok_iff.1 he
      obtain ⟨n, b, last, hu, hend⟩ := follow_ends hf
      have hlast : P last.store := hu.invariant step (step ih hx)
      rcases hend with ⟨-, rfl⟩ | ⟨-, hbreaks⟩
      · exact hlast
      · cases hbreaks with
        | interrupted _ => exact unwind hlast ih
        | missing _ => exact unwind hlast ih
        | fails _ he => exact unwind (hline (hu.regular hr) hlast he) ih
    · obtain ⟨_, hr, -⟩ := h.regular
      exact unwind (hline hr ih he) ih

/-- `runFrom` ends in a `Reachable` engine if its fault is tolerated. -/
theorem runFrom {fuel : Nat} {outcome : Outcome Unit} (h : Reachable tolerated engine)
    (hr : Engine.runFrom program fuel cursor engine = some outcome)
    (ht : ∀ fault, outcome.fault? = some fault → tolerated fault) :
    Reachable tolerated outcome.engine := by
  rcases runFrom_cases (P := fun _ => Reachable tolerated)
      (fun _ h he => Reachable.execute h he) h hr with
    ⟨b, last, rfl, -, hlast⟩ | ⟨b, line, before, last, fault, -, hbefore, he, rfl⟩
  · exact hlast
  · exact hbefore.refuse he (ht fault rfl)

/-- `run` ends in a `Reachable` engine if its fault is tolerated. -/
theorem run {fuel : Nat} {outcome : Outcome Unit} (h : Reachable tolerated engine)
    (hr : Engine.run program fuel engine = some outcome)
    (ht : ∀ fault, outcome.fault? = some fault → tolerated fault) :
    Reachable tolerated outcome.engine :=
  h.start.runFrom hr ht

end Reachable

end Engine

/-! ## The stacks block by block -/

namespace Layered

variable {frames : List Frame}

/-- `Layered` frames, from the oldest to the newest: executed ones, and then nothing or one skipped
frame with nested frames after it. -/
theorem exists_reverse_eq (h : Layered frames) :
    ∃ executed rest, frames.reverse = executed ++ rest ∧
      (∀ frame ∈ executed, frame.mode = .executing) ∧
      (rest = [] ∨ ∃ construct nested, rest = ⟨construct, .skipping⟩ :: nested ∧
        ∀ frame ∈ nested, frame.mode = .nested) := by
  -- the newest frame says what is below it: only executed ones, unless it is nested
  induction frames with
  | nil => exact ⟨[], [], rfl, by simp, .inl rfl⟩
  | cons frame frames ih =>
    rcases frame with ⟨construct, mode⟩
    cases mode with
    | executing =>
      have hx : ∀ frame ∈ frames, frame.isExecuting = true := h
      refine ⟨frames.reverse ++ [⟨construct, .executing⟩], [], by simp, ?_, .inl rfl⟩
      intro frame hmem
      rcases List.mem_append.1 hmem with hmem | hmem
      · simpa [Frame.isExecuting] using hx frame (List.mem_reverse.1 hmem)
      · rw [List.mem_singleton.1 hmem]
    | skipping =>
      have hx : ∀ frame ∈ frames, frame.isExecuting = true := h
      refine ⟨frames.reverse, [⟨construct, .skipping⟩], by simp, ?_,
        .inr ⟨construct, [], rfl, by simp⟩⟩
      intro frame hmem
      simpa [Frame.isExecuting] using hx frame (List.mem_reverse.1 hmem)
    | nested =>
      obtain ⟨hlayered, hs⟩ := h
      obtain ⟨executed, rest, hrev, hex, rfl | ⟨outer, nested, rfl, hn⟩⟩ := ih hlayered
      · -- a nested block stands above a block that is not executed
        rcases frames with _ | ⟨top, frames⟩
        · cases hs
        · have := hex top (by rw [List.append_nil] at hrev; simp [← hrev])
          simp [topSuspended, Frame.isExecuting, this] at hs
      · refine ⟨executed, ⟨outer, .skipping⟩ :: (nested ++ [⟨construct, .nested⟩]),
          by simp [hrev], hex, .inr ⟨outer, _, rfl, ?_⟩⟩
        intro frame hmem
        rcases List.mem_append.1 hmem with hmem | hmem
        · exact hn frame hmem
        · rw [List.mem_singleton.1 hmem]

/-- Among `Layered` frames at most one is that of a definition (`isDefinition`). -/
theorem countP_isDefinition (h : Layered frames) :
    frames.countP Frame.isDefinition = if ⟨.method, .skipping⟩ ∈ frames then 1 else 0 := by
  have hzero : ∀ {frames : List Frame}, (∀ frame ∈ frames, frame.isExecuting = true) →
      frames.countP Frame.isDefinition = 0 ∧ ⟨.method, .skipping⟩ ∉ frames := by
    intro frames hx
    refine ⟨List.countP_eq_zero.2 fun frame hmem => ?_, fun hmem => ?_⟩
    · have := hx frame hmem
      rcases frame with ⟨construct, mode⟩
      simp_all [Frame.isExecuting, Frame.isDefinition]
    · simpa [Frame.isExecuting] using hx _ hmem
  induction frames with
  | nil => rfl
  | cons frame frames ih =>
    rcases frame with ⟨construct, mode⟩
    cases mode with
    | executing =>
      obtain ⟨hc, hm⟩ := hzero h
      simp [Frame.isDefinition, hc, hm]
    | skipping =>
      obtain ⟨hc, hm⟩ := hzero h
      cases construct <;> simp [Frame.isDefinition, hc, hm]
    | nested => simpa [Frame.isDefinition] using ih h.1

end Layered

/-- The open blocks and what stands on the other stacks, from the oldest entry to the newest. -/
structure Store.Balanced (store : Store) : Prop where
  /-- executed blocks, then nothing or one skipped block with nested blocks after it -/
  blocks : ∃ executed rest, store.flow.frames.toList = executed ++ rest ∧
    (∀ frame ∈ executed, frame.mode = .executing) ∧
    (rest = [] ∨ ∃ construct nested, rest = ⟨construct, .skipping⟩ :: nested ∧
      ∀ frame ∈ nested, frame.mode = .nested)
  /-- a loop for each loop block that is not nested, to be gone back to if the block is executed -/
  loops : store.flow.loops.toList.map Option.isSome =
    (store.flow.frames.toList.filter fun frame =>
      frame.construct = .loop ∧ frame.mode ≠ .nested).map fun frame =>
        decide (frame.mode = .executing)
  /-- a call for each method block that is executed -/
  calls : store.flow.calls.height =
    (store.flow.frames.toList.filter (· = ⟨.method, .executing⟩)).length
  scopes : store.vars.scopes.height = store.flow.calls.height
  /-- the method whose block is the skipped one -/
  definitions : store.flow.definitions.height =
    if ⟨.method, .skipping⟩ ∈ store.flow.frames.toList then 1 else 0
  frames_le : store.flow.frames.height ≤ 65535
  calls_le : store.flow.calls.height ≤ 4096

/-- A `Regular` store without lost calls is `Balanced`. -/
theorem Store.Regular.balanced {store : Store} (h : store.Regular 0) : store.Balanced := by
  obtain ⟨layered, loops, calls, definitions, -⟩ := stands_bottom_iff.1 h.stands
  refine ⟨layered.exists_reverse_eq, ?_, ?_, h.stands.scopes_eq_calls, ?_, h.bounded.frames,
    h.bounded.calls⟩
  · have hloop : (fun frame : Frame => decide (frame.construct = .loop ∧ frame.mode ≠ .nested)) =
        Frame.isLoop := by
      funext frame
      simp [Frame.isLoop]
    rw [hloop, Stack.toList, Stack.toList, List.filter_reverse, List.map_reverse, List.map_reverse]
    exact congrArg List.reverse loops
  · rw [store.flow.calls.height_eq, Stack.toList, List.filter_reverse, List.length_reverse,
      ← List.countP_eq_length_filter]
    refine calls.trans (List.countP_congr fun frame _ => ?_)
    rcases frame with ⟨construct, mode⟩
    simp [Frame.isCall]
  · rw [store.flow.definitions.height_eq, Stack.toList]
    simp only [List.mem_reverse]
    exact definitions.trans layered.countP_isDefinition

/-- **Stacks are balanced.** In every engine that is `Reachable` without an `outOfMemory`, the store
is `Balanced`: frames, loops, calls, definitions and scopes match each other and keep to their
bounds. -/
theorem Engine.Reachable.store_balanced {engine : Engine}
    (h : Reachable (fun fault => fault.kind ≠ .outOfMemory) engine) : engine.store.Balanced := by
  obtain ⟨lost, hr, hl⟩ := h.regular
  rcases hl with rfl | hl
  · exact hr.balanced
  · exact absurd rfl hl

/-- A run that fails in a branch of a loop of a called method, and after it a definition that is
skipped with a loop inside. -/
theorem Engine.Reachable.store_balanced_nested : ∃ engine : Engine,
    Reachable (fun fault => fault.kind ≠ .outOfMemory) engine ∧
      engine.store.flow.frames.toList = [⟨.method, .executing⟩, ⟨.loop, .executing⟩,
        ⟨.branch, .executing⟩, ⟨.method, .skipping⟩, ⟨.loop, .nested⟩] ∧
      engine.store.Balanced := by
  let program := Program.parse
    "METHOD f(n)\nWHILE n > 0\nIF n < 9\nx = n / 0\nENDIF\nENDWHILE\nENDMETHOD\nf(3)\n"
  let rest := Program.parse "METHOD g()\nWHILE\n"
  have hrun :
      (Engine.run program 40 .initial).map Outcome.fault? = some (some .divisionByZero) := by
    decide +kernel
  obtain ⟨first, hfirst, hfault⟩ := Option.map_eq_some_iff.1 hrun
  have hrest : ((Engine.run program 40 .initial).bind fun first =>
      Engine.runFrom rest 40 0 first.engine).map (fun outcome =>
        (outcome.fault?, outcome.engine.store.flow.frames.toList)) =
      some (none, [⟨.method, .executing⟩, ⟨.loop, .executing⟩, ⟨.branch, .executing⟩,
        ⟨.method, .skipping⟩, ⟨.loop, .nested⟩]) := by
    decide +kernel
  rw [hfirst, Option.bind_some] at hrest
  obtain ⟨last, hlast, hframes⟩ := Option.map_eq_some_iff.1 hrest
  obtain ⟨hnone, hframes⟩ := Prod.mk.inj hframes
  have hreach : Reachable (fun fault => fault.kind ≠ .outOfMemory) last.engine := by
    refine Reachable.runFrom (Reachable.runFrom (.start .initial) hfirst ?_) hlast ?_
    · intro fault hf
      rw [hfault, Option.some.injEq] at hf
      subst hf
      decide
    · intro fault hf
      rw [hnone] at hf
      cases hf
  exact ⟨last.engine, hreach, hframes, hreach.store_balanced⟩

end Sketch
