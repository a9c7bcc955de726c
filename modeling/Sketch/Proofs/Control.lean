import Sketch.Proofs.Steps

/-!
# The control stacks

The open blocks decide what stands on the other stacks. `Control.Sound` says how: the blocks are
executed ones with at most one skipped block above them and nested blocks above that one, and every
entry of the loop, call, definition and scope stacks belongs to a block.

The stacks are looked at above a `Ground`. Seen from the bottom this is the invariant of a whole
store; seen from inside a call or a loop it says that nothing below its block is touched before the
call returns or the loop goes back (`Stands.step`).
-/

namespace Sketch

/-! ## Blocks and what belongs to them -/

namespace Frame

/-- The block of a call. -/
def isCall (frame : Frame) : Bool :=
  frame.construct = .method && frame.mode = .executing

/-- The block of a loop whose header was looked at. -/
def isLoop (frame : Frame) : Bool :=
  frame.construct = .loop && frame.mode ≠ .nested

/-- The block of a definition whose header was looked at. -/
def isDefinition (frame : Frame) : Bool :=
  frame.construct = .method && frame.mode = .skipping

/-- Whether the lines of the block are executed. -/
def isExecuting (frame : Frame) : Bool :=
  frame.mode = .executing

end Frame

/-- Whether the newest of these blocks, newest first, is one whose lines are not executed. -/
def topSuspended : List Frame → Bool
  | [] => false
  | frame :: _ => !frame.isExecuting

/-- Blocks, newest first: executed ones, above them at most one skipped block, and nested blocks
only above a skipped one. -/
def Layered : List Frame → Prop
  | [] => True
  | ⟨_, .nested⟩ :: rest => Layered rest ∧ topSuspended rest = true
  | _ :: rest => ∀ frame ∈ rest, frame.isExecuting = true

/-- The entries of the five stacks, newest first. -/
@[ext] structure Control where
  frames : List Frame
  loops : List (Option Address)
  calls : List Call
  definitions : List String
  scopes : List Scope

/-- The entries of the stacks of a store. -/
def Store.control (store : Store) : Control where
  frames := store.flow.frames.entries
  loops := store.flow.loops.entries
  calls := store.flow.calls.entries
  definitions := store.flow.definitions.entries
  scopes := store.vars.scopes.entries

namespace Control

/-- The entries of `upper` on top of those of `lower`. -/
def onto (upper lower : Control) : Control where
  frames := upper.frames ++ lower.frames
  loops := upper.loops ++ lower.loops
  calls := upper.calls ++ lower.calls
  definitions := upper.definitions ++ lower.definitions
  scopes := upper.scopes ++ lower.scopes

/-- No entries. -/
def empty : Control := ⟨[], [], [], [], []⟩

/-- The blocks are layered and the other stacks hold what belongs to them. There are `slack` calls
without a block, and `own` scopes without a call. -/
structure Sound (control : Control) (own slack : Nat) : Prop where
  layered : Layered control.frames
  loops : control.loops.map Option.isSome =
    (control.frames.filter Frame.isLoop).map Frame.isExecuting
  calls : control.calls.length = control.frames.countP Frame.isCall + slack
  definitions : control.definitions.length = control.frames.countP Frame.isDefinition
  scopes : control.scopes.length = control.calls.length + own

end Control

/-- What the stacks are looked at above: nothing, where `lost` calls have no block any more, or the
block of a call or of a loop that was opened when `base` was open. The scope in which its lines are
executed lies above the ground: the one of that call, or the newest one of `base`. -/
inductive Ground where
  | bottom (lost : Nat)
  | within (base : Control) (call : Call)
  | looping (base : Control) (header : Address)

namespace Ground

/-- The entries of the ground. -/
def control : Ground → Control
  | .bottom _ => .empty
  | .within base call =>
    { base with frames := ⟨.method, .executing⟩ :: base.frames, calls := call :: base.calls }
  | .looping base header =>
    { base with
      frames := ⟨.loop, .executing⟩ :: base.frames
      loops := some header :: base.loops
      scopes := base.scopes.tail }

/-- The number of scopes above the ground that belong to it. -/
def own : Ground → Nat
  | .bottom _ => 0
  | .within _ _ => 1
  | .looping base _ => min 1 base.scopes.length

/-- The number of calls above the ground that have no block. -/
def lost : Ground → Nat
  | .bottom lost => lost
  | .within _ _ => 0
  | .looping _ _ => 0

end Ground

namespace Store

/-- The stacks above the ground are sound. -/
def Stands (store : Store) (ground : Ground) : Prop :=
  ∃ upper : Control, store.control = upper.onto ground.control ∧
    upper.Sound ground.own ground.lost

/-- The block at the ground is closed: what was open below it is open again. The cursor is at the
line of the call, or before the header of the loop. -/
inductive Returned : Ground → Address → Store → Prop where
  | call {base : Control} {call : Call} {store : Store} (hc : store.control = base) :
      Returned (.within base call) call.returnTo store
  | loop {base : Control} {header : Address} {store : Store} {newest : List Scope}
      (hlength : newest.length = min 1 base.scopes.length)
      (hc : store.control = { base with scopes := newest ++ base.scopes.tail }) :
      Returned (.looping base header) (header - 1) store

end Store

/-! ## Layers -/

/-- The `mode` of a condition is `executing` or `skipping`. -/
theorem Condition.mode_ne_nested (condition : Condition) : condition.mode ≠ .nested := by
  unfold mode
  split <;> simp

/-- `rewind` gives the header exactly if the block of the loop is executed. -/
theorem Condition.isSome_rewind (condition : Condition) (cursor : Address) :
    (condition.rewind cursor).isSome = (⟨.loop, condition.mode⟩ : Frame).isExecuting := by
  unfold mode rewind
  split <;> rfl

/-- `suspended` looks at the newest frame only. -/
theorem Flow.suspended_eq (flow : Flow) : flow.suspended = topSuspended flow.frames.entries := by
  unfold Flow.suspended Flow.top? Stack.top?
  cases flow.frames.entries with
  | nil => rfl
  | cons frame rest => cases h : frame.mode <;> simp [topSuspended, Frame.isExecuting, h]

namespace Layered

variable {frames : List Frame} {frame : Frame}

/-- In `Layered` frames of which the newest is executed, all are. -/
theorem executing (h : Layered frames) (hs : topSuspended frames = false) :
    ∀ frame ∈ frames, frame.isExecuting = true := by
  rcases frames with _ | ⟨⟨c, m⟩, rest⟩
  · simp
  · cases m <;> simp_all [Layered, topSuspended, Frame.isExecuting]

/-- Executed blocks are `Layered`. -/
theorem of_executing (h : ∀ frame ∈ frames, frame.isExecuting = true) : Layered frames := by
  rcases frames with _ | ⟨⟨c, m⟩, rest⟩
  · trivial
  · cases m <;> simp_all [Layered, Frame.isExecuting]

/-- Frames stay `Layered` when a block is opened over executed ones. -/
theorem push (h : ∀ frame ∈ frames, frame.isExecuting = true) (hm : frame.mode ≠ .nested) :
    Layered (frame :: frames) := by
  rcases frame with ⟨c, m⟩
  cases m <;> simp_all [Layered]

/-- `Layered` blocks stay so without the newest one. -/
theorem tail (h : Layered (frame :: frames)) : Layered frames := by
  rcases frame with ⟨c, m⟩
  cases m with
  | nested => exact h.1
  | executing => exact of_executing h
  | skipping => exact of_executing h

end Layered

/-! ## Opening and closing a block -/

namespace Control.Sound

variable {control : Control} {own slack : Nat} {frame : Frame} {rest : List Frame}

/-- `Control.empty` is `Sound`. -/
theorem empty : Control.empty.Sound 0 0 where
  layered := trivial
  loops := rfl
  calls := rfl
  definitions := rfl
  scopes := rfl

/-- `Sound` is kept when a block is nested in one that is skipped. -/
theorem nest (h : control.Sound own slack) (hs : topSuspended control.frames = true)
    (construct : Construct) :
    Sound { control with frames := ⟨construct, .nested⟩ :: control.frames } own slack where
  layered := ⟨h.layered, hs⟩
  loops := by simpa [Frame.isLoop] using h.loops
  calls := by simpa [Frame.isCall] using h.calls
  definitions := by simpa [Frame.isDefinition] using h.definitions
  scopes := h.scopes

/-- `Sound` is kept when a branch is opened. -/
theorem branch (h : control.Sound own slack) (hs : topSuspended control.frames = false)
    (mode : Mode) (hm : mode ≠ .nested) :
    Sound { control with frames := ⟨.branch, mode⟩ :: control.frames } own slack where
  layered := .push (h.layered.executing hs) hm
  loops := by simpa [Frame.isLoop] using h.loops
  calls := by simpa [Frame.isCall] using h.calls
  definitions := by simpa [Frame.isDefinition] using h.definitions
  scopes := h.scopes

/-- `Sound` is kept when a loop is opened with its entry on the stack of loops. -/
theorem loop (h : control.Sound own slack) (hs : topSuspended control.frames = false)
    (mode : Mode) (rewind : Option Address) (hm : mode ≠ .nested)
    (hr : rewind.isSome = (⟨.loop, mode⟩ : Frame).isExecuting) :
    Sound { control with
      frames := ⟨.loop, mode⟩ :: control.frames, loops := rewind :: control.loops } own slack where
  layered := .push (h.layered.executing hs) hm
  loops := by
    have hl : (⟨.loop, mode⟩ : Frame).isLoop = true := by simp [Frame.isLoop, hm]
    simp only [List.map_cons, List.filter_cons_of_pos hl, h.loops, hr]
  calls := by simpa [Frame.isCall] using h.calls
  definitions := by simpa [Frame.isDefinition] using h.definitions
  scopes := h.scopes

/-- `Sound` is kept when a definition is opened with its name on the stack of definitions. -/
theorem define (h : control.Sound own slack) (hs : topSuspended control.frames = false)
    (name : String) :
    Sound { control with
      frames := ⟨.method, .skipping⟩ :: control.frames
      definitions := name :: control.definitions } own slack where
  layered := .push (h.layered.executing hs) (by decide)
  loops := by simpa [Frame.isLoop] using h.loops
  calls := by simpa [Frame.isCall] using h.calls
  definitions := by simpa [Frame.isDefinition] using h.definitions
  scopes := h.scopes

/-- `Sound` is kept when a call is opened with its entry on the stack of calls and its scope. -/
theorem call (h : control.Sound own slack) (hs : topSuspended control.frames = false)
    (entry : Call) (scope : Scope) :
    Sound { control with
      frames := ⟨.method, .executing⟩ :: control.frames
      calls := entry :: control.calls
      scopes := scope :: control.scopes } own slack where
  layered := .push (h.layered.executing hs) (by decide)
  loops := by simpa [Frame.isLoop] using h.loops
  calls := by
    have hk := h.calls
    simp only [List.length_cons, List.countP_cons, Frame.isCall, decide_true, Bool.and_self,
      if_true]
    omega
  definitions := by simpa [Frame.isDefinition] using h.definitions
  scopes := by
    have hk := h.scopes
    simp only [List.length_cons]
    omega

/-- In `Sound` stacks without frames nothing is open but the scopes of the ground. -/
theorem of_frames_nil (h : control.Sound own 0) (hf : control.frames = []) :
    control.loops = [] ∧ control.calls = [] ∧ control.definitions = [] ∧
      control.scopes.length = own := by
  obtain ⟨-, loops, calls, definitions, scopes⟩ := h
  rw [hf] at loops calls definitions
  have hc : control.calls = [] := List.length_eq_zero_iff.1 calls
  exact ⟨List.map_eq_nil_iff.1 loops, hc, List.length_eq_zero_iff.1 definitions,
    by simpa [hc] using scopes⟩

/-- `Sound` is kept when a frame is popped that owns nothing. -/
theorem close (h : control.Sound own slack) (hf : control.frames = frame :: rest)
    (hm : frame.mode = .nested ∨ frame.construct = .branch) :
    Sound { control with frames := rest } own slack := by
  have hl : frame.isLoop = false := by rcases hm with hm | hm <;> simp [Frame.isLoop, hm]
  have hc : frame.isCall = false := by rcases hm with hm | hm <;> simp [Frame.isCall, hm]
  have hd : frame.isDefinition = false := by
    rcases hm with hm | hm <;> simp [Frame.isDefinition, hm]
  obtain ⟨layered, loops, calls, definitions, scopes⟩ := h
  rw [hf] at layered loops calls definitions
  exact ⟨layered.tail, by simpa [hl] using loops, by simpa [hc] using calls,
    by simpa [hd] using definitions, scopes⟩

/-- `Sound` is kept when the frame of a loop is popped together with the newest entry of `loops`. -/
theorem closeLoop (h : control.Sound own slack) (hf : control.frames = frame :: rest)
    (hk : frame.isLoop = true) :
    ∃ rewind loops, control.loops = rewind :: loops ∧ rewind.isSome = frame.isExecuting ∧
      Sound { control with frames := rest, loops := loops } own slack := by
  obtain ⟨layered, loops, calls, definitions, scopes⟩ := h
  have hc : frame.isCall = false := by
    rcases frame with ⟨c, m⟩
    cases c <;> simp_all [Frame.isCall, Frame.isLoop]
  have hd : frame.isDefinition = false := by
    rcases frame with ⟨c, m⟩
    cases c <;> simp_all [Frame.isDefinition, Frame.isLoop]
  rw [hf] at layered loops calls definitions
  rw [List.filter_cons_of_pos hk, List.map_cons] at loops
  obtain ⟨rewind, loops', hl, hr, hrest⟩ := List.map_eq_cons_iff.1 loops
  exact ⟨rewind, loops', hl, hr, layered.tail, hrest, by simpa [hc] using calls,
    by simpa [hd] using definitions, scopes⟩

/-- `Sound` is kept when the frame of a definition is popped together with the only entry of
`definitions`. -/
theorem closeDefinition (h : control.Sound own slack)
    (hf : control.frames = ⟨.method, .skipping⟩ :: rest) :
    ∃ name, control.definitions = [name] ∧ topSuspended rest = false ∧
      Sound { control with frames := rest, definitions := [] } own slack := by
  obtain ⟨layered, loops, calls, definitions, scopes⟩ := h
  rw [hf] at layered loops calls definitions
  have hx : ∀ frame ∈ rest, frame.isExecuting = true := layered
  -- all blocks below are executed, so none of them is a definition
  have hd : rest.countP Frame.isDefinition = 0 := by
    rw [List.countP_eq_zero]
    intro frame hmem
    have := hx frame hmem
    rcases frame with ⟨c, m⟩
    simp_all [Frame.isExecuting, Frame.isDefinition]
  have ht : topSuspended rest = false := by
    rcases rest with _ | ⟨frame, rest⟩
    · rfl
    · simp [topSuspended, hx frame (by simp)]
  have hlen : control.definitions.length = 1 := by
    simpa [List.countP_cons, hd, Frame.isDefinition] using definitions
  obtain ⟨name, hname⟩ := List.length_eq_one_iff.1 hlen
  exact ⟨name, hname, ht, layered.tail, by simpa [Frame.isLoop] using loops,
    by simpa [Frame.isCall] using calls, by simp [hd], scopes⟩

/-- `Sound` is kept when the frame of a call is popped together with the newest call and the newest
scope. -/
theorem closeCall (h : control.Sound own slack)
    (hf : control.frames = ⟨.method, .executing⟩ :: rest) :
    ∃ entry calls scope scopes, control.calls = entry :: calls ∧
      control.scopes = scope :: scopes ∧
      Sound { control with frames := rest, calls := calls, scopes := scopes } own slack := by
  obtain ⟨layered, loops, calls, definitions, scopes⟩ := h
  rw [hf] at layered loops calls definitions
  simp only [List.countP_cons, Frame.isCall, decide_true, Bool.and_self, if_true] at calls
  obtain ⟨entry, calls', hc⟩ := List.exists_cons_of_length_pos (l := control.calls) (by omega)
  obtain ⟨scope, scopes', hs⟩ := List.exists_cons_of_length_pos (l := control.scopes) (by omega)
  rw [hc, List.length_cons] at calls
  rw [hs, hc, List.length_cons, List.length_cons] at scopes
  exact ⟨entry, calls', scope, scopes', hc, hs, layered.tail, by simpa [Frame.isLoop] using loops,
    by simp only; omega, by simpa [Frame.isDefinition] using definitions,
    by simp only; omega⟩

end Control.Sound

/-! ## One line above the ground -/

namespace Store.Stands

variable {store after : Store} {ground : Ground} {cursor next : Address} {tokens : List String}

/-- The frames above the ground decide whether the flow is `suspended`. -/
theorem suspended_eq {upper : Control} (hc : store.control = upper.onto ground.control) :
    store.flow.suspended = topSuspended upper.frames := by
  rw [Flow.suspended_eq]
  have hf : store.flow.frames.entries = upper.frames ++ ground.control.frames :=
    congrArg Control.frames hc
  rw [hf]
  rcases upper with ⟨_ | ⟨frame, frames⟩, _, _, _, _⟩
  · cases ground <;> rfl
  · rfl

/-- The newest block is above the ground, or it is the block of the call or of the loop at the
ground. -/
theorem frames_cases {upper : Control} (hc : store.control = upper.onto ground.control)
    {frame : Frame} {frames : Stack Frame} (hf : store.flow.frames = frames.cons frame) :
    (∃ rest, upper.frames = frame :: rest ∧ frames.entries = rest ++ ground.control.frames) ∨
      (upper.frames = [] ∧ frame = ⟨.method, .executing⟩ ∧
        ∃ base call, ground = .within base call ∧ frames.entries = base.frames) ∨
      (upper.frames = [] ∧ frame = ⟨.loop, .executing⟩ ∧
        ∃ base header, ground = .looping base header ∧ frames.entries = base.frames) := by
  have he : frame :: frames.entries = upper.frames ++ ground.control.frames := by
    have := congrArg Control.frames hc
    simpa [Store.control, Control.onto, hf] using this
  rcases List.cons_eq_append_iff.1 he with ⟨hu, hg⟩ | ⟨rest, hu, hr⟩
  · cases ground with
    | bottom lost => simp [Ground.control, Control.empty] at hg
    | within base call =>
      simp only [Ground.control, List.cons.injEq] at hg
      exact .inr (.inl ⟨hu, hg.1.symm, base, call, rfl, hg.2.symm⟩)
    | looping base header =>
      simp only [Ground.control, List.cons.injEq] at hg
      exact .inr (.inr ⟨hu, hg.1.symm, base, header, rfl, hg.2.symm⟩)
  · exact .inl ⟨rest, hu, hr⟩

/-- `Stands` is kept by the return from a call, unless it is the call at the ground that returns. -/
theorem leaves (h : store.Stands ground) (hl : Leaves cursor store next after) :
    after.Stands ground ∨ Returned ground next after := by
  cases hl with
  | stays _ => exact .inl h
  | @returns frames calls entry scopes scope hf hk hs =>
    obtain ⟨upper, hc, hsound⟩ := h
    have hcalls := congrArg Control.calls hc
    have hscopes := congrArg Control.scopes hc
    simp only [Store.control, Control.onto, hk, hs, Stack.entries_cons] at hcalls hscopes
    rcases frames_cases hc hf with
      ⟨rest, hu, hr⟩ | ⟨hu, -, base, call, rfl, hr⟩ | ⟨-, hx, -⟩
    · -- the call was made above the ground
      obtain ⟨entry', calls', scope', scopes', hk', hs', hsound'⟩ := hsound.closeCall hu
      rw [hk', List.cons_append, List.cons.injEq] at hcalls
      rw [hs', List.cons_append, List.cons.injEq] at hscopes
      refine .inl ⟨_, ?_, hsound'⟩
      rw [Control.ext_iff] at hc ⊢
      exact ⟨hr, hc.2.1, hcalls.2, hc.2.2.2.1, hscopes.2⟩
    · -- nothing is left above the ground, so this is the call at the ground
      obtain ⟨loops, hnone, definitions, hown⟩ := hsound.of_frames_nil hu
      obtain ⟨scope', hown⟩ := List.length_eq_one_iff.1 hown
      simp only [hnone, Ground.control, List.nil_append, List.cons.injEq] at hcalls
      simp only [hown, Ground.control, List.cons_append, List.nil_append,
        List.cons.injEq] at hscopes
      rw [hcalls.1]
      refine .inr (.call ?_)
      rw [Control.ext_iff] at hc ⊢
      refine ⟨hr, ?_, hcalls.2, ?_, hscopes.2⟩
      · simpa [Store.control, Control.onto, loops, Ground.control] using hc.2.1
      · simpa [Store.control, Control.onto, definitions, Ground.control] using hc.2.2.2.1
    · cases hx

/-- `Stands` is kept when a definition is `closed`: its frame and its name go. -/
theorem endsDefinition (h : store.Stands ground) {frames : Stack Frame}
    (hf : store.flow.frames = frames.cons ⟨.method, .skipping⟩) (cursor : Address) :
    (closed { store with flow.frames := frames } cursor).Stands ground := by
  obtain ⟨upper, hc, hsound⟩ := h
  rcases frames_cases hc hf with ⟨rest, hu, hr⟩ | ⟨-, hx, -⟩ | ⟨-, hx, -⟩
  · obtain ⟨name, hd', -, hsound'⟩ := hsound.closeDefinition hu
    refine ⟨_, ?_, hsound'⟩
    rw [Control.ext_iff] at hc ⊢
    have hdefs := hc.2.2.2.1
    simp only [Store.control, Control.onto, hd', List.cons_append, List.nil_append] at hdefs
    obtain ⟨definitions, hd, hrest⟩ : ∃ definitions, store.flow.definitions =
        Stack.cons name definitions ∧ definitions.entries = ground.control.definitions :=
      ⟨.ofEntries ground.control.definitions, Stack.ext_entries (by simp [hdefs]), by simp⟩
    simp only [Store.control, closed, hd, Stack.pop_cons]
    exact ⟨hr, hc.2.1, hc.2.2.1, hrest, hc.2.2.2.2⟩
  · cases hx
  · cases hx

/-- `Stands` is kept by a line that is skipped, unless it closes the block at the ground. -/
theorem skips (h : store.Stands ground) (hs : store.flow.suspended = true)
    (he : Skips tokens cursor store next after) :
    after.Stands ground ∨ Returned ground next after := by
  obtain ⟨upper, hc, hsound⟩ := h
  have htop := suspended_eq hc
  cases he with
  | ignores _ _ => exact .inl ⟨upper, hc, hsound⟩
  | @nests construct ho room =>
    refine .inl ⟨_, ?_, hsound.nest (htop ▸ hs) construct⟩
    rw [Control.ext_iff] at hc ⊢
    simpa [Store.control, Control.onto] using hc
  | @closes construct mode frames hk hf hm =>
    rcases frames_cases hc hf with ⟨rest, hu, hr⟩ | ⟨-, hx, -⟩ | ⟨-, hx, -⟩
    · refine .inl ⟨_, ?_, hsound.close hu hm⟩
      rw [Control.ext_iff] at hc ⊢
      exact ⟨hr, hc.2⟩
    · cases hx
      simp at hm
    · cases hx
      simp at hm
  | @endsLoop frames loops rewind hk hf hl =>
    rcases frames_cases hc hf with ⟨rest, hu, hr⟩ | ⟨-, hx, -⟩ | ⟨-, hx, -⟩
    · obtain ⟨rewind', loops', hl', -, hsound'⟩ := hsound.closeLoop hu (by decide)
      refine .inl ⟨_, ?_, hsound'⟩
      rw [Control.ext_iff] at hc ⊢
      have hloops := hc.2.1
      simp only [Store.control, Control.onto, hl, hl', Stack.entries_cons, List.cons_append,
        List.cons.injEq] at hloops
      exact ⟨hr, hloops.2, hc.2.2⟩
    · cases hx
    · cases hx
  | endsDefinition hk hf hl => exact leaves (endsDefinition ⟨upper, hc, hsound⟩ hf cursor) hl

/-- `Stands` is kept by `Variables.store`, which changes only the newest scope or the globals. -/
theorem assigns (h : store.Stands ground) {name : String} {value : Number} {vars : Variables}
    (hv : store.vars.store name value = .ok vars) : Stands { store with vars } ground := by
  obtain ⟨upper, hc, hsound⟩ := h
  rcases Variables.store_cases hv with ⟨scope, scopes, hs, -, rfl⟩ | ⟨-, -, rfl⟩
  · have hscopes := congrArg Control.scopes hc
    simp only [Store.control, Control.onto, hs, Stack.entries_cons] at hscopes
    rcases List.cons_eq_append_iff.1 hscopes with ⟨hu, hg⟩ | ⟨rest, hu, hr⟩
    · -- the ground owns the scope of its lines, so the newest scope is not below it
      have hown := hsound.scopes
      cases ground with
      | bottom lost => simp [Ground.control, Control.empty] at hg
      | within base call => simp [hu, Ground.own] at hown
      | looping base header =>
        have hnone : base.scopes = [] := by
          rw [← List.length_eq_zero_iff]
          simp only [hu, Ground.own, List.length_nil] at hown
          omega
        simp [Ground.control, hnone] at hg
    · refine ⟨{ upper with scopes := scope.insert name value :: rest }, ?_, ?_⟩
      · rw [Control.ext_iff] at hc ⊢
        simp only [Store.control, Control.onto, Stack.entries_cons, List.cons_append, hr]
        exact ⟨hc.1, hc.2.1, hc.2.2.1, hc.2.2.2.1, trivial⟩
      · obtain ⟨layered, loops, calls, definitions, hlen⟩ := hsound
        exact ⟨layered, loops, calls, definitions, by simpa [hu] using hlen⟩
  · exact ⟨upper, hc, hsound⟩

/-- `Stands` is kept by every command that succeeds, unless it closes the block at the ground: each
opens or closes a block together with the entries that belong to it. -/
theorem performs {command : Command} {step : Step} (h : store.Stands ground)
    (hs : store.flow.suspended = false) (he : Performs cursor store command tokens step after) :
    after.Stands ground ∨ Returned ground step.cursor after := by
  obtain ⟨upper, hc, hsound⟩ := h
  -- only blocks that are executed are open, or the line would have been skipped
  have htop : topSuspended upper.frames = false := suspended_eq hc ▸ hs
  cases he with
  | assigns hp he hv => exact .inl (assigns ⟨upper, hc, hsound⟩ hv)
  | @calls _ invocation hr hs hk hf =>
    refine .inl ⟨_, ?_, hsound.call htop ⟨invocation.name, cursor⟩ invocation.scope⟩
    rw [Control.ext_iff] at hc ⊢
    simpa [Store.control, Control.onto] using hc
  | @branches _ condition hp hf =>
    refine .inl ⟨_, ?_, hsound.branch htop condition.mode condition.mode_ne_nested⟩
    rw [Control.ext_iff] at hc ⊢
    simpa [Store.control, Control.onto] using hc
  | @loops _ condition hp hf hl =>
    refine .inl ⟨_, ?_, hsound.loop htop condition.mode (condition.rewind cursor)
      condition.mode_ne_nested (condition.isSome_rewind cursor)⟩
    rw [Control.ext_iff] at hc ⊢
    simpa [Store.control, Control.onto] using hc
  | @defines _ signature methods hr hm hf hd =>
    refine .inl ⟨_, ?_, hsound.define htop signature.head⟩
    rw [Control.ext_iff] at hc ⊢
    simpa [Store.control, Control.onto] using hc
  | closesNothing ha hu hm => exact .inl ⟨upper, hc, hsound⟩
  | @closesBranch _ mode frames ha hf =>
    rcases frames_cases hc hf with ⟨rest, hu, hr⟩ | ⟨-, hx, -⟩ | ⟨-, hx, -⟩
    · refine .inl ⟨_, ?_, hsound.close hu (.inr rfl)⟩
      rw [Control.ext_iff] at hc ⊢
      exact ⟨hr, hc.2⟩
    · cases hx
    · cases hx
  | @closesLoop _ mode frames loops rewind ha hf hl =>
    have hloops := congrArg Control.loops hc
    simp only [Store.control, Control.onto, hl, Stack.entries_cons] at hloops
    rcases frames_cases hc hf with
      ⟨rest, hu, hr⟩ | ⟨-, hx, -⟩ | ⟨hu, -, base, header, rfl, hr⟩
    · have hk : (⟨.loop, mode⟩ : Frame).isLoop = true := by
        cases mode <;> simp_all [topSuspended, Frame.isExecuting, Frame.isLoop]
      obtain ⟨rewind', loops', hl', -, hsound'⟩ := hsound.closeLoop hu hk
      refine .inl ⟨_, ?_, hsound'⟩
      rw [Control.ext_iff] at hc ⊢
      rw [hl', List.cons_append, List.cons.injEq] at hloops
      exact ⟨hr, hloops.2, hc.2.2⟩
    · cases hx
    · -- nothing is left above the ground, so this is the loop at the ground
      obtain ⟨hnone, calls, definitions, hown⟩ := hsound.of_frames_nil hu
      simp only [hnone, Ground.control, List.nil_append, List.cons.injEq] at hloops
      rw [hloops.1]
      refine .inr (.loop hown ?_)
      rw [Control.ext_iff] at hc ⊢
      refine ⟨hr, hloops.2, ?_, ?_, hc.2.2.2.2⟩
      · simpa [Store.control, Control.onto, calls, Ground.control] using hc.2.2.1
      · simpa [Store.control, Control.onto, definitions, Ground.control] using hc.2.2.2.1
  | closesMethod ha hl => exact leaves ⟨upper, hc, hsound⟩ hl
  | draws hp => exact .inl ⟨upper, hc, hsound⟩

/-- `Stands` is kept by `Executes`, unless the line closes the block at the ground (`Returned`). -/
theorem step {line : Line} {result : Step} (h : store.Stands ground)
    (he : Executes line cursor store result after) :
    after.Stands ground ∨ Returned ground result.cursor after := by
  cases he with
  | blank _ => exact .inl h
  | skips _ hs he => exact h.skips hs he
  | performs _ hs _ he => exact h.performs hs he

end Store.Stands

/-! ## Lines that fail -/

namespace Store

variable {store after : Store} {cursor : Address} {line : Line} {fault : Fault}

/-- What a line leaves behind that fails with `full frameBound`: the call and the scope that it
pushed, or the method that it inserted. -/
inductive Leftover (line : Line) (cursor : Address) (store : Store) : Store → Prop where
  | call {tokens : List String} {invocation : Invocation}
      (hi : store.interpret line.tokens = .ok (.call, tokens))
      (hr : store.findCall tokens = .ok invocation)
      (hs : store.vars.scopes.height < scopeBound.size)
      (hc : store.flow.calls.height < callBound.size) :
      Leftover line cursor store
        { store with
          vars.scopes := store.vars.scopes.cons invocation.scope
          flow.calls := store.flow.calls.cons ⟨invocation.name, cursor⟩ }
  | method {tokens : List String} {signature : Bracketed} {methods : Methods}
      (hi : store.interpret line.tokens = .ok (.keyword (.opens .method), tokens))
      (hr : store.readHeader tokens cursor = .ok signature)
      (hn : store.methods.find? signature.head = none)
      (hm : store.methods.insert signature.head ⟨signature.items, cursor, none⟩ = .ok methods) :
      Leftover line cursor store { store with methods }

/-- To stand on the `bottom` is to be `Sound` as a whole. -/
theorem stands_bottom_iff {lost : Nat} :
    store.Stands (.bottom lost) ↔ store.control.Sound 0 lost := by
  constructor
  · rintro ⟨upper, hc, hsound⟩
    have : store.control = upper := by simpa [Control.onto, Ground.control, Control.empty] using hc
    exact this ▸ hsound
  · intro h
    exact ⟨store.control, by simp [Control.onto, Ground.control, Control.empty], h⟩

namespace Stands

variable {lost : Nat}

/-- A store that `Stands` has no more loops than frames. -/
theorem loops_le_frames (h : store.Stands (.bottom lost)) :
    store.flow.loops.height ≤ store.flow.frames.height := by
  have hl := congrArg List.length (stands_bottom_iff.1 h).loops
  simp only [List.length_map, Store.control] at hl
  rw [store.flow.loops.height_eq, store.flow.frames.height_eq, hl]
  exact List.length_filter_le _ _

/-- A store that `Stands` has as many scopes as calls. -/
theorem scopes_eq_calls (h : store.Stands (.bottom lost)) :
    store.vars.scopes.height = store.flow.calls.height := by
  rw [store.vars.scopes.height_eq, store.flow.calls.height_eq]
  exact (stands_bottom_iff.1 h).scopes

/-- A store that `Stands` and is not `suspended` has no open definition. -/
theorem definitions_eq_zero (h : store.Stands (.bottom lost)) (hs : store.flow.suspended = false) :
    store.flow.definitions.height = 0 := by
  have hsound := stands_bottom_iff.1 h
  rw [Flow.suspended_eq] at hs
  rw [store.flow.definitions.height_eq]
  refine hsound.definitions.trans (List.countP_eq_zero.2 fun frame hmem => ?_)
  have hx := hsound.layered.executing hs frame hmem
  rcases frame with ⟨construct, mode⟩
  simp_all [Frame.isExecuting, Frame.isDefinition]

/-- In a store that `Stands`, the frame of a loop has an entry of `loops`. -/
theorem loops_ne_empty (h : store.Stands (.bottom lost)) {frame : Frame} {frames : Stack Frame}
    (hf : store.flow.frames = frames.cons frame) (hk : frame.isLoop = true) :
    store.flow.loops ≠ .empty := by
  intro hl
  obtain ⟨upper, hc, hsound⟩ := h
  rcases frames_cases hc hf with ⟨rest, hu, -⟩ | ⟨-, -, _, _, hx, -⟩ | ⟨-, -, _, _, hx, -⟩
  · obtain ⟨rewind, loops, hl', -, -⟩ := hsound.closeLoop hu hk
    have := congrArg Control.loops hc
    simp [Store.control, Control.onto, hl, hl'] at this
  · cases hx
  · cases hx

/-- In a store that `Stands`, a return never `Strands`. -/
theorem not_strands (h : store.Stands (.bottom lost)) : ¬ Strands store after := by
  have hopen : ∀ {frames : Stack Frame}, store.flow.frames = frames.cons ⟨.method, .executing⟩ →
      store.flow.calls ≠ .empty ∧ store.vars.scopes ≠ .empty := by
    intro frames hf
    obtain ⟨upper, hc, hsound⟩ := h
    rcases frames_cases hc hf with ⟨rest, hu, -⟩ | ⟨-, -, _, _, hx, -⟩ | ⟨-, -, _, _, hx, -⟩
    · obtain ⟨entry, calls, scope, scopes, hk, hs, -⟩ := hsound.closeCall hu
      refine ⟨fun he => ?_, fun he => ?_⟩
      · have := congrArg Control.calls hc
        simp [Store.control, Control.onto, he, hk] at this
      · have := congrArg Control.scopes hc
        simp [Store.control, Control.onto, he, hs] at this
    · cases hx
    · cases hx
  intro hs
  cases hs with
  | call hf hc => exact (hopen hf).1 hc
  | scope hf hc hs => exact (hopen hf).2 hs

/-- In a store that `Stands` and is not `suspended`, a loop can be closed. -/
theorem loops_ne_empty_of_running (h : store.Stands (.bottom lost))
    (hs : store.flow.suspended = false) {mode : Mode} {frames : Stack Frame}
    (hf : store.flow.frames = frames.cons ⟨.loop, mode⟩) : store.flow.loops ≠ .empty := by
  have hm : mode = .executing := by
    rw [Flow.suspended_eq, hf, Stack.entries_cons] at hs
    simpa [topSuspended, Frame.isExecuting] using hs
  exact h.loops_ne_empty hf (by simp [hm, Frame.isLoop])

/-- A skipped line fails only with `full frameBound`, and then it changes nothing. -/
theorem skipFails {tokens : List String} (h : store.Stands (.bottom lost))
    (hf : SkipFails tokens cursor store fault after) :
    fault = .full frameBound ∧ after = store := by
  cases hf with
  | nests _ _ => exact ⟨rfl, rfl⟩
  | endsLoop _ hf hl => exact absurd hl (h.loops_ne_empty hf (by decide))
  | endsDefinition _ hf hs => exact absurd hs (h.endsDefinition hf cursor).not_strands

/-- A line that fails changes nothing, or it fails with `full frameBound` and leaves a `Leftover`
behind. -/
theorem fails (h : store.Stands (.bottom lost)) (hf : Fails line cursor store fault after) :
    after = store ∨
      (store.flow.suspended = false ∧ frameBound.size ≤ store.flow.frames.height ∧
        fault = .full frameBound ∧ Leftover line cursor store after) := by
  cases hf with
  | skips _ _ hf => exact .inl (h.skipFails hf).2
  | interprets _ _ _ => exact .inl rfl
  | performs _ hs hi hf =>
    cases hf with
    | checks _ => exact .inl rfl
    | evaluates _ _ => exact .inl rfl
    | stores _ _ _ => exact .inl rfl
    | scopes _ _ => exact .inl rfl
    -- scopes and calls are opened together, and a loop has a block: the first bound is met first
    | calls _ room full =>
      have := h.scopes_eq_calls
      simp only [scopeBound, callBound] at room full
      omega
    | callFrame hr hscopes hcalls full => exact .inr ⟨hs, full, rfl, .call hi hr hscopes hcalls⟩
    | blocks _ _ _ => exact .inl rfl
    | loops _ room full =>
      have := h.loops_le_frames
      simp only [frameBound, loopBound] at room full
      omega
    | registers _ _ => exact .inl rfl
    | @defineFrame _ signature methods hr hm full =>
      rcases hn : store.methods.find? signature.head with _ | method
      · simp only [register, hn] at hm
        exact .inr ⟨hs, full, rfl, .method hi hr hn hm⟩
      · -- the method is in the table already, so nothing is entered
        simp only [register, hn, Except.ok.injEq] at hm
        exact .inl (by rw [← hm])
    -- nothing is being defined while lines are executed
    | defineName _ _ _ full =>
      rw [h.definitions_eq_zero hs] at full
      simp [definitionBound, entryLimit] at full
    | closesLoop _ hf hl => exact absurd hl (h.loops_ne_empty_of_running hs hf)
    | closesMethod _ hst => exact absurd hst h.not_strands

end Stands

end Store

end Sketch
