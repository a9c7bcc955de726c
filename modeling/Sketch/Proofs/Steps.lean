import Sketch.Engine
import Sketch.Proofs.Stacks

/-!
# What one line does

Every way in which a line can end, said once. `Store.Executes` lists what a line that succeeds does
to the store, and `Store.Fails` what a line that fails has done when it stops. Both are
characterizations (`execute_eq_ok_iff`, `execute_eq_error_iff`), so that invariants and simulations
are proved by cases on them and never unfold the execution of a line. `Engine.runFrom_cases` takes
what every line keeps through a whole run.
-/

namespace Sketch

/-- A line that `classify` takes for a command has a token. -/
theorem Line.isEmpty_of_classify {line : Line} {isBound : String → Bool} {command : Command}
    (h : Command.classify isBound line.tokens = .ok command) : line.isEmpty = false := by
  unfold isEmpty
  cases ht : line.tokens with
  | nil =>
    rw [ht] at h
    cases h
  | cons token rest => rfl

/-- `line?` at the address of an index is the line with this index. -/
theorem Program.line?_ofNat {program : Program} {n : Nat} (hn : n < UInt64.size) :
    program.line? (UInt64.ofNat n) = program.lines[n]? := by
  rw [line?, UInt64.toNat_ofNat_of_lt' hn]

/-- `map` succeeds exactly if the result is a success. -/
theorem map_eq_ok_iff {ε α β : Type} {x : Except ε α} {f : α → β} {b : β} :
    x.map f = .ok b ↔ ∃ a, x = .ok a ∧ f a = b := by
  cases x <;> simp [Except.map]

/-- `map` keeps the error. -/
theorem map_eq_error_iff {ε α β : Type} {x : Except ε α} {f : α → β} {e : ε} :
    x.map f = .error e ↔ x = .error e := by
  cases x <;> simp [Except.map]

theorem toOption_eq_some_iff {ε α : Type} {x : Except ε α} {a : α} :
    x.toOption = some a ↔ x = .ok a := by
  cases x <;> simp [Except.toOption]

/-- A bind succeeds exactly if both of its parts do. -/
theorem bind_ok_iff {ε α β : Type} {x : Except ε α} {f : α → Except ε β} {b : β} :
    (x >>= f) = .ok b ↔ ∃ a, x = .ok a ∧ f a = .ok b := by
  cases x <;> simp [bind, Except.bind]

/-- A bind fails in its first part, or in its second after a success of the first. -/
theorem bind_error_iff {ε α β : Type} {x : Except ε α} {f : α → Except ε β} {e : ε} :
    (x >>= f) = .error e ↔ x = .error e ∨ ∃ a, x = .ok a ∧ f a = .error e := by
  cases x <;> simp [bind, Except.bind]

/-! ## The stacks of a store -/

namespace Stack

variable {α β : Type} {bound : Bound} {a : α} {s : Stack α} {b : β} {fault : Fault}

/-- `push` succeeds exactly below the bound, and then it is `cons`. -/
theorem push_map_eq_ok_iff {f : Stack α → β} :
    (s.push bound a).map f = .ok b ↔ s.height < bound.size ∧ b = f (s.cons a) := by
  simp only [map_eq_ok_iff, push_iff_cons, and_assoc, exists_and_left, exists_eq_left]
  exact and_congr_right fun _ => eq_comm

/-- A push fails exactly if the stack is at its bound, and with `full`. -/
theorem push_map_eq_error_iff {f : Stack α → β} :
    (s.push bound a).map f = .error fault ↔ bound.size ≤ s.height ∧ fault = .full bound := by
  rw [map_eq_error_iff, push_eq_error_iff]

/-- `pop` takes the newest entry off. -/
theorem pop_map_eq_ok_iff {f : Stack α → β} :
    s.pop.map (fun p => (p.1, f p.2)) = .ok (a, b) ↔ ∃ t, s = cons a t ∧ b = f t := by
  rcases eq_empty_or_cons s with rfl | ⟨c, t, rfl⟩
  · simp [Except.map]
  · simp only [pop_cons, Except.map, Except.ok.injEq, Prod.mk.injEq, cons_inj]
    constructor
    · rintro ⟨rfl, rfl⟩
      exact ⟨t, ⟨rfl, rfl⟩, rfl⟩
    · rintro ⟨_, ⟨rfl, rfl⟩, rfl⟩
      exact ⟨rfl, rfl⟩

/-- A pop fails exactly on the empty stack, and with `underflow`. -/
theorem pop_map_eq_error_iff {f : α × Stack α → β} :
    s.pop.map f = .error fault ↔ s = empty ∧ fault = .underflow := by
  rw [map_eq_error_iff, pop_error_iff_empty]

end Stack

namespace Flow

variable {flow after : Flow} {fault : Fault}

/-- `Flow.push` succeeds exactly if there is room for a frame. -/
theorem push_eq_ok_iff {frame : Frame} :
    flow.push frame = .ok after ↔
      flow.frames.height < frameBound.size ∧
        after = { flow with frames := flow.frames.cons frame } :=
  Stack.push_map_eq_ok_iff

/-- `Flow.push` fails exactly if the frames are at `frameBound`. -/
theorem push_eq_error_iff {frame : Frame} :
    flow.push frame = .error fault ↔
      frameBound.size ≤ flow.frames.height ∧ fault = .full frameBound :=
  Stack.push_map_eq_error_iff

/-- `Flow.pushLoop` succeeds exactly if there is room for a loop. -/
theorem pushLoop_eq_ok_iff {rewind : Option Address} :
    flow.pushLoop rewind = .ok after ↔
      flow.loops.height < loopBound.size ∧
        after = { flow with loops := flow.loops.cons rewind } :=
  Stack.push_map_eq_ok_iff

/-- `Flow.pushLoop` fails exactly if the loops are at `loopBound`. -/
theorem pushLoop_eq_error_iff {rewind : Option Address} :
    flow.pushLoop rewind = .error fault ↔
      loopBound.size ≤ flow.loops.height ∧ fault = .full loopBound :=
  Stack.push_map_eq_error_iff

/-- `Flow.pushCall` succeeds exactly if there is room for a call. -/
theorem pushCall_eq_ok_iff {call : Call} :
    flow.pushCall call = .ok after ↔
      flow.calls.height < callBound.size ∧
        after = { flow with calls := flow.calls.cons call } :=
  Stack.push_map_eq_ok_iff

/-- `Flow.pushCall` fails exactly if the calls are at `callBound`. -/
theorem pushCall_eq_error_iff {call : Call} :
    flow.pushCall call = .error fault ↔
      callBound.size ≤ flow.calls.height ∧ fault = .full callBound :=
  Stack.push_map_eq_error_iff

/-- `Flow.beginDefinition` succeeds exactly if there is room for a definition. -/
theorem beginDefinition_eq_ok_iff {method : String} :
    flow.beginDefinition method = .ok after ↔
      flow.definitions.height < definitionBound.size ∧
        after = { flow with definitions := flow.definitions.cons method } :=
  Stack.push_map_eq_ok_iff

/-- `Flow.beginDefinition` fails exactly if the definitions are at `definitionBound`. -/
theorem beginDefinition_eq_error_iff {method : String} :
    flow.beginDefinition method = .error fault ↔
      definitionBound.size ≤ flow.definitions.height ∧ fault = .full definitionBound :=
  Stack.push_map_eq_error_iff

/-- `Flow.pop` takes the innermost frame. -/
theorem pop_eq_ok_iff {frame : Frame} :
    flow.pop = .ok (frame, after) ↔
      ∃ frames, flow.frames = frames.cons frame ∧ after = { flow with frames } :=
  Stack.pop_map_eq_ok_iff (f := fun frames => ({ flow with frames } : Flow))

/-- `Flow.popIf` takes the innermost frame if it is of the construct, whatever its mode. -/
theorem popIf_of_matched {construct : Construct} {mode : Mode} {frames : Stack Frame}
    (h : flow.frames = frames.cons ⟨construct, mode⟩) :
    flow.popIf construct = .ok (some ⟨construct, mode⟩, { flow with frames }) := by
  simp [popIf, top?, h, pop, Except.map]

/-- `Flow.popIf` leaves a frame of another construct where it is. -/
theorem popIf_of_unmatched {construct : Construct}
    (h : ∀ mode, flow.top? ≠ some ⟨construct, mode⟩) :
    flow.popIf construct = .ok (none, flow) := by
  unfold popIf
  rcases htop : flow.top? with _ | ⟨other, mode⟩
  · rfl
  · have hne : other ≠ construct := by
      rintro rfl
      exact h mode htop
    simp [hne]

/-- `Flow.popLoop` takes the innermost loop. -/
theorem popLoop_eq_ok_iff {rewind : Option Address} :
    flow.popLoop = .ok (rewind, after) ↔
      ∃ loops, flow.loops = loops.cons rewind ∧ after = { flow with loops } :=
  Stack.pop_map_eq_ok_iff (f := fun loops => ({ flow with loops } : Flow))

/-- `Flow.popLoop` fails exactly if no loop is open. -/
theorem popLoop_eq_error_iff :
    flow.popLoop = .error fault ↔ flow.loops = .empty ∧ fault = .underflow :=
  Stack.pop_map_eq_error_iff

/-- `Flow.popCall` takes the innermost call. -/
theorem popCall_eq_ok_iff {call : Call} :
    flow.popCall = .ok (call, after) ↔
      ∃ calls, flow.calls = calls.cons call ∧ after = { flow with calls } :=
  Stack.pop_map_eq_ok_iff (f := fun calls => ({ flow with calls } : Flow))

/-- `Flow.popCall` fails exactly if no call is open. -/
theorem popCall_eq_error_iff :
    flow.popCall = .error fault ↔ flow.calls = .empty ∧ fault = .underflow :=
  Stack.pop_map_eq_error_iff

end Flow

namespace Variables

variable {vars after : Variables} {fault : Fault}

/-- `Variables.enter` succeeds exactly if there is room for a scope. -/
theorem enter_eq_ok_iff {scope : Scope} :
    vars.enter scope = .ok after ↔
      vars.scopes.height < scopeBound.size ∧
        after = { vars with scopes := vars.scopes.cons scope } :=
  Stack.push_map_eq_ok_iff

/-- `Variables.enter` fails exactly if the scopes are at `scopeBound`. -/
theorem enter_eq_error_iff {scope : Scope} :
    vars.enter scope = .error fault ↔
      scopeBound.size ≤ vars.scopes.height ∧ fault = .full scopeBound :=
  Stack.push_map_eq_error_iff

/-- `Variables.leave` takes the innermost scope. -/
theorem leave_eq_ok_iff {scope : Scope} :
    vars.leave = .ok (scope, after) ↔
      ∃ scopes, vars.scopes = scopes.cons scope ∧ after = { vars with scopes } :=
  Stack.pop_map_eq_ok_iff

/-- `Variables.store` changes a binding of the innermost scope, or else a global. -/
theorem store_cases {name : String} {value : Number} (h : vars.store name value = .ok after) :
    (∃ scope scopes, vars.scopes = Stack.cons scope scopes ∧ scope.contains name = true ∧
      after = { vars with scopes := scopes.cons (scope.insert name value) }) ∨
    ((∀ scope, vars.scopes.top? = some scope → scope.contains name = false) ∧
      (vars.globals.contains name = true ∨ vars.globals.size < globalBound.size) ∧
      after = { vars with globals := vars.globals.insert name value }) := by
  have hglobal : ∀ {after}, vars.storeGlobal name value = .ok after →
      (vars.globals.contains name = true ∨ vars.globals.size < globalBound.size) ∧
        after = { vars with globals := vars.globals.insert name value } := by
    intro after hg
    unfold storeGlobal at hg
    split at hg
    · next hroom =>
      cases hg
      exact ⟨by simpa using hroom, rfl⟩
    · cases hg
  rcases Stack.eq_empty_or_cons vars.scopes with hs | ⟨scope, scopes, hs⟩
  · simp only [store, hs, Stack.top?_empty] at h
    exact .inr ⟨by simp [hs], hglobal h⟩
  · simp only [store, hs, Stack.top?_cons] at h
    split at h
    · next hc =>
      cases h
      exact .inl ⟨scope, scopes, hs, hc, by simp⟩
    · next hc =>
      refine .inr ⟨fun scope' ht => ?_, hglobal h⟩
      rw [hs, Stack.top?_cons, Option.some.injEq] at ht
      exact ht ▸ Bool.eq_false_iff.2 hc

/-- `Variables.store` keeps the number of scopes. -/
theorem depth_store {name : String} {value : Number} (h : vars.store name value = .ok after) :
    after.depth = vars.depth := by
  rcases store_cases h with ⟨scope, scopes, hs, -, rfl⟩ | ⟨-, -, rfl⟩
  · simp [depth, hs]
  · rfl

/-- An assignment fails only for a new global, with `full globalBound`. -/
theorem store_eq_error_iff {name : String} {value : Number} :
    vars.store name value = .error fault ↔ fault = .full globalBound ∧
      vars.lookup? name = none ∧ globalBound.size ≤ vars.globals.size := by
  have hglobal : vars.storeGlobal name value = .error fault ↔ fault = .full globalBound ∧
      vars.globals[name]? = none ∧ globalBound.size ≤ vars.globals.size := by
    unfold storeGlobal
    by_cases hmem : name ∈ vars.globals
    · simp [hmem]
    · by_cases hroom : vars.globals.size < globalBound.size
      · simp [hroom]
      · rw [if_neg (by simp [hmem, hroom]), Except.error.injEq, eq_comm]
        exact (and_iff_left ⟨by simp [hmem], Nat.le_of_not_lt hroom⟩).symm
  rcases Stack.eq_empty_or_cons vars.scopes with hs | ⟨scope, scopes, hs⟩
  · simp only [store, lookup?, hs, Stack.top?_empty, Option.bind_none, hglobal]
  · simp only [store, lookup?, hs, Stack.top?_cons, Option.bind_some]
    cases hbound : scope[name]? with
    | some bound =>
      have hmem : name ∈ scope := Std.ExtTreeMap.mem_iff_isSome_getElem?.2 (by simp [hbound])
      simp [hmem]
    | none =>
      have hmem : name ∉ scope := by simp [Std.ExtTreeMap.mem_iff_isSome_getElem?, hbound]
      simpa [hmem] using hglobal

end Variables

/-- What is done with the block of a branch or loop with this condition. -/
def Condition.mode (condition : Condition) : Mode :=
  if condition.holds then .executing else .skipping

/-- Where the closing line of a loop with this condition goes back to. -/
def Condition.rewind (condition : Condition) (cursor : Address) : Option Address :=
  if condition.holds then some cursor else none

/-- Where the cursor goes when a loop is closed. -/
def rewound (cursor : Address) : Option Address → Address
  | some header => header - 1
  | none => cursor

/-- What comes of a line: where the cursor is afterwards, and what is to be drawn. -/
structure Step where
  cursor : Address
  drawing : Option Instruction
  deriving DecidableEq, Repr

namespace Store

open Sketch.Action Sketch.Move

/-! ## Closing what is innermost -/

/-- The innermost block, if there is one, is not of this construct. -/
def Unmatched (store : Store) (construct : Construct) : Prop :=
  ∀ mode, store.flow.top? ≠ some ⟨construct, mode⟩

/-- The store after the innermost definition has been closed at an address. -/
def closed (store : Store) (cursor : Address) : Store :=
  match store.flow.definitions.pop with
  | .ok (name, definitions) =>
    { store with flow.definitions := definitions, methods := store.methods.close name cursor }
  | .error _ => store

/-- What the return from a call does: nothing if the innermost block is not that of a call. -/
inductive Leaves (cursor : Address) (store : Store) : Address → Store → Prop where
  | stays (h : store.flow.top? ≠ some ⟨.method, .executing⟩) : Leaves cursor store cursor store
  | returns {frames : Stack Frame} {calls : Stack Call} {call : Call} {scopes : Stack Scope}
      {scope : Scope} (hf : store.flow.frames = frames.cons ⟨.method, .executing⟩)
      (hc : store.flow.calls = calls.cons call) (hs : store.vars.scopes = scopes.cons scope) :
      Leaves cursor store call.returnTo
        { store with flow.frames := frames, flow.calls := calls, vars.scopes := scopes }

/-- A return that finds a called method but no call, or a call but no scope. -/
inductive Strands (store : Store) : Store → Prop where
  | call {frames : Stack Frame} (hf : store.flow.frames = frames.cons ⟨.method, .executing⟩)
      (hc : store.flow.calls = .empty) : Strands store { store with flow.frames := frames }
  | scope {frames : Stack Frame} {calls : Stack Call} {call : Call}
      (hf : store.flow.frames = frames.cons ⟨.method, .executing⟩)
      (hc : store.flow.calls = calls.cons call) (hs : store.vars.scopes = .empty) :
      Strands store { store with flow.frames := frames, flow.calls := calls }

variable {store after : Store} {cursor next : Address} {fault : Fault} {tokens : List String}

/-- A construct is `Unmatched`, or the innermost frame is of it. -/
theorem unmatched_or_matched (store : Store) (construct : Construct) :
    store.Unmatched construct ∨
      ∃ mode frames, store.flow.frames = Stack.cons ⟨construct, mode⟩ frames := by
  rcases Stack.eq_empty_or_cons store.flow.frames with hf | ⟨⟨c, m⟩, frames, hf⟩
  · exact .inl fun mode => by simp [Flow.top?, hf]
  · by_cases hc : c = construct
    · exact .inr ⟨m, frames, by rw [hf, hc]⟩
    · exact .inl fun mode => by simp [Flow.top?, hf, hc]

/-- `closeIf` closes the innermost block if it is of the construct. -/
theorem closeIf_of_matched {construct : Construct} {mode : Mode} {frames : Stack Frame}
    (h : store.flow.frames = frames.cons ⟨construct, mode⟩) :
    closeIf construct store =
      .ok (some ⟨construct, mode⟩) { store with flow.frames := frames } :=
  takeFlow_eq_ok_iff.2 ⟨_, Flow.popIf_of_matched h, rfl⟩

/-- `closeIf` leaves a block of another construct open. -/
theorem closeIf_of_unmatched {construct : Construct} (h : store.Unmatched construct) :
    closeIf construct store = .ok none store :=
  takeFlow_eq_ok_iff.2 ⟨_, Flow.popIf_of_unmatched h, rfl⟩

/-- `leaveScope` closes the innermost scope. -/
theorem leaveScope_of_cons {scope : Scope} {scopes : Stack Scope}
    (h : store.vars.scopes = scopes.cons scope) :
    leaveScope store = .ok () { store with vars.scopes := scopes } :=
  onVariables_eq_ok_iff.2
    ⟨_, map_eq_ok_iff.2 ⟨_, Variables.leave_eq_ok_iff.2 ⟨scopes, h, rfl⟩, rfl⟩, rfl⟩

/-- `leaveScope` fails where no scope is open. -/
theorem leaveScope_of_empty (h : store.vars.scopes = .empty) :
    leaveScope store = .error (.ofFault .underflow) store :=
  onVariables_eq_error_iff.2
    ⟨map_eq_error_iff.2 (Stack.pop_map_eq_error_iff.2 ⟨h, rfl⟩), rfl⟩

/-- `returnFromCall` does nothing unless the innermost block is a method that is executed. -/
theorem returnFromCall_of_top_ne (h : store.flow.top? ≠ some ⟨.method, .executing⟩) :
    returnFromCall ⟨store, cursor⟩ = .ok () ⟨store, cursor⟩ := by
  rw [returnFromCall, get_bind]
  rcases htop : store.flow.top? with _ | ⟨construct, mode⟩
  · rfl
  · cases construct <;> cases mode <;> first | rfl | exact absurd htop h

/-- `returnFromCall` pops a frame, a call and a scope together. -/
theorem returnFromCall_of_cons {frames : Stack Frame} {calls : Stack Call} {call : Call}
    {scopes : Stack Scope} {scope : Scope}
    (hf : store.flow.frames = frames.cons ⟨.method, .executing⟩)
    (hc : store.flow.calls = calls.cons call) (hs : store.vars.scopes = scopes.cons scope) :
    returnFromCall ⟨store, cursor⟩ = .ok () ⟨{ store with
      flow.frames := frames, flow.calls := calls, vars.scopes := scopes }, call.returnTo⟩ := by
  simp only [returnFromCall, get_bind, Flow.top?, hf, Stack.top?_cons]
  rw [bind_of_ok (lift_of_ok
    (takeFlow_eq_ok_iff.2 ⟨_, Flow.pop_eq_ok_iff.2 ⟨frames, hf, rfl⟩, rfl⟩))]
  refine Eq.trans (bind_of_ok (lift_of_ok (takeFlow_eq_ok_iff.2 ⟨_,
    Flow.popCall_eq_ok_iff.2 ⟨calls, hc, rfl⟩, rfl⟩))) ?_
  refine bind_of_ok (a := ()) (lift_of_ok ?_)
  exact leaveScope_of_cons hs

/-- `returnFromCall` does what `Leaves` says. -/
theorem returnFromCall_of_leaves (h : Leaves cursor store next after) :
    returnFromCall ⟨store, cursor⟩ = .ok () ⟨after, next⟩ := by
  cases h with
  | stays h => exact returnFromCall_of_top_ne h
  | returns hf hc hs => exact returnFromCall_of_cons hf hc hs

/-- `returnFromCall` moves the cursor only after all three stacks have been popped. -/
theorem returnFromCall_of_strands (h : Strands store after) :
    returnFromCall ⟨store, cursor⟩ = .error (.ofFault .underflow) ⟨after, cursor⟩ := by
  cases h with
  | @call frames hf hc =>
    simp only [returnFromCall, get_bind, Flow.top?, hf, Stack.top?_cons]
    rw [bind_of_ok (lift_of_ok
      (takeFlow_eq_ok_iff.2 ⟨_, Flow.pop_eq_ok_iff.2 ⟨frames, hf, rfl⟩, rfl⟩))]
    exact bind_of_error (lift_of_error
      (takeFlow_eq_error_iff.2 ⟨Flow.popCall_eq_error_iff.2 ⟨hc, rfl⟩, rfl⟩))
  | @scope frames calls call hf hc hs =>
    simp only [returnFromCall, get_bind, Flow.top?, hf, Stack.top?_cons]
    rw [bind_of_ok (lift_of_ok
      (takeFlow_eq_ok_iff.2 ⟨_, Flow.pop_eq_ok_iff.2 ⟨frames, hf, rfl⟩, rfl⟩))]
    refine Eq.trans (bind_of_ok (lift_of_ok (takeFlow_eq_ok_iff.2 ⟨_,
      Flow.popCall_eq_ok_iff.2 ⟨calls, hc, rfl⟩, rfl⟩))) ?_
    exact bind_of_error (lift_of_error (leaveScope_of_empty hs))

/-- A return `Leaves` the call or `Strands` on an empty stack. -/
theorem leaves_or_strands (cursor : Address) (store : Store) :
    (∃ next after, Leaves cursor store next after) ∨ ∃ after, Strands store after := by
  by_cases h : store.flow.top? = some ⟨.method, .executing⟩
  · obtain ⟨frames, hf⟩ := Stack.top?_eq_some_iff.1 h
    rcases Stack.eq_empty_or_cons store.flow.calls with hc | ⟨call, calls, hc⟩
    · exact .inr ⟨_, .call hf hc⟩
    · rcases Stack.eq_empty_or_cons store.vars.scopes with hs | ⟨scope, scopes, hs⟩
      · exact .inr ⟨_, .scope hf hc hs⟩
      · exact .inl ⟨_, _, .returns hf hc hs⟩
  · exact .inl ⟨_, _, .stays h⟩

/-- `endDefinition` finds no definition where none is open. -/
theorem endDefinition_of_empty (hd : store.flow.definitions = .empty) :
    endDefinition store = .ok none store :=
  takeFlow_eq_ok_iff.2 ⟨store.flow, by simp [Flow.endDefinition, hd], rfl⟩

/-- `endDefinition` closes the innermost definition. -/
theorem endDefinition_of_cons {name : String} {definitions : Stack String}
    (hd : store.flow.definitions = definitions.cons name) :
    endDefinition store = .ok (some name) { store with flow.definitions := definitions } :=
  takeFlow_eq_ok_iff.2 ⟨{ store.flow with definitions }, by simp [Flow.endDefinition, hd], rfl⟩

/-- `closeDefinition` notes the end of the method and then returns from a call, if one is open. -/
theorem closeDefinition_eq (cursor : Address) (store : Store) :
    closeDefinition ⟨store, cursor⟩ = returnFromCall ⟨store.closed cursor, cursor⟩ := by
  rcases Stack.eq_empty_or_cons store.flow.definitions with hd | ⟨name, definitions, hd⟩
  · rw [closeDefinition, bind_of_ok (lift_of_ok (endDefinition_of_empty hd)), closed, hd]
    rfl
  · rw [closeDefinition, bind_of_ok (lift_of_ok (endDefinition_of_cons hd)), closed, hd,
      Stack.pop_cons]
    rfl

/-! ## Lines that are skipped -/

/-- What a skipped line does: it opens a nested block, closes the innermost block, or does
nothing. -/
inductive Skips (tokens : List String) (cursor : Address) (store : Store) :
    Address → Store → Prop where
  | ignores (ho : ∀ construct, store.classify tokens ≠ .ok (.keyword (.opens construct)))
      (hc : ∀ construct, store.classify tokens = .ok (.keyword (.closes construct)) →
        store.Unmatched construct) : Skips tokens cursor store cursor store
  | nests {construct : Construct}
      (ho : store.classify tokens = .ok (.keyword (.opens construct)))
      (room : store.flow.frames.height < frameBound.size) :
      Skips tokens cursor store cursor
        { store with flow.frames := store.flow.frames.cons ⟨construct, .nested⟩ }
  | closes {construct : Construct} {mode : Mode} {frames : Stack Frame}
      (hc : store.classify tokens = .ok (.keyword (.closes construct)))
      (hf : store.flow.frames = frames.cons ⟨construct, mode⟩)
      (hm : mode = .nested ∨ construct = .branch) :
      Skips tokens cursor store cursor { store with flow.frames := frames }
  | endsLoop {frames : Stack Frame} {loops : Stack (Option Address)} {rewind : Option Address}
      (hc : store.classify tokens = .ok (.keyword (.closes .loop)))
      (hf : store.flow.frames = frames.cons ⟨.loop, .skipping⟩)
      (hl : store.flow.loops = loops.cons rewind) :
      Skips tokens cursor store cursor { store with flow.frames := frames, flow.loops := loops }
  | endsDefinition {frames : Stack Frame} {next : Address} {after : Store}
      (hc : store.classify tokens = .ok (.keyword (.closes .method)))
      (hf : store.flow.frames = frames.cons ⟨.method, .skipping⟩)
      (hl : Leaves cursor (closed { store with flow.frames := frames } cursor) next after) :
      Skips tokens cursor store next after

/-- While the flow is `suspended`, the innermost block is skipped or nested. -/
theorem mode_ne_executing (hs : store.flow.suspended = true) {construct : Construct} {mode : Mode}
    {frames : Stack Frame} (hf : store.flow.frames = frames.cons ⟨construct, mode⟩) :
    mode ≠ .executing := by
  rintro rfl
  simp [Flow.suspended, Flow.top?, hf] at hs

/-- `closeSkipped` passes over a closing word that is `Unmatched`. -/
theorem closeSkipped_of_unmatched {construct : Construct} (h : store.Unmatched construct) :
    closeSkipped construct ⟨store, cursor⟩ = .ok () ⟨store, cursor⟩ := by
  rw [closeSkipped, bind_of_ok (lift_of_ok (closeIf_of_unmatched h))]
  rfl

/-- `closeSkipped` on a nested block pops its frame and nothing else. -/
theorem closeSkipped_of_nested {construct : Construct} {frames : Stack Frame}
    (hf : store.flow.frames = frames.cons ⟨construct, .nested⟩) :
    closeSkipped construct ⟨store, cursor⟩ =
      .ok () ⟨{ store with flow.frames := frames }, cursor⟩ := by
  rw [closeSkipped, bind_of_ok (lift_of_ok (closeIf_of_matched hf))]
  cases construct <;> rfl

/-- `closeSkipped` on a skipped branch pops its frame and nothing else. -/
theorem closeSkipped_of_branch {frames : Stack Frame}
    (hf : store.flow.frames = frames.cons ⟨.branch, .skipping⟩) :
    closeSkipped .branch ⟨store, cursor⟩ =
      .ok () ⟨{ store with flow.frames := frames }, cursor⟩ := by
  rw [closeSkipped, bind_of_ok (lift_of_ok (closeIf_of_matched hf))]
  rfl

/-- `closeSkipped` on a skipped loop pops its frame and its entry of `loops`. -/
theorem closeSkipped_of_loop {frames : Stack Frame} {loops : Stack (Option Address)}
    {rewind : Option Address} (hf : store.flow.frames = frames.cons ⟨.loop, .skipping⟩)
    (hl : store.flow.loops = loops.cons rewind) :
    closeSkipped .loop ⟨store, cursor⟩ =
      .ok () ⟨{ store with flow.frames := frames, flow.loops := loops }, cursor⟩ := by
  rw [closeSkipped, bind_of_ok (lift_of_ok (closeIf_of_matched hf))]
  refine Eq.trans (bind_of_ok (lift_of_ok (takeFlow_eq_ok_iff.2 ⟨_,
    Flow.popLoop_eq_ok_iff.2 ⟨loops, hl, rfl⟩, rfl⟩))) ?_
  rfl

/-- A skipped loop without an entry on the stack of loops is an `underflow`. -/
theorem closeSkipped_of_no_loop {frames : Stack Frame}
    (hf : store.flow.frames = frames.cons ⟨.loop, .skipping⟩) (hl : store.flow.loops = .empty) :
    closeSkipped .loop ⟨store, cursor⟩ =
      .error (.ofFault .underflow) ⟨{ store with flow.frames := frames }, cursor⟩ := by
  rw [closeSkipped, bind_of_ok (lift_of_ok (closeIf_of_matched hf))]
  exact bind_of_error (lift_of_error
    (takeFlow_eq_error_iff.2 ⟨Flow.popLoop_eq_error_iff.2 ⟨hl, rfl⟩, rfl⟩))

/-- `closeSkipped` on a skipped method pops its frame, closes the definition and may return from a
call. -/
theorem closeSkipped_of_definition {frames : Stack Frame}
    (hf : store.flow.frames = frames.cons ⟨.method, .skipping⟩) :
    closeSkipped .method ⟨store, cursor⟩ =
      returnFromCall ⟨closed { store with flow.frames := frames } cursor, cursor⟩ := by
  rw [closeSkipped, bind_of_ok (lift_of_ok (closeIf_of_matched hf))]
  exact closeDefinition_eq _ _

/-- `skip` nests a block at an opening word. -/
theorem skip_of_opener {construct : Construct}
    (h : store.classify tokens = .ok (.keyword (.opens construct))) :
    skip tokens ⟨store, cursor⟩ =
      (liftM (onFlow (·.nest construct)) : Move Unit) ⟨store, cursor⟩ := by
  simp only [skip, get_bind, h]

/-- A closing word inside a skipped block goes to `closeSkipped`. -/
theorem skip_of_closer {construct : Construct}
    (h : store.classify tokens = .ok (.keyword (.closes construct))) :
    skip tokens ⟨store, cursor⟩ = closeSkipped construct ⟨store, cursor⟩ := by
  simp only [skip, get_bind, h]

/-- `skip` does nothing at a line that neither opens nor closes. -/
theorem skip_of_other (ho : ∀ construct, store.classify tokens ≠ .ok (.keyword (.opens construct)))
    (hc : ∀ construct, store.classify tokens ≠ .ok (.keyword (.closes construct))) :
    skip tokens ⟨store, cursor⟩ = .ok () ⟨store, cursor⟩ := by
  rw [skip, get_bind]
  rcases h : store.classify tokens with fault | command
  · rfl
  · rcases command with _ | _ | ⟨tool | construct | construct⟩
    · rfl
    · rfl
    · rfl
    · exact absurd h (ho construct)
    · exact absurd h (hc construct)

/-- A skipped line that fails: a nested block would exceed `frameBound`, or a stack is empty that
should hold what goes with the closed block. -/
inductive SkipFails (tokens : List String) (cursor : Address) (store : Store) :
    Fault → Store → Prop where
  | nests {construct : Construct}
      (ho : store.classify tokens = .ok (.keyword (.opens construct)))
      (full : frameBound.size ≤ store.flow.frames.height) :
      SkipFails tokens cursor store (.full frameBound) store
  | endsLoop {frames : Stack Frame}
      (hc : store.classify tokens = .ok (.keyword (.closes .loop)))
      (hf : store.flow.frames = frames.cons ⟨.loop, .skipping⟩)
      (hl : store.flow.loops = .empty) :
      SkipFails tokens cursor store .underflow { store with flow.frames := frames }
  | endsDefinition {frames : Stack Frame} {after : Store}
      (hc : store.classify tokens = .ok (.keyword (.closes .method)))
      (hf : store.flow.frames = frames.cons ⟨.method, .skipping⟩)
      (hs : Strands (closed { store with flow.frames := frames } cursor) after) :
      SkipFails tokens cursor store .underflow after

/-- `skip` does what `Skips` says. -/
theorem skip_of_skips (h : Skips tokens cursor store next after)
    (hs : store.flow.suspended = true) : skip tokens ⟨store, cursor⟩ = .ok () ⟨after, next⟩ := by
  cases h with
  | ignores ho hc =>
    by_cases h : ∃ construct, store.classify tokens = .ok (.keyword (.closes construct))
    · obtain ⟨construct, h⟩ := h
      rw [skip_of_closer h]
      exact closeSkipped_of_unmatched (hc construct h)
    · exact skip_of_other ho fun construct h' => h ⟨construct, h'⟩
  | nests ho room =>
    rw [skip_of_opener ho]
    exact lift_of_ok (onFlow_eq_ok_iff.2 ⟨_, Flow.push_eq_ok_iff.2 ⟨room, rfl⟩, rfl⟩)
  | @closes construct mode frames hc hf hm =>
    rw [skip_of_closer hc]
    cases mode with
    | executing => exact absurd rfl (mode_ne_executing hs hf)
    | nested => exact closeSkipped_of_nested hf
    | skipping =>
      obtain rfl : construct = .branch := by simpa using hm
      exact closeSkipped_of_branch hf
  | endsLoop hc hf hl =>
    rw [skip_of_closer hc]
    exact closeSkipped_of_loop hf hl
  | endsDefinition hc hf hl =>
    rw [skip_of_closer hc, closeSkipped_of_definition hf]
    exact returnFromCall_of_leaves hl

/-- `skip` fails in the ways of `SkipFails`, without a place and with the cursor where it was. -/
theorem skip_of_fails (h : SkipFails tokens cursor store fault after) :
    skip tokens ⟨store, cursor⟩ = .error (.ofFault fault) ⟨after, cursor⟩ := by
  cases h with
  | nests ho full =>
    rw [skip_of_opener ho]
    exact lift_of_error (onFlow_eq_error_iff.2 ⟨Flow.push_eq_error_iff.2 ⟨full, rfl⟩, rfl⟩)
  | endsLoop hc hf hl =>
    rw [skip_of_closer hc]
    exact closeSkipped_of_no_loop hf hl
  | endsDefinition hc hf hs =>
    rw [skip_of_closer hc, closeSkipped_of_definition hf]
    exact returnFromCall_of_strands hs

/-- A skipped line `Skips` or `SkipFails`. -/
theorem skips_or_fails (tokens : List String) (cursor : Address)
    (hs : store.flow.suspended = true) :
    (∃ next after, Skips tokens cursor store next after) ∨
      ∃ fault after, SkipFails tokens cursor store fault after := by
  by_cases ho : ∃ construct, store.classify tokens = .ok (.keyword (.opens construct))
  · obtain ⟨construct, ho⟩ := ho
    by_cases room : store.flow.frames.height < frameBound.size
    · exact .inl ⟨_, _, .nests ho room⟩
    · exact .inr ⟨_, _, .nests ho (Nat.le_of_not_lt room)⟩
  · have ho' : ∀ construct, store.classify tokens ≠ .ok (.keyword (.opens construct)) :=
      fun construct h => ho ⟨construct, h⟩
    by_cases hc : ∃ construct, store.classify tokens = .ok (.keyword (.closes construct))
    · obtain ⟨construct, hc⟩ := hc
      rcases store.unmatched_or_matched construct with hu | ⟨mode, frames, hf⟩
      · refine .inl ⟨_, _, .ignores ho' fun c h => ?_⟩
        rw [hc] at h
        cases h
        exact hu
      · cases mode with
        | executing => exact absurd rfl (mode_ne_executing hs hf)
        | nested => exact .inl ⟨_, _, .closes hc hf (.inl rfl)⟩
        | skipping =>
          cases construct with
          | branch => exact .inl ⟨_, _, .closes hc hf (.inr rfl)⟩
          | loop =>
            rcases Stack.eq_empty_or_cons store.flow.loops with hl | ⟨rewind, loops, hl⟩
            · exact .inr ⟨_, _, .endsLoop hc hf hl⟩
            · exact .inl ⟨_, _, .endsLoop hc hf hl⟩
          | method =>
            rcases leaves_or_strands cursor (closed { store with flow.frames := frames } cursor)
              with ⟨next, after, hl⟩ | ⟨after, hl⟩
            · exact .inl ⟨_, _, .endsDefinition hc hf hl⟩
            · exact .inr ⟨_, _, .endsDefinition hc hf hl⟩
    · exact .inl ⟨_, _, .ignores ho' fun construct h => absurd ⟨construct, h⟩ hc⟩

/-! ## Lines that are executed -/

/-- What a command does with its substituted tokens. -/
inductive Performs (cursor : Address) (store : Store) :
    Command → List String → Step → Store → Prop where
  | assigns {tokens : List String} {assignment : Assignment} {value : Number} {vars : Variables}
      (hp : Assignment.parse tokens = .ok assignment) (he : assignment.evaluate = .ok value)
      (hv : store.vars.store assignment.name value = .ok vars) :
      Performs cursor store .assignment tokens ⟨cursor, none⟩ { store with vars }
  | calls {tokens : List String} {invocation : Invocation}
      (hr : store.findCall tokens = .ok invocation)
      (hs : store.vars.scopes.height < scopeBound.size)
      (hc : store.flow.calls.height < callBound.size)
      (hf : store.flow.frames.height < frameBound.size) :
      Performs cursor store .call tokens ⟨invocation.method.start, none⟩
        { store with
          vars.scopes := store.vars.scopes.cons invocation.scope
          flow.calls := store.flow.calls.cons ⟨invocation.name, cursor⟩
          flow.frames := store.flow.frames.cons ⟨.method, .executing⟩ }
  | branches {tokens : List String} {condition : Condition}
      (hp : Condition.parse (.opens .branch) tokens = .ok condition)
      (hf : store.flow.frames.height < frameBound.size) :
      Performs cursor store (.keyword (.opens .branch)) tokens ⟨cursor, none⟩
        { store with flow.frames := store.flow.frames.cons ⟨.branch, condition.mode⟩ }
  | loops {tokens : List String} {condition : Condition}
      (hp : Condition.parse (.opens .loop) tokens = .ok condition)
      (hf : store.flow.frames.height < frameBound.size)
      (hl : store.flow.loops.height < loopBound.size) :
      Performs cursor store (.keyword (.opens .loop)) tokens ⟨cursor, none⟩
        { store with
          flow.frames := store.flow.frames.cons ⟨.loop, condition.mode⟩
          flow.loops := store.flow.loops.cons (condition.rewind cursor) }
  | defines {tokens : List String} {signature : Bracketed} {methods : Methods}
      (hr : store.readHeader tokens cursor = .ok signature)
      (hm : register store.methods signature cursor = .ok methods)
      (hf : store.flow.frames.height < frameBound.size)
      (hd : store.flow.definitions.height < definitionBound.size) :
      Performs cursor store (.keyword (.opens .method)) tokens ⟨cursor, none⟩
        { store with
          methods
          flow.frames := store.flow.frames.cons ⟨.method, .skipping⟩
          flow.definitions := store.flow.definitions.cons signature.head }
  | closesNothing {construct : Construct} {tokens : List String}
      (ha : Keyword.checkAlone (.closes construct) tokens = .ok ())
      (hu : store.Unmatched construct) (hm : construct ≠ .method) :
      Performs cursor store (.keyword (.closes construct)) tokens ⟨cursor, none⟩ store
  | closesBranch {tokens : List String} {mode : Mode} {frames : Stack Frame}
      (ha : Keyword.checkAlone (.closes .branch) tokens = .ok ())
      (hf : store.flow.frames = frames.cons ⟨.branch, mode⟩) :
      Performs cursor store (.keyword (.closes .branch)) tokens ⟨cursor, none⟩
        { store with flow.frames := frames }
  | closesLoop {tokens : List String} {mode : Mode} {frames : Stack Frame}
      {loops : Stack (Option Address)} {rewind : Option Address}
      (ha : Keyword.checkAlone (.closes .loop) tokens = .ok ())
      (hf : store.flow.frames = frames.cons ⟨.loop, mode⟩)
      (hl : store.flow.loops = loops.cons rewind) :
      Performs cursor store (.keyword (.closes .loop)) tokens ⟨rewound cursor rewind, none⟩
        { store with flow.frames := frames, flow.loops := loops }
  | closesMethod {tokens : List String} {next : Address} {after : Store}
      (ha : Keyword.checkAlone (.closes .method) tokens = .ok ())
      (hl : Leaves cursor store next after) :
      Performs cursor store (.keyword (.closes .method)) tokens ⟨next, none⟩ after
  | draws {tool : Tool} {tokens : List String} {instruction : Instruction}
      (hp : Instruction.parse tool tokens.tail = .ok instruction) :
      Performs cursor store (.keyword (.draws tool)) tokens ⟨cursor, some instruction⟩ store

/-- `closeBranch` does nothing if the branch is `Unmatched`. -/
theorem closeBranch_of_unmatched (ha : Keyword.checkAlone (.closes .branch) tokens = .ok ())
    (hu : store.Unmatched .branch) : closeBranch tokens store = .ok () store := by
  rw [closeBranch, bind_of_ok (check_eq_ok_iff.2 ⟨ha, rfl⟩),
    bind_of_ok (closeIf_of_unmatched hu)]
  rfl

/-- `closeBranch` pops the frame of a branch. -/
theorem closeBranch_of_matched (ha : Keyword.checkAlone (.closes .branch) tokens = .ok ())
    {mode : Mode} {frames : Stack Frame} (hf : store.flow.frames = frames.cons ⟨.branch, mode⟩) :
    closeBranch tokens store = .ok () { store with flow.frames := frames } := by
  rw [closeBranch, bind_of_ok (check_eq_ok_iff.2 ⟨ha, rfl⟩),
    bind_of_ok (closeIf_of_matched hf)]
  rfl

/-- `closeLoop` does nothing if the loop is `Unmatched`. -/
theorem closeLoop_of_unmatched (ha : Keyword.checkAlone (.closes .loop) tokens = .ok ())
    (hu : store.Unmatched .loop) :
    closeLoop tokens ⟨store, cursor⟩ = .ok () ⟨store, cursor⟩ := by
  rw [closeLoop, bind_of_ok (lift_of_ok (check_eq_ok_iff.2 ⟨ha, rfl⟩)),
    bind_of_ok (lift_of_ok (closeIf_of_unmatched hu))]
  rfl

/-- `closeLoop` pops the frame and the entry of a loop, and goes back before the header if the body
was executed. -/
theorem closeLoop_of_matched (ha : Keyword.checkAlone (.closes .loop) tokens = .ok ())
    {mode : Mode} {frames : Stack Frame} {loops : Stack (Option Address)}
    {rewind : Option Address} (hf : store.flow.frames = frames.cons ⟨.loop, mode⟩)
    (hl : store.flow.loops = loops.cons rewind) :
    closeLoop tokens ⟨store, cursor⟩ = .ok ()
      ⟨{ store with flow.frames := frames, flow.loops := loops }, rewound cursor rewind⟩ := by
  rw [closeLoop, bind_of_ok (lift_of_ok (check_eq_ok_iff.2 ⟨ha, rfl⟩)),
    bind_of_ok (lift_of_ok (closeIf_of_matched hf))]
  refine Eq.trans (bind_of_ok (lift_of_ok (takeFlow_eq_ok_iff.2 ⟨_,
    Flow.popLoop_eq_ok_iff.2 ⟨loops, hl, rfl⟩, rfl⟩))) ?_
  cases rewind <;> rfl

/-- A loop without an entry on the stack of loops is an `underflow`, and the cursor stays. -/
theorem closeLoop_of_no_loop (ha : Keyword.checkAlone (.closes .loop) tokens = .ok ())
    {mode : Mode} {frames : Stack Frame} (hf : store.flow.frames = frames.cons ⟨.loop, mode⟩)
    (hl : store.flow.loops = .empty) :
    closeLoop tokens ⟨store, cursor⟩ =
      .error (.ofFault .underflow) ⟨{ store with flow.frames := frames }, cursor⟩ := by
  rw [closeLoop, bind_of_ok (lift_of_ok (check_eq_ok_iff.2 ⟨ha, rfl⟩)),
    bind_of_ok (lift_of_ok (closeIf_of_matched hf))]
  exact bind_of_error (lift_of_error
    (takeFlow_eq_error_iff.2 ⟨Flow.popLoop_eq_error_iff.2 ⟨hl, rfl⟩, rfl⟩))

/-- `closeMethod` on a closing word that stands alone is `returnFromCall`. -/
theorem closeMethod_of_alone (ha : Keyword.checkAlone (.closes .method) tokens = .ok ()) :
    closeMethod tokens ⟨store, cursor⟩ = returnFromCall ⟨store, cursor⟩ := by
  rw [closeMethod, bind_of_ok (lift_of_ok (check_eq_ok_iff.2 ⟨ha, rfl⟩))]

/-- `readCall` succeeds exactly if the call names a method of the table and gives a number for each
of its parameters. -/
theorem readCall_eq_ok_iff {request : Request} :
    store.readCall tokens = .ok request ↔
      ∃ call method values, tokens.head?.bind Bracketed.parse? = some call ∧
        store.methods.find? call.head = some method ∧
        call.items.length = method.parameters.length ∧
        call.items.mapM store.resolve = .ok values ∧ request = ⟨call.head, values⟩ := by
  unfold readCall
  cases hp : tokens.head?.bind Bracketed.parse? with
  | none => simp
  | some call =>
    cases hm : store.methods.find? call.head with
    | none => simp [hm]
    | some method =>
      simp only [hm]
      split
      · next hlength =>
        rw [bind_ok_iff]
        constructor
        · rintro ⟨values, hv, hrequest⟩
          cases hrequest
          exact ⟨call, method, values, rfl, hm, hlength, hv, rfl⟩
        · rintro ⟨_, _, values, hcall, -, -, hv, rfl⟩
          cases hcall
          exact ⟨values, hv, rfl⟩
      · next hlength =>
        refine ⟨nofun, ?_⟩
        rintro ⟨_, other, -, hcall, hother, hsame, -⟩
        cases hcall
        rw [hm, Option.some.injEq] at hother
        exact absurd (hother ▸ hsame) hlength

/-- The method of a call that has been read is in the table: the second search never fails with
`methodVanished`. -/
theorem exists_findCall_of_readCall {request : Request}
    (h : store.readCall tokens = .ok request) :
    ∃ method, store.methods.find? request.name = some method ∧
      store.findCall tokens = .ok ⟨request.name, method, request.values⟩ := by
  obtain ⟨call, method, values, -, hm, -, -, rfl⟩ := readCall_eq_ok_iff.1 h
  refine ⟨method, hm, bind_ok_iff.2 ⟨_, h, ?_⟩⟩
  simp only [invoke, hm]

/-- `readCall` passes exactly if `findCall` does. -/
theorem readCall_eq_ok_iff_findCall {name : String} {values : List Number} :
    store.readCall tokens = .ok ⟨name, values⟩ ↔
      ∃ method, store.findCall tokens = .ok ⟨name, method, values⟩ := by
  constructor
  · intro h
    obtain ⟨method, -, hfound⟩ := exists_findCall_of_readCall h
    exact ⟨method, hfound⟩
  · rintro ⟨method, hfound⟩
    obtain ⟨request, hread, -⟩ := bind_ok_iff.1 hfound
    obtain ⟨other, -, hother⟩ := exists_findCall_of_readCall hread
    rw [hfound, Except.ok.injEq, Invocation.mk.injEq] at hother
    rw [hread, hother.1, hother.2.2]

/-- The faults of `findCall` are those of `readCall`. -/
theorem findCall_eq_error_iff :
    store.findCall tokens = .error fault ↔ store.readCall tokens = .error fault := by
  refine ⟨fun h => ?_, fun h => bind_error_iff.2 (.inl h)⟩
  cases hr : store.readCall tokens with
  | error other =>
    have hother : store.findCall tokens = .error other := bind_error_iff.2 (.inl hr)
    rw [Except.error.inj (hother.symm.trans h)]
  | ok request =>
    obtain ⟨method, -, hfound⟩ := exists_findCall_of_readCall hr
    exact nomatch hfound.symm.trans h

/-- The checks of a command at an address, before anything is changed. -/
def checkAt (store : Store) (command : Command) (tokens : List String) (cursor : Address) :
    Except Fault Unit :=
  match command with
  | .keyword (.opens .method) => (store.readHeader tokens cursor).map fun _ => ()
  | _ => store.checkCommand command tokens

/-- `checkAt` is `checkCommand` at every address, unless the command is the header of a method. -/
theorem checkAt_eq_checkCommand {command : Command}
    (h : command ≠ .keyword (.opens .method)) :
    store.checkAt command tokens cursor = store.checkCommand command tokens := by
  unfold checkAt
  split
  · exact absurd rfl h
  · rfl

/-- What a command that fails has done. A push that ends with `full` leaves behind what was pushed
on other stacks before it. -/
inductive PerformFails (cursor : Address) (store : Store) :
    Command → List String → Fault → Store → Prop where
  | checks {command : Command} {tokens : List String} {fault : Fault}
      (h : store.checkAt command tokens cursor = .error fault) :
      PerformFails cursor store command tokens fault store
  | evaluates {tokens : List String} {assignment : Assignment} {fault : Fault}
      (hp : Assignment.parse tokens = .ok assignment) (he : assignment.evaluate = .error fault) :
      PerformFails cursor store .assignment tokens fault store
  | stores {tokens : List String} {assignment : Assignment} {value : Number} {fault : Fault}
      (hp : Assignment.parse tokens = .ok assignment) (he : assignment.evaluate = .ok value)
      (hv : store.vars.store assignment.name value = .error fault) :
      PerformFails cursor store .assignment tokens fault store
  | scopes {tokens : List String} {invocation : Invocation}
      (hr : store.findCall tokens = .ok invocation)
      (full : scopeBound.size ≤ store.vars.scopes.height) :
      PerformFails cursor store .call tokens (.full scopeBound) store
  | calls {tokens : List String} {invocation : Invocation}
      (hr : store.findCall tokens = .ok invocation)
      (hs : store.vars.scopes.height < scopeBound.size)
      (full : callBound.size ≤ store.flow.calls.height) :
      PerformFails cursor store .call tokens (.full callBound)
        { store with vars.scopes := store.vars.scopes.cons invocation.scope }
  | callFrame {tokens : List String} {invocation : Invocation}
      (hr : store.findCall tokens = .ok invocation)
      (hs : store.vars.scopes.height < scopeBound.size)
      (hc : store.flow.calls.height < callBound.size)
      (full : frameBound.size ≤ store.flow.frames.height) :
      PerformFails cursor store .call tokens (.full frameBound)
        { store with
          vars.scopes := store.vars.scopes.cons invocation.scope
          flow.calls := store.flow.calls.cons ⟨invocation.name, cursor⟩ }
  | blocks {construct : Construct} {tokens : List String} {condition : Condition}
      (hm : construct ≠ .method) (hp : Condition.parse (.opens construct) tokens = .ok condition)
      (full : frameBound.size ≤ store.flow.frames.height) :
      PerformFails cursor store (.keyword (.opens construct)) tokens (.full frameBound) store
  | loops {tokens : List String} {condition : Condition}
      (hp : Condition.parse (.opens .loop) tokens = .ok condition)
      (hf : store.flow.frames.height < frameBound.size)
      (full : loopBound.size ≤ store.flow.loops.height) :
      PerformFails cursor store (.keyword (.opens .loop)) tokens (.full loopBound)
        { store with flow.frames := store.flow.frames.cons ⟨.loop, condition.mode⟩ }
  | registers {tokens : List String} {signature : Bracketed} {fault : Fault}
      (hr : store.readHeader tokens cursor = .ok signature)
      (hm : register store.methods signature cursor = .error fault) :
      PerformFails cursor store (.keyword (.opens .method)) tokens fault store
  | defineFrame {tokens : List String} {signature : Bracketed} {methods : Methods}
      (hr : store.readHeader tokens cursor = .ok signature)
      (hm : register store.methods signature cursor = .ok methods)
      (full : frameBound.size ≤ store.flow.frames.height) :
      PerformFails cursor store (.keyword (.opens .method)) tokens (.full frameBound)
        { store with methods }
  | defineName {tokens : List String} {signature : Bracketed} {methods : Methods}
      (hr : store.readHeader tokens cursor = .ok signature)
      (hm : register store.methods signature cursor = .ok methods)
      (hf : store.flow.frames.height < frameBound.size)
      (full : definitionBound.size ≤ store.flow.definitions.height) :
      PerformFails cursor store (.keyword (.opens .method)) tokens (.full definitionBound)
        { store with methods, flow.frames := store.flow.frames.cons ⟨.method, .skipping⟩ }
  | closesLoop {tokens : List String} {mode : Mode} {frames : Stack Frame}
      (ha : Keyword.checkAlone (.closes .loop) tokens = .ok ())
      (hf : store.flow.frames = frames.cons ⟨.loop, mode⟩) (hl : store.flow.loops = .empty) :
      PerformFails cursor store (.keyword (.closes .loop)) tokens .underflow
        { store with flow.frames := frames }
  | closesMethod {tokens : List String} {after : Store}
      (ha : Keyword.checkAlone (.closes .method) tokens = .ok ()) (hs : Strands store after) :
      PerformFails cursor store (.keyword (.closes .method)) tokens .underflow after

/-- `push` adds the frame if there are fewer than `frameBound` allows. -/
theorem onFlow_push {frame : Frame} (room : store.flow.frames.height < frameBound.size) :
    onFlow (·.push frame) store =
      .ok () { store with flow.frames := store.flow.frames.cons frame } :=
  onFlow_eq_ok_iff.2 ⟨_, Flow.push_eq_ok_iff.2 ⟨room, rfl⟩, rfl⟩

/-- `push` fails with `full frameBound` if the frames are at their bound. -/
theorem onFlow_push_full {frame : Frame} (full : frameBound.size ≤ store.flow.frames.height) :
    onFlow (·.push frame) store = .error (.ofFault (.full frameBound)) store :=
  onFlow_eq_error_iff.2 ⟨Flow.push_eq_error_iff.2 ⟨full, rfl⟩, rfl⟩

/-- Once its condition is read, `openBranch` pushes a frame. -/
theorem openBranch_of_parse {condition : Condition}
    (hp : Condition.parse (.opens .branch) tokens = .ok condition) :
    openBranch tokens store = onFlow (·.push ⟨.branch, condition.mode⟩) store := by
  rw [openBranch, bind_of_ok (check_eq_ok_iff.2 ⟨hp, rfl⟩)]
  rfl

/-- Once its condition is read, `openLoop` pushes a frame and then an entry of `loops`. -/
theorem openLoop_of_parse {condition : Condition}
    (hp : Condition.parse (.opens .loop) tokens = .ok condition) :
    openLoop tokens cursor store =
      (do onFlow (·.push ⟨.loop, condition.mode⟩)
          onFlow (·.pushLoop (condition.rewind cursor)) : Action Unit) store := by
  rw [openLoop, bind_of_ok (check_eq_ok_iff.2 ⟨hp, rfl⟩)]
  unfold Condition.mode Condition.rewind
  split <;> rfl

/-- Once its method is registered, `define` pushes a frame and then the name of the method. -/
theorem define_of_register {signature : Bracketed} {methods : Methods}
    (hr : store.readHeader tokens cursor = .ok signature)
    (hm : register store.methods signature cursor = .ok methods) :
    define tokens cursor store =
      (do onFlow (·.push ⟨.method, .skipping⟩)
          onFlow (·.beginDefinition signature.head) : Action Unit) { store with methods } := by
  rw [define, bind_of_ok (inspect_eq_ok_iff.2 ⟨hr, rfl⟩)]
  exact bind_of_ok (a := ()) (onMethods_eq_ok_iff.2 ⟨methods, hm, rfl⟩)

/-- Once its scope is entered, `call` pushes the call and then a frame, and goes to the header. -/
theorem call_of_enter {invocation : Invocation} (hr : store.findCall tokens = .ok invocation)
    (hs : store.vars.scopes.height < scopeBound.size) :
    call tokens ⟨store, cursor⟩ =
      (do onFlow (·.pushCall ⟨invocation.name, (← get).cursor⟩)
          onFlow (·.push ⟨.method, .executing⟩)
          goTo invocation.method.start : Move Unit)
        ⟨{ store with vars.scopes := store.vars.scopes.cons invocation.scope }, cursor⟩ := by
  rw [call, bind_of_ok (lift_of_ok (inspect_eq_ok_iff.2 ⟨hr, rfl⟩))]
  exact bind_of_ok (a := ()) (lift_of_ok
    (onVariables_eq_ok_iff.2 ⟨_, Variables.enter_eq_ok_iff.2 ⟨hs, rfl⟩, rfl⟩))

/-- `perform` of an opener is `openBlock` at the cursor, which stays there. -/
theorem perform_opens_of_ok {construct : Construct}
    (h : openBlock construct tokens cursor store = .ok () after) :
    perform (.keyword (.opens construct)) tokens ⟨store, cursor⟩ = .ok none ⟨after, cursor⟩ := by
  rw [perform, get_bind]
  exact bind_of_ok (lift_of_ok h)

/-- An opening keyword fails as `openBlock` does, and the cursor stays. -/
theorem perform_opens_of_error {construct : Construct} {failure : Failure}
    (h : openBlock construct tokens cursor store = .error failure after) :
    perform (.keyword (.opens construct)) tokens ⟨store, cursor⟩ =
      .error failure ⟨after, cursor⟩ := by
  rw [perform, get_bind]
  exact bind_of_error (lift_of_error h)

/-- `perform` does what `Performs` says. -/
theorem perform_of_performs {command : Command} {step : Step}
    (h : Performs cursor store command tokens step after) :
    perform command tokens ⟨store, cursor⟩ = .ok step.drawing ⟨after, step.cursor⟩ := by
  cases h with
  | assigns hp he hv =>
    refine bind_of_ok (a := ()) (lift_of_ok ?_)
    rw [assign, bind_of_ok (check_eq_ok_iff.2 ⟨hp, rfl⟩), bind_of_ok (check_eq_ok_iff.2 ⟨he, rfl⟩)]
    exact onVariables_eq_ok_iff.2 ⟨_, hv, rfl⟩
  | calls hr hs hc hf =>
    refine bind_of_ok (a := ()) (Eq.trans (call_of_enter hr hs) ?_)
    rw [get_bind]
    refine Eq.trans (bind_of_ok (a := ()) (lift_of_ok
      (onFlow_eq_ok_iff.2 ⟨_, Flow.pushCall_eq_ok_iff.2 ⟨hc, rfl⟩, rfl⟩))) ?_
    refine bind_of_ok (a := ()) (lift_of_ok ?_)
    exact onFlow_push hf
  | branches hp hf =>
    exact perform_opens_of_ok (Eq.trans (openBranch_of_parse hp) (onFlow_push hf))
  | loops hp hf hl =>
    refine perform_opens_of_ok (Eq.trans (openLoop_of_parse hp) ?_)
    refine Eq.trans (bind_of_ok (onFlow_push hf)) ?_
    exact onFlow_eq_ok_iff.2 ⟨_, Flow.pushLoop_eq_ok_iff.2 ⟨hl, rfl⟩, rfl⟩
  | defines hr hm hf hd =>
    refine perform_opens_of_ok (Eq.trans (define_of_register hr hm) ?_)
    refine Eq.trans (bind_of_ok (onFlow_push hf)) ?_
    exact onFlow_eq_ok_iff.2 ⟨_, Flow.beginDefinition_eq_ok_iff.2 ⟨hd, rfl⟩, rfl⟩
  | @closesNothing construct tokens ha hu hm =>
    cases construct with
    | branch => exact bind_of_ok (lift_of_ok (closeBranch_of_unmatched ha hu))
    | loop => exact bind_of_ok (closeLoop_of_unmatched ha hu)
    | method => exact absurd rfl hm
  | closesBranch ha hf => exact bind_of_ok (lift_of_ok (closeBranch_of_matched ha hf))
  | closesLoop ha hf hl => exact bind_of_ok (closeLoop_of_matched ha hf hl)
  | closesMethod ha hl =>
    exact bind_of_ok (Eq.trans (closeMethod_of_alone ha) (returnFromCall_of_leaves hl))
  | draws hp => exact bind_of_ok (lift_of_ok (check_eq_ok_iff.2 ⟨hp, rfl⟩))

/-- `perform` of a command that `checkAt` refuses fails before it has changed anything. -/
theorem perform_of_check {command : Command}
    (h : store.checkAt command tokens cursor = .error fault) :
    perform command tokens ⟨store, cursor⟩ = .error (.ofFault fault) ⟨store, cursor⟩ := by
  rcases command with _ | _ | ⟨tool | construct | construct⟩
  · have hp := map_eq_error_iff.1 h
    exact bind_of_error (lift_of_error (bind_of_error (check_eq_error_iff.2 ⟨hp, rfl⟩)))
  · have hr := findCall_eq_error_iff.2 (map_eq_error_iff.1 h)
    exact bind_of_error (bind_of_error (lift_of_error (inspect_eq_error_iff.2 ⟨hr, rfl⟩)))
  · have hp := map_eq_error_iff.1 h
    exact bind_of_error (lift_of_error (check_eq_error_iff.2 ⟨hp, rfl⟩))
  · cases construct with
    | branch =>
      have hp := map_eq_error_iff.1 h
      exact perform_opens_of_error (bind_of_error (check_eq_error_iff.2 ⟨hp, rfl⟩))
    | loop =>
      have hp := map_eq_error_iff.1 h
      exact perform_opens_of_error (bind_of_error (check_eq_error_iff.2 ⟨hp, rfl⟩))
    | method =>
      have hr := map_eq_error_iff.1 h
      exact perform_opens_of_error (bind_of_error (inspect_eq_error_iff.2 ⟨hr, rfl⟩))
  · have ha : Keyword.checkAlone (.closes construct) tokens = .error fault := h
    cases construct with
    | branch =>
      exact bind_of_error (lift_of_error (bind_of_error (check_eq_error_iff.2 ⟨ha, rfl⟩)))
    | loop =>
      exact bind_of_error (bind_of_error (lift_of_error (check_eq_error_iff.2 ⟨ha, rfl⟩)))
    | method =>
      exact bind_of_error (bind_of_error (lift_of_error (check_eq_error_iff.2 ⟨ha, rfl⟩)))

/-- A command that fails raises its fault without a place and leaves the cursor alone: `goTo` is the
last thing that a command does. -/
theorem perform_of_fails {command : Command}
    (h : PerformFails cursor store command tokens fault after) :
    perform command tokens ⟨store, cursor⟩ = .error (.ofFault fault) ⟨after, cursor⟩ := by
  -- each command stops at the first of its steps that fails, and all before it have succeeded
  cases h with
  | checks h => exact perform_of_check h
  | evaluates hp he =>
    refine bind_of_error (lift_of_error ?_)
    rw [assign, bind_of_ok (check_eq_ok_iff.2 ⟨hp, rfl⟩)]
    exact bind_of_error (check_eq_error_iff.2 ⟨he, rfl⟩)
  | stores hp he hv =>
    refine bind_of_error (lift_of_error ?_)
    rw [assign, bind_of_ok (check_eq_ok_iff.2 ⟨hp, rfl⟩), bind_of_ok (check_eq_ok_iff.2 ⟨he, rfl⟩)]
    exact onVariables_eq_error_iff.2 ⟨hv, rfl⟩
  | scopes hr full =>
    refine bind_of_error ?_
    rw [call, bind_of_ok (lift_of_ok (inspect_eq_ok_iff.2 ⟨hr, rfl⟩))]
    exact bind_of_error (lift_of_error
      (onVariables_eq_error_iff.2 ⟨Variables.enter_eq_error_iff.2 ⟨full, rfl⟩, rfl⟩))
  | calls hr hs full =>
    refine bind_of_error (Eq.trans (call_of_enter hr hs) ?_)
    rw [get_bind]
    exact bind_of_error (lift_of_error
      (onFlow_eq_error_iff.2 ⟨Flow.pushCall_eq_error_iff.2 ⟨full, rfl⟩, rfl⟩))
  | callFrame hr hs hc full =>
    refine bind_of_error (Eq.trans (call_of_enter hr hs) ?_)
    rw [get_bind]
    refine Eq.trans (bind_of_ok (a := ()) (lift_of_ok
      (onFlow_eq_ok_iff.2 ⟨_, Flow.pushCall_eq_ok_iff.2 ⟨hc, rfl⟩, rfl⟩))) ?_
    exact bind_of_error (lift_of_error (onFlow_push_full full))
  | @blocks construct tokens condition hm hp full =>
    cases construct with
    | branch =>
      exact perform_opens_of_error (Eq.trans (openBranch_of_parse hp) (onFlow_push_full full))
    | loop =>
      exact perform_opens_of_error
        (Eq.trans (openLoop_of_parse hp) (bind_of_error (onFlow_push_full full)))
    | method => exact absurd rfl hm
  | loops hp hf full =>
    refine perform_opens_of_error (Eq.trans (openLoop_of_parse hp) ?_)
    refine Eq.trans (bind_of_ok (onFlow_push hf)) ?_
    exact onFlow_eq_error_iff.2 ⟨Flow.pushLoop_eq_error_iff.2 ⟨full, rfl⟩, rfl⟩
  | registers hr hm =>
    refine perform_opens_of_error ?_
    rw [openBlock, define, bind_of_ok (inspect_eq_ok_iff.2 ⟨hr, rfl⟩)]
    exact bind_of_error (onMethods_eq_error_iff.2 ⟨hm, rfl⟩)
  | defineFrame hr hm full =>
    exact perform_opens_of_error
      (Eq.trans (define_of_register hr hm) (bind_of_error (onFlow_push_full full)))
  | defineName hr hm hf full =>
    refine perform_opens_of_error (Eq.trans (define_of_register hr hm) ?_)
    refine Eq.trans (bind_of_ok (onFlow_push hf)) ?_
    exact onFlow_eq_error_iff.2 ⟨Flow.beginDefinition_eq_error_iff.2 ⟨full, rfl⟩, rfl⟩
  | closesLoop ha hf hl => exact bind_of_error (closeLoop_of_no_loop ha hf hl)
  | closesMethod ha hs =>
    exact bind_of_error (Eq.trans (closeMethod_of_alone ha) (returnFromCall_of_strands hs))

/-- A command `Performs` or `PerformFails`. -/
theorem performs_or_fails (cursor : Address) (store : Store) (command : Command)
    (tokens : List String) :
    (∃ step after, Performs cursor store command tokens step after) ∨
      ∃ fault after, PerformFails cursor store command tokens fault after := by
  by_cases hk : ∃ fault, store.checkAt command tokens cursor = .error fault
  · obtain ⟨fault, hk⟩ := hk
    exact .inr ⟨_, _, .checks hk⟩
  obtain ⟨u, hk⟩ : ∃ u, store.checkAt command tokens cursor = .ok u := by
    cases h : store.checkAt command tokens cursor with
    | error fault => exact absurd ⟨fault, h⟩ hk
    | ok u => exact ⟨u, rfl⟩
  -- the checks have passed; what is left are the pushes and pops of each command
  rcases command with _ | _ | ⟨tool | construct | construct⟩
  · obtain ⟨assignment, hp, -⟩ := map_eq_ok_iff.1 hk
    rcases he : assignment.evaluate with fault | value
    · exact .inr ⟨_, _, .evaluates hp he⟩
    · rcases hv : store.vars.store assignment.name value with fault | vars
      · exact .inr ⟨_, _, .stores hp he hv⟩
      · exact .inl ⟨_, _, .assigns hp he hv⟩
  · obtain ⟨request, hread, -⟩ := map_eq_ok_iff.1 hk
    obtain ⟨method, -, hr⟩ := exists_findCall_of_readCall hread
    by_cases hs : store.vars.scopes.height < scopeBound.size
    · by_cases hc : store.flow.calls.height < callBound.size
      · by_cases hf : store.flow.frames.height < frameBound.size
        · exact .inl ⟨_, _, .calls hr hs hc hf⟩
        · exact .inr ⟨_, _, .callFrame hr hs hc (Nat.le_of_not_lt hf)⟩
      · exact .inr ⟨_, _, .calls hr hs (Nat.le_of_not_lt hc)⟩
    · exact .inr ⟨_, _, .scopes hr (Nat.le_of_not_lt hs)⟩
  · obtain ⟨instruction, hp, -⟩ := map_eq_ok_iff.1 hk
    exact .inl ⟨_, _, .draws hp⟩
  · by_cases hf : store.flow.frames.height < frameBound.size
    · cases construct with
      | branch =>
        obtain ⟨condition, hp, -⟩ := map_eq_ok_iff.1 hk
        exact .inl ⟨_, _, .branches hp hf⟩
      | loop =>
        obtain ⟨condition, hp, -⟩ := map_eq_ok_iff.1 hk
        by_cases hl : store.flow.loops.height < loopBound.size
        · exact .inl ⟨_, _, .loops hp hf hl⟩
        · exact .inr ⟨_, _, .loops hp hf (Nat.le_of_not_lt hl)⟩
      | method =>
        obtain ⟨signature, hr, -⟩ := map_eq_ok_iff.1 hk
        rcases hm : register store.methods signature cursor with fault | methods
        · exact .inr ⟨_, _, .registers hr hm⟩
        · by_cases hd : store.flow.definitions.height < definitionBound.size
          · exact .inl ⟨_, _, .defines hr hm hf hd⟩
          · exact .inr ⟨_, _, .defineName hr hm hf (Nat.le_of_not_lt hd)⟩
    · have full := Nat.le_of_not_lt hf
      cases construct with
      | branch =>
        obtain ⟨condition, hp, -⟩ := map_eq_ok_iff.1 hk
        exact .inr ⟨_, _, .blocks (by decide) hp full⟩
      | loop =>
        obtain ⟨condition, hp, -⟩ := map_eq_ok_iff.1 hk
        exact .inr ⟨_, _, .blocks (by decide) hp full⟩
      | method =>
        obtain ⟨signature, hr, -⟩ := map_eq_ok_iff.1 hk
        rcases hm : register store.methods signature cursor with fault | methods
        · exact .inr ⟨_, _, .registers hr hm⟩
        · exact .inr ⟨_, _, .defineFrame hr hm full⟩
  · have ha : Keyword.checkAlone (.closes construct) tokens = .ok () := hk
    cases construct with
    | branch =>
      rcases store.unmatched_or_matched .branch with hu | ⟨mode, frames, hf⟩
      · exact .inl ⟨_, _, .closesNothing ha hu (by decide)⟩
      · exact .inl ⟨_, _, .closesBranch ha hf⟩
    | loop =>
      rcases store.unmatched_or_matched .loop with hu | ⟨mode, frames, hf⟩
      · exact .inl ⟨_, _, .closesNothing ha hu (by decide)⟩
      · rcases Stack.eq_empty_or_cons store.flow.loops with hl | ⟨rewind, loops, hl⟩
        · exact .inr ⟨_, _, .closesLoop ha hf hl⟩
        · exact .inl ⟨_, _, .closesLoop ha hf hl⟩
    | method =>
      rcases leaves_or_strands cursor store with ⟨next, after, hl⟩ | ⟨after, hs⟩
      · exact .inl ⟨_, _, .closesMethod ha hl⟩
      · exact .inr ⟨_, _, .closesMethod ha hs⟩

/-! ## Whole lines -/

/-- What a line that succeeds does to the store. -/
inductive Executes (line : Line) (cursor : Address) (store : Store) : Step → Store → Prop where
  | blank (hl : line.isEmpty = true) : Executes line cursor store ⟨cursor, none⟩ store
  | skips {next : Address} {after : Store} (hl : line.isEmpty = false)
      (hs : store.flow.suspended = true) (h : Skips line.tokens cursor store next after) :
      Executes line cursor store ⟨next, none⟩ after
  | performs {command : Command} {tokens : List String} {step : Step} {after : Store}
      (hl : line.isEmpty = false) (hs : store.flow.suspended = false)
      (hi : store.interpret line.tokens = .ok (command, tokens))
      (h : Performs cursor store command tokens step after) :
      Executes line cursor store step after

/-- What a line that fails has done to the store. -/
inductive Fails (line : Line) (cursor : Address) (store : Store) : Fault → Store → Prop where
  | skips {fault : Fault} {after : Store} (hl : line.isEmpty = false)
      (hs : store.flow.suspended = true) (h : SkipFails line.tokens cursor store fault after) :
      Fails line cursor store fault after
  | interprets {fault : Fault} (hl : line.isEmpty = false) (hs : store.flow.suspended = false)
      (hi : store.interpret line.tokens = .error fault) : Fails line cursor store fault store
  | performs {command : Command} {tokens : List String} {fault : Fault} {after : Store}
      (hl : line.isEmpty = false) (hs : store.flow.suspended = false)
      (hi : store.interpret line.tokens = .ok (command, tokens))
      (h : PerformFails cursor store command tokens fault after) :
      Fails line cursor store fault after

variable {line : Line} {step : Step}

/-- While the flow is `suspended`, a line with tokens is passed to `skip`. -/
theorem execute_of_suspended (hl : line.isEmpty = false) (hs : store.flow.suspended = true) :
    execute line ⟨store, cursor⟩ =
      (do skip line.tokens; pure none : Move (Option Instruction)) ⟨store, cursor⟩ := by
  simp only [execute, hl, get_bind, hs, if_true, Bool.false_eq_true, if_false]

/-- Unless the flow is `suspended`, a line with tokens is passed to `interpret` and `perform`. -/
theorem execute_of_running (hl : line.isEmpty = false) (hs : store.flow.suspended = false) :
    execute line ⟨store, cursor⟩ =
      (do let (command, tokens) ← inspect (·.interpret line.tokens)
          perform command tokens : Move (Option Instruction)) ⟨store, cursor⟩ := by
  simp only [execute, hl, get_bind, hs, Bool.false_eq_true, if_false]

/-- `execute` does what `Executes` says. -/
theorem execute_of_executes (h : Executes line cursor store step after) :
    execute line ⟨store, cursor⟩ = .ok step.drawing ⟨after, step.cursor⟩ := by
  cases h with
  | blank hl =>
    rw [execute, if_pos hl]
    rfl
  | skips hl hs h =>
    rw [execute_of_suspended hl hs, bind_of_ok (skip_of_skips h hs)]
    rfl
  | performs hl hs hi h =>
    rw [execute_of_running hl hs, bind_of_ok (lift_of_ok (inspect_eq_ok_iff.2 ⟨hi, rfl⟩))]
    exact perform_of_performs h

/-- `execute` on a line that `Fails` raises its fault without a place and leaves the cursor alone.
-/
theorem execute_of_fails (h : Fails line cursor store fault after) :
    execute line ⟨store, cursor⟩ = .error (.ofFault fault) ⟨after, cursor⟩ := by
  cases h with
  | skips hl hs h =>
    rw [execute_of_suspended hl hs]
    exact bind_of_error (skip_of_fails h)
  | interprets hl hs hi =>
    rw [execute_of_running hl hs]
    exact bind_of_error (lift_of_error (inspect_eq_error_iff.2 ⟨hi, rfl⟩))
  | performs hl hs hi h =>
    rw [execute_of_running hl hs, bind_of_ok (lift_of_ok (inspect_eq_ok_iff.2 ⟨hi, rfl⟩))]
    exact perform_of_fails h

/-- Every line is in one of the lists: it succeeds as `Executes` says or fails as `Fails` says. -/
theorem executes_or_fails (line : Line) (cursor : Address) (store : Store) :
    (∃ step after, Executes line cursor store step after) ∨
      ∃ fault after, Fails line cursor store fault after := by
  rcases hl : line.isEmpty with _ | _
  · rcases hs : store.flow.suspended with _ | _
    · rcases hi : store.interpret line.tokens with fault | ⟨command, tokens⟩
      · exact .inr ⟨_, _, .interprets hl hs hi⟩
      · rcases performs_or_fails cursor store command tokens with ⟨_, _, h⟩ | ⟨_, _, h⟩
        · exact .inl ⟨_, _, .performs hl hs hi h⟩
        · exact .inr ⟨_, _, .performs hl hs hi h⟩
    · rcases skips_or_fails line.tokens cursor hs with ⟨_, _, h⟩ | ⟨_, _, h⟩
      · exact .inl ⟨_, _, .skips hl hs h⟩
      · exact .inr ⟨_, _, .skips hl hs h⟩
  · exact .inl ⟨_, _, .blank hl⟩

/-- **`Store.execute` succeeds exactly as `Executes` says.** -/
theorem execute_eq_ok_iff :
    execute line ⟨store, cursor⟩ = .ok step.drawing ⟨after, step.cursor⟩ ↔
      Executes line cursor store step after := by
  refine ⟨fun h => ?_, execute_of_executes⟩
  rcases executes_or_fails line cursor store with ⟨⟨next, drawing⟩, _, he⟩ | ⟨_, _, he⟩
  · have heq := execute_of_executes he
    rw [h] at heq
    cases step
    cases heq
    exact he
  · have heq := execute_of_fails he
    rw [h] at heq
    cases heq

/-- **`Store.execute` fails exactly as `Fails` says**, and then its failure has no place and the
cursor is where it was. -/
theorem execute_eq_error_iff {failure : Failure} {site : Site} :
    execute line ⟨store, cursor⟩ = .error failure site ↔
      ∃ fault, failure = .ofFault fault ∧ site.cursor = cursor ∧
        Fails line cursor store fault site.store := by
  constructor
  · intro h
    rcases executes_or_fails line cursor store with ⟨_, _, he⟩ | ⟨fault, _, he⟩
    · have heq := execute_of_executes he
      rw [h] at heq
      cases heq
    · have heq := execute_of_fails he
      rw [h] at heq
      cases heq
      exact ⟨fault, rfl, rfl, he⟩
  · rintro ⟨fault, rfl, rfl, he⟩
    exact execute_of_fails he

end Store

/-! ## Lines of an engine -/

/-- A fault at a line that leaves the cursor at an address. -/
def Fault.stop (fault : Fault) (cursor : Address) : Stop :=
  ⟨.ofFault fault, cursor⟩

@[simp] theorem Fault.stop_failure (fault : Fault) (cursor : Address) :
    (fault.stop cursor).failure = .ofFault fault :=
  rfl

namespace Engine

variable {line : Line} {cursor next : Address} {engine after : Engine} {fault : Fault}

/-- **`Engine.execute` succeeds exactly as `Executes` says**, and what is drawn is added to the
canvas. -/
theorem execute_eq_ok_iff :
    execute line cursor engine = .ok next after ↔
      ∃ step, Store.Executes line cursor engine.store step after.store ∧ next = step.cursor ∧
        after.canvas = drawn engine.canvas step.drawing := by
  rcases after with ⟨store, canvas⟩
  unfold execute
  rcases he : Store.execute line ⟨engine.store, cursor⟩ with ⟨drawing, between, a⟩ | ⟨failure, site⟩
  · simp only [EStateM.Result.ok.injEq, Engine.mk.injEq]
    constructor
    · rintro ⟨rfl, rfl, rfl⟩
      exact ⟨⟨a, drawing⟩, Store.execute_eq_ok_iff.1 he, rfl, rfl⟩
    · rintro ⟨step', h, rfl, rfl⟩
      rw [Store.execute_of_executes h] at he
      cases he
      exact ⟨rfl, rfl, rfl⟩
  · simp only [reduceCtorEq, false_iff]
    rintro ⟨step, h, -, -⟩
    rw [Store.execute_of_executes h] at he
    cases he

/-- A line that draws nothing leaves the canvas as it was. -/
theorem execute_of_step {store : Store}
    (h : Store.Executes line cursor engine.store ⟨next, none⟩ store) :
    execute line cursor engine = .ok next ⟨store, engine.canvas⟩ :=
  execute_eq_ok_iff.2 ⟨⟨next, none⟩, h, rfl, rfl⟩

/-- **`Engine.execute` fails exactly as `Fails` says.** It draws nothing, leaves the cursor where it
was and raises its fault without a place. -/
theorem execute_eq_error_iff {stop : Stop} :
    execute line cursor engine = .error stop after ↔
      ∃ fault, stop = fault.stop cursor ∧ Store.Fails line cursor engine.store fault after.store ∧
        after.canvas = engine.canvas := by
  rcases after with ⟨store, canvas⟩
  unfold execute
  rcases he : Store.execute line ⟨engine.store, cursor⟩ with ⟨drawing, site⟩ | ⟨failure, site⟩
  · simp only [reduceCtorEq, false_iff]
    rintro ⟨fault, -, h, -⟩
    rw [Store.execute_of_fails h] at he
    cases he
  · simp only [EStateM.Result.error.injEq, Engine.mk.injEq]
    constructor
    · rintro ⟨rfl, rfl, rfl⟩
      obtain ⟨fault, rfl, hcursor, hf⟩ := Store.execute_eq_error_iff.1 he
      exact ⟨fault, by rw [Fault.stop, hcursor], hf, rfl⟩
    · rintro ⟨fault, rfl, h, rfl⟩
      rw [Store.execute_of_fails h] at he
      cases he
      exact ⟨rfl, rfl, rfl⟩

/-- `execute_eq_error_iff` for a known fault. -/
theorem execute_eq_stop_iff :
    execute line cursor engine = .error (fault.stop cursor) after ↔
      Store.Fails line cursor engine.store fault after.store ∧ after.canvas = engine.canvas := by
  rw [execute_eq_error_iff]
  constructor
  · rintro ⟨other, heq, h⟩
    cases heq
    exact h
  · intro h
    exact ⟨fault, rfl, h⟩

end Engine

/-! ## How a run ends -/

/-- The engine in which a run ended. -/
def Outcome.engine {α : Type} : Outcome α → Engine
  | .ok _ engine => engine
  | .error _ engine => engine

/-- The fault with which a run ended, if it failed. -/
def Outcome.fault? {α : Type} : Outcome α → Option Fault
  | .ok _ _ => none
  | .error failure _ => some failure.fault

/-- The value of a result that is no error, with the state. -/
def value? {ε σ α : Type} : EStateM.Result ε σ α → Option (α × σ)
  | .ok a state => some (a, state)
  | .error _ _ => none

/-- `value?` is there exactly after a success. -/
theorem value?_eq_some_iff {ε σ α : Type} {result : EStateM.Result ε σ α} {p : α × σ} :
    value? result = some p ↔ result = .ok p.1 p.2 := by
  cases result <;> simp [value?, Prod.ext_iff]

/-- The error of a result that is one. -/
def error? {ε σ α : Type} : EStateM.Result ε σ α → Option ε
  | .ok _ _ => none
  | .error e _ => some e

/-- `error?` is there exactly after a failure. -/
theorem error?_eq_some_iff {ε σ α : Type} {result : EStateM.Result ε σ α} {e : ε} :
    error? result = some e ↔ ∃ state, result = .error e state := by
  cases result <;> simp [error?]

/-- `runFrom` gives one outcome with all bounds that are large enough. -/
theorem Engine.runFrom_unique {program : Program} {m n : Nat} {a : Address} {engine : Engine}
    {one other : Outcome Unit} (hone : runFrom program m a engine = some one)
    (hother : runFrom program n a engine = some other) : one = other := by
  have hm := runFrom_mono (Nat.le_max_left m n) hone
  rw [runFrom_mono (Nat.le_max_right m n) hother] at hm
  exact (Option.some.inj hm).symm

/-- What `execute` keeps at every line of a program holds where `runFrom` ends, and if it fails,
where the failing line is met. -/
theorem Engine.runFrom_cases {program : Program} {P : Address → Engine → Prop}
    (hstep : ∀ {line : Line} {a next : Address} {engine after : Engine},
      program.line? a = some line → P a engine → execute line a engine = .ok next after →
        P (next + 1) after)
    {fuel : Nat} {a : Address} {engine : Engine} {outcome : Outcome Unit} (h : P a engine)
    (hr : runFrom program fuel a engine = some outcome) :
    (∃ b last, outcome = .ok () last ∧ program.line? b = none ∧ P b last) ∨
      ∃ (b : Address) (line : Line) (before last : Engine) (fault : Fault),
        program.line? b = some line ∧ P b before ∧
        execute line b before = .error (fault.stop b) last ∧
        outcome = .error ⟨fault, some (.of b line)⟩ last := by
  induction fuel generalizing a engine with
  | zero => simp [runFrom] at hr
  | succ fuel ih =>
    rw [runFrom] at hr
    cases hl : program.line? a with
    | none =>
      simp only [hl] at hr
      exact .inl ⟨a, engine, (Option.some.inj hr).symm, hl, h⟩
    | some line =>
      simp only [hl] at hr
      cases he : execute line a engine with
      | ok next after =>
        simp only [he] at hr
        exact ih (hstep hl h he) hr
      | error stop after =>
        simp only [he] at hr
        obtain ⟨fault, rfl, -⟩ := execute_eq_error_iff.1 he
        exact .inr ⟨a, line, engine, after, fault, hl, h, he, (Option.some.inj hr).symm⟩

end Sketch
