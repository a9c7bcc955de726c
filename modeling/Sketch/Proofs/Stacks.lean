import Sketch.Action

/-!
# Stacks and actions as equations

A push that has room and a pop that finds an entry are inverse to each other. `Stack.cons` is the
push without a bound, and the laws below turn pushes, pops and looks at the top into equations with
`cons`. The second half does the same for actions: how an action ends is split into how its parts
end, so that a line is read off as a conjunction of checks and changes.
-/

namespace Sketch

namespace Stack

variable {α : Type}

/-- The height of a stack with one more entry. -/
theorem height_succ_eq (a : α) (s : Stack α) : s.height + 1 = (a :: s.entries).length :=
  congrArg (· + 1) s.height_eq

/-- The stack with one more entry, whatever its height. -/
def cons (a : α) (s : Stack α) : Stack α :=
  ⟨a :: s.entries, s.height + 1, height_succ_eq a s⟩

@[simp] theorem entries_cons (a : α) (s : Stack α) : (s.cons a).entries = a :: s.entries := rfl

@[simp] theorem height_cons (a : α) (s : Stack α) : (s.cons a).height = s.height + 1 := rfl

@[simp] theorem top?_cons (a : α) (s : Stack α) : (s.cons a).top? = some a := rfl

@[simp] theorem top?_empty : (empty : Stack α).top? = none := rfl

@[simp] theorem pop_cons (a : α) (s : Stack α) : (s.cons a).pop = .ok (a, s) :=
  pop_eq_ok_iff.2 rfl

@[simp] theorem pop_empty : (empty : Stack α).pop = .error .underflow := rfl

@[simp] theorem setTop_cons (a b : α) (s : Stack α) : (s.cons b).setTop a = s.cons a :=
  ext_entries (entries_setTop rfl)

/-- `cons` determines the newest entry and the rest. -/
@[simp] theorem cons_inj {a b : α} {s t : Stack α} : s.cons a = t.cons b ↔ a = b ∧ s = t := by
  constructor
  · intro h
    have he := congrArg Stack.entries h
    simp only [entries_cons, List.cons.injEq] at he
    exact ⟨he.1, ext_entries he.2⟩
  · rintro ⟨rfl, rfl⟩
    rfl

@[simp] theorem empty_ne_cons {a : α} {s : Stack α} : (empty : Stack α) ≠ s.cons a := by
  intro h
  simpa using congrArg Stack.entries h

/-- A stack is `empty` or a `cons`. -/
theorem eq_empty_or_cons (s : Stack α) : s = empty ∨ ∃ a t, s = cons a t := by
  rcases hs : s.entries with _ | ⟨a, rest⟩
  · exact .inl (ext_entries (by simp [hs]))
  · exact .inr ⟨a, ofEntries rest, ext_entries (by simp [hs])⟩

/-- `top?` is the newest entry of a `cons`. -/
theorem top?_eq_some_iff {a : α} {s : Stack α} : s.top? = some a ↔ ∃ t, s = cons a t := by
  rcases eq_empty_or_cons s with rfl | ⟨b, t, rfl⟩
  · simp
  · simp [eq_comm]

/-- Only the empty stack has no entries. -/
theorem entries_eq_nil_iff {s : Stack α} : s.entries = [] ↔ s = empty :=
  ⟨fun h => ext_entries h, fun h => by simp [h]⟩

/-- A stack is higher than one that is below some of its entries. -/
theorem height_lt_of_entries_eq {a : α} {upper : List α} {s t : Stack α}
    (h : s.entries = upper ++ a :: t.entries) : t.height < s.height := by
  rw [s.height_eq, t.height_eq, h, List.length_append, List.length_cons]
  omega

/-- A push succeeds exactly if there is room, and then it is `cons`. -/
theorem push_iff_cons {bound : Bound} {a : α} {s t : Stack α} :
    s.push bound a = .ok t ↔ s.height < bound.size ∧ t = s.cons a := by
  rw [push_eq_ok_iff]
  exact and_congr_right fun _ => ⟨fun h => ext_entries h, fun h => by simp [h]⟩

/-- `pop` fails exactly on the empty stack, with `underflow`. -/
theorem pop_error_iff_empty {s : Stack α} {fault : Fault} :
    s.pop = .error fault ↔ s = empty ∧ fault = .underflow := by
  rw [pop_eq_error_iff, entries_eq_nil_iff]

end Stack

/-! ## How an action ends -/

namespace Action

section Sequence

variable {ε σ α β : Type} {state after : σ} {e : ε} {x y : EStateM ε σ α} {f : α → EStateM ε σ β}

/-- A bind succeeds exactly if both of its parts do, the second from the state after the first. -/
theorem bind_eq_ok_iff {b : β} :
    (x >>= f) state = .ok b after ↔
      ∃ a between, x state = .ok a between ∧ f a between = .ok b after := by
  show EStateM.bind x f state = _ ↔ _
  unfold EStateM.bind
  cases x state with
  | error e between => simp
  | ok a between => simp [and_assoc]

/-- A bind fails in its first part, or in its second after a success of the first. -/
theorem bind_eq_error_iff :
    (x >>= f) state = .error e after ↔
      x state = .error e after ∨
        ∃ a between, x state = .ok a between ∧ f a between = .error e after := by
  show EStateM.bind x f state = _ ↔ _
  unfold EStateM.bind
  cases x state with
  | error e between => simp
  | ok a between => simp [and_assoc]

/-- After a step that succeeds, the rest goes on from where it ended. -/
theorem bind_of_ok {a : α} (h : x state = .ok a after) : (x >>= f) state = f a after := by
  show EStateM.bind x f state = _
  simp [EStateM.bind, h]

/-- A step that fails ends the whole. -/
theorem bind_of_error (h : x state = .error e after) : (x >>= f) state = .error e after := by
  show EStateM.bind x f state = _
  simp [EStateM.bind, h]

/-- A bind depends on its first part only by how that ends. -/
theorem bind_congr (h : x state = y state) : (x >>= f) state = (y >>= f) state := by
  show EStateM.bind x f state = EStateM.bind y f state
  simp only [EStateM.bind, h]

/-- What comes after `get` has the state. -/
theorem get_bind {f : σ → EStateM ε σ β} : (get >>= f) state = f state state := rfl

/-- `pure` gives its value and leaves the state alone. -/
theorem pure_eq_ok_iff {a b : α} :
    (pure a : EStateM ε σ α) state = .ok b after ↔ a = b ∧ state = after := by
  show EStateM.Result.ok a state = _ ↔ _
  simp

end Sequence

variable {α β σ : Type} {store after : Store} {fault : Fault}

/-- `attempt` succeeds exactly as its step does. -/
theorem attempt_eq_ok_iff {step : Store → Except Fault (α × Store)} {a : α} :
    attempt step store = .ok a after ↔ step store = .ok (a, after) := by
  unfold attempt
  rcases step store with fault | ⟨b, between⟩
  · simp
  · simp

/-- `attempt` raises the fault of its step without a place and leaves the store alone. -/
theorem attempt_eq_error_iff {step : Store → Except Fault (α × Store)} :
    attempt step store = .error (.ofFault fault) after ↔
      step store = .error fault ∧ after = store := by
  unfold attempt
  rcases step store with fault | ⟨b, between⟩
  · simp [Failure.ofFault, eq_comm]
  · simp

/-- `inspect` gives what it sees and leaves the store alone. -/
theorem inspect_eq_ok_iff {view : Store → Except Fault α} {a : α} :
    inspect view store = .ok a after ↔ view store = .ok a ∧ after = store := by
  rw [inspect, attempt_eq_ok_iff]
  cases view store <;> simp [Except.map, eq_comm]

/-- `inspect` raises the fault of its view and leaves the store alone. -/
theorem inspect_eq_error_iff {view : Store → Except Fault α} :
    inspect view store = .error (.ofFault fault) after ↔
      view store = .error fault ∧ after = store := by
  rw [inspect, attempt_eq_error_iff]
  cases view store <;> simp [Except.map]

/-- `inspect` depends only on what its view gives in this store. -/
theorem inspect_congr {view other : Store → Except Fault α} (h : view store = other store) :
    inspect view store = inspect other store := by
  rw [inspect, inspect, attempt, attempt, h]

/-- `check` gives its result and leaves the store alone. -/
theorem check_eq_ok_iff {result : Except Fault α} {a : α} :
    check result store = .ok a after ↔ result = .ok a ∧ after = store :=
  inspect_eq_ok_iff

/-- `check` raises its fault and leaves the store alone. -/
theorem check_eq_error_iff {result : Except Fault α} :
    check result store = .error (.ofFault fault) after ↔ result = .error fault ∧ after = store :=
  inspect_eq_error_iff

/-- `onVariables` changes the variables and nothing else. -/
theorem onVariables_eq_ok_iff {change : Variables → Except Fault Variables} {u : Unit} :
    onVariables change store = .ok u after ↔
      ∃ vars, change store.vars = .ok vars ∧ after = { store with vars } := by
  rw [onVariables, attempt_eq_ok_iff]
  cases change store.vars <;> simp [Except.map, eq_comm]

/-- `onVariables` raises the fault of its change and leaves the store alone. -/
theorem onVariables_eq_error_iff {change : Variables → Except Fault Variables} :
    onVariables change store = .error (.ofFault fault) after ↔
      change store.vars = .error fault ∧ after = store := by
  rw [onVariables, attempt_eq_error_iff]
  cases change store.vars <;> simp [Except.map]

/-- `onMethods` changes the methods and nothing else. -/
theorem onMethods_eq_ok_iff {change : Methods → Except Fault Methods} {u : Unit} :
    onMethods change store = .ok u after ↔
      ∃ methods, change store.methods = .ok methods ∧ after = { store with methods } := by
  rw [onMethods, attempt_eq_ok_iff]
  cases change store.methods <;> simp [Except.map, eq_comm]

/-- `onMethods` raises the fault of its change and leaves the store alone. -/
theorem onMethods_eq_error_iff {change : Methods → Except Fault Methods} :
    onMethods change store = .error (.ofFault fault) after ↔
      change store.methods = .error fault ∧ after = store := by
  rw [onMethods, attempt_eq_error_iff]
  cases change store.methods <;> simp [Except.map]

/-- `onFlow` changes the flow and nothing else. -/
theorem onFlow_eq_ok_iff {change : Flow → Except Fault Flow} {u : Unit} :
    onFlow change store = .ok u after ↔
      ∃ flow, change store.flow = .ok flow ∧ after = { store with flow } := by
  rw [onFlow, attempt_eq_ok_iff]
  cases change store.flow <;> simp [Except.map, eq_comm]

/-- `onFlow` raises the fault of its change and leaves the store alone. -/
theorem onFlow_eq_error_iff {change : Flow → Except Fault Flow} :
    onFlow change store = .error (.ofFault fault) after ↔
      change store.flow = .error fault ∧ after = store := by
  rw [onFlow, attempt_eq_error_iff]
  cases change store.flow <;> simp [Except.map]

/-- `takeFlow` changes the flow and nothing else, and gives what was taken. -/
theorem takeFlow_eq_ok_iff {change : Flow → Except Fault (α × Flow)} {a : α} :
    takeFlow change store = .ok a after ↔
      ∃ flow, change store.flow = .ok (a, flow) ∧ after = { store with flow } := by
  rw [takeFlow, attempt_eq_ok_iff]
  rcases change store.flow with fault | ⟨b, flow⟩
  · simp [Except.map]
  · simp only [Except.map, Except.ok.injEq, Prod.mk.injEq]
    constructor
    · rintro ⟨rfl, rfl⟩
      exact ⟨flow, ⟨rfl, rfl⟩, rfl⟩
    · rintro ⟨_, ⟨rfl, rfl⟩, rfl⟩
      exact ⟨rfl, rfl⟩

/-- `takeFlow` raises the fault of its change and leaves the store alone. -/
theorem takeFlow_eq_error_iff {change : Flow → Except Fault (α × Flow)} :
    takeFlow change store = .error (.ofFault fault) after ↔
      change store.flow = .error fault ∧ after = store := by
  rw [takeFlow, attempt_eq_error_iff]
  cases change store.flow <;> simp [Except.map]

/-! ### Failures without a place -/

/-- Every failure of the action or move is a `Failure.ofFault`. -/
def Unplaced (x : EStateM Failure σ α) : Prop :=
  ∀ state failure after, x state = .error failure after → ∃ fault, failure = .ofFault fault

/-- What does not fail is `Unplaced`. -/
theorem unplaced_pure (a : α) : Unplaced (pure a : EStateM Failure σ α) := by
  intro state failure after h
  cases h

/-- A bind is `Unplaced` if its parts are. -/
theorem Unplaced.bind {x : EStateM Failure σ α} {f : α → EStateM Failure σ β} (hx : Unplaced x)
    (hf : ∀ a, Unplaced (f a)) : Unplaced (x >>= f) := by
  intro state failure after h
  rcases bind_eq_error_iff.1 h with h | ⟨a, between, -, h⟩
  · exact hx state failure after h
  · exact hf a between failure after h

/-- What `attempt` raises has no place, and so has what the actions raise that are made from it. -/
theorem unplaced_attempt (step : Store → Except Fault (α × Store)) : Unplaced (attempt step) := by
  intro state failure after h
  unfold attempt at h
  split at h
  · cases h
  · next fault _ =>
    cases h
    exact ⟨fault, rfl⟩

end Action

/-! ## How a move ends -/

namespace Move

variable {α : Type} {store after : Store} {cursor : Address} {x : Action α}

/-- An `Action` that succeeds leaves the cursor where it is. -/
theorem lift_of_ok {a : α} (h : x store = .ok a after) :
    (liftM x : Move α) ⟨store, cursor⟩ = .ok a ⟨after, cursor⟩ := by
  show onStore x ⟨store, cursor⟩ = _
  simp [onStore, h]

/-- An `Action` that fails leaves the cursor where it is. -/
theorem lift_of_error {failure : Failure} (h : x store = .error failure after) :
    (liftM x : Move α) ⟨store, cursor⟩ = .error failure ⟨after, cursor⟩ := by
  show onStore x ⟨store, cursor⟩ = _
  simp [onStore, h]

/-- Actions that end alike do so as moves. -/
theorem lift_congr {y : Action α} (h : x store = y store) :
    (liftM x : Move α) ⟨store, cursor⟩ = (liftM y : Move α) ⟨store, cursor⟩ := by
  show onStore x ⟨store, cursor⟩ = onStore y ⟨store, cursor⟩
  simp [onStore, h]

end Move

end Sketch
