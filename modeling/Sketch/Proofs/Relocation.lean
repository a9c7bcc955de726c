import Mathlib.Data.List.Forall2
import Sketch.Proofs.Names

/-!
# Lines at other addresses

Little depends on the address of a line. A header compares it with the start of the method of its
name; a loop, a call and a method keep it and give it back. So take two stores that are alike except
for their addresses, and let these go with each other one to one (`Store.Moved`). A line does the
same to both, and this is shown of actions and moves one by one (`Action.Tracks`, `Move.Tracks`):
what is put together from parts that keep up with each other keeps up (`Follows.bind`). Main
statements: `Store.execute_tracks` for the execution of a line, `Store.declare_tracks` for a line of
a dry run.
-/

namespace Sketch

/-! ## Stores with other addresses -/

/-- Addresses that go with addresses in another program, one with one. -/
structure Pairing where
  Pairs : Address → Address → Prop
  eq_iff : ∀ {a a' b b' : Address}, Pairs a a' → Pairs b b' → (a = b ↔ a' = b')

/-- The next line is the one after an address, or it is that of a loop that starts again. -/
def Pairing.Lands (pairing : Pairing) (next next' : Address) : Prop :=
  pairing.Pairs next next' ∨ pairing.Pairs (next + 1) (next' + 1)

structure Method.Moved (pairing : Pairing) (method other : Method) : Prop where
  parameters : other.parameters = method.parameters
  start : pairing.Pairs method.start other.start
  finish : Option.Rel pairing.Pairs method.finish other.finish

structure Methods.Moved (pairing : Pairing) (methods others : Methods) : Prop where
  size : others.size = methods.size
  find? : ∀ name, Option.Rel (Method.Moved pairing) (methods.find? name) (others.find? name)

structure Call.Moved (pairing : Pairing) (call other : Call) : Prop where
  method : other.method = call.method
  returnTo : pairing.Pairs call.returnTo other.returnTo

structure Flow.Moved (pairing : Pairing) (flow other : Flow) : Prop where
  frames : other.frames = flow.frames
  loops : List.Forall₂ (Option.Rel pairing.Pairs) flow.loops.entries other.loops.entries
  calls : List.Forall₂ (Call.Moved pairing) flow.calls.entries other.calls.entries
  definitions : other.definitions = flow.definitions

/-- The stores have the same variables, methods and open blocks. The addresses of methods, loops and
calls go with each other. -/
structure Store.Moved (pairing : Pairing) (store other : Store) : Prop where
  vars : other.vars = store.vars
  methods : store.methods.Moved pairing other.methods
  flow : store.flow.Moved pairing other.flow

/-- The stores differ in their addresses only, and the cursors go with each other. -/
structure Site.Moved (pairing : Pairing) (site other : Site) : Prop where
  store : site.store.Moved pairing other.store
  cursor : pairing.Pairs site.cursor other.cursor

/-- The stores differ in their addresses only, and the lines that come next go with each other. -/
structure Site.Lands (pairing : Pairing) (site other : Site) : Prop where
  store : site.store.Moved pairing other.store
  cursor : pairing.Lands site.cursor other.cursor

/-- A site that is `Moved` also `Lands`: cursors that go with each other have next lines that do. -/
theorem Site.Moved.lands {pairing : Pairing} {site other : Site} (h : site.Moved pairing other) :
    site.Lands pairing other :=
  ⟨h.store, .inl h.cursor⟩

/-- The empty store is `Moved` to itself. -/
theorem Store.Moved.empty (pairing : Pairing) : Store.Moved pairing .empty .empty where
  vars := rfl
  methods := ⟨rfl, fun name => by simp [Store.empty, Methods.empty, Methods.find?]⟩
  flow := ⟨rfl, .nil, .nil, rfl⟩

/-! ## Checks -/

variable {α β γ δ : Type} {R : α → β → Prop} {S : γ → δ → Prop}

/-- Two checks come to values that are related, or to the same fault. -/
inductive Corresponds (R : α → β → Prop) : Except Fault α → Except Fault β → Prop where
  | ok {a : α} {b : β} (h : R a b) : Corresponds R (.ok a) (.ok b)
  | error (fault : Fault) : Corresponds R (.error fault) (.error fault)

namespace Corresponds

/-- A result corresponds to itself. -/
theorem refl (x : Except Fault α) : Corresponds Eq x x := by
  cases x with
  | ok a => exact .ok rfl
  | error fault => exact .error fault

/-- `Corresponds` is kept by mapping with related functions. -/
theorem map {x : Except Fault α} {y : Except Fault β} {f : α → γ} {g : β → δ}
    (h : Corresponds R x y) (hf : ∀ a b, R a b → S (f a) (g b)) :
    Corresponds S (x.map f) (y.map g) := by
  cases h with
  | ok h => exact .ok (hf _ _ h)
  | error fault => exact .error fault

/-- `Corresponds` is kept by binds whose second parts correspond on related values. -/
theorem bind {x : Except Fault α} {y : Except Fault β} {f : α → Except Fault γ}
    {g : β → Except Fault δ} (h : Corresponds R x y)
    (hf : ∀ a b, R a b → Corresponds S (f a) (g b)) : Corresponds S (x >>= f) (y >>= g) := by
  cases h with
  | ok h => exact hf _ _ h
  | error fault => exact .error fault

end Corresponds

namespace Stack

variable {s : Stack α} {t : Stack β}

/-- Pushes of related entries on stacks of one height are in `Corresponds`. -/
theorem corresponds_push {a : α} {b : β} (bound : Bound) (hs : List.Forall₂ R s.entries t.entries)
    (h : R a b) :
    Corresponds (fun s t : Stack _ => List.Forall₂ R s.entries t.entries) (s.push bound a)
      (t.push bound b) := by
  have hheight : s.height = t.height := by rw [s.height_eq, t.height_eq, hs.length_eq]
  by_cases hroom : s.height < bound.size
  · rw [push_iff_cons.2 ⟨hroom, rfl⟩, push_iff_cons.2 ⟨hheight ▸ hroom, rfl⟩]
    exact .ok (.cons h hs)
  · have hfull := Nat.le_of_not_lt hroom
    rw [push_eq_error_iff.2 ⟨hfull, rfl⟩, push_eq_error_iff.2 ⟨hheight ▸ hfull, rfl⟩]
    exact .error _

/-- Pops of stacks with related entries are in `Corresponds`. -/
theorem corresponds_pop (hs : List.Forall₂ R s.entries t.entries) :
    Corresponds (fun p q : _ × Stack _ => R p.1 q.1 ∧ List.Forall₂ R p.2.entries q.2.entries) s.pop
      t.pop := by
  rcases s with ⟨_ | ⟨a, _⟩, _, _⟩ <;> rcases t with ⟨_ | ⟨b, _⟩, _, _⟩ <;> cases hs
  · exact .error _
  · next h hrest => exact .ok ⟨h, hrest⟩

end Stack

variable {pairing : Pairing} {store other : Store} {cursor cursor' : Address}

namespace Flow.Moved

variable {flow flow' : Flow} {rewind rewind' : Option Address} {call call' : Call}

/-- `Flow.Moved` keeps whether a block is skipped. -/
theorem suspended (h : flow.Moved pairing flow') : flow'.suspended = flow.suspended := by
  unfold Flow.suspended Flow.top?
  rw [h.frames]

/-- `Flow.Moved` is kept by `push`. -/
theorem push (h : flow.Moved pairing flow') (frame : Frame) :
    Corresponds (Flow.Moved pairing) (flow.push frame) (flow'.push frame) := by
  unfold Flow.push
  rw [h.frames]
  exact (Corresponds.refl _).map fun frames _ heq => ⟨heq.symm, h.loops, h.calls, h.definitions⟩

/-- `Flow.Moved` is kept by `pop`, which takes the same frame from both. -/
theorem pop (h : flow.Moved pairing flow') :
    Corresponds (fun p q => p.1 = q.1 ∧ p.2.Moved pairing q.2) flow.pop flow'.pop := by
  unfold Flow.pop
  rw [h.frames]
  refine (Corresponds.refl _).map ?_
  rintro ⟨frame, frames⟩ _ rfl
  exact ⟨rfl, rfl, h.loops, h.calls, h.definitions⟩

/-- `Flow.Moved` is kept by `popIf`, which takes the same frame from both or none. -/
theorem popIf (h : flow.Moved pairing flow') (construct : Construct) :
    Corresponds (fun p q => p.1 = q.1 ∧ p.2.Moved pairing q.2) (flow.popIf construct)
      (flow'.popIf construct) := by
  have htop : flow'.top? = flow.top? := congrArg Stack.top? h.frames
  unfold Flow.popIf
  rw [htop]
  split
  · split
    · exact h.pop.map fun _ _ ⟨hframe, hrest⟩ => ⟨congrArg some hframe, hrest⟩
    · exact .ok ⟨rfl, h⟩
  · exact .ok ⟨rfl, h⟩

/-- `Flow.Moved` is kept when paired headers are pushed. -/
theorem pushLoop (h : flow.Moved pairing flow') (hr : Option.Rel pairing.Pairs rewind rewind') :
    Corresponds (Flow.Moved pairing) (flow.pushLoop rewind) (flow'.pushLoop rewind') :=
  (Stack.corresponds_push loopBound h.loops hr).map fun _ _ hloops =>
    ⟨h.frames, hloops, h.calls, h.definitions⟩

/-- `Flow.Moved` is kept by `popLoop`, which takes paired headers. -/
theorem popLoop (h : flow.Moved pairing flow') :
    Corresponds (fun p q => Option.Rel pairing.Pairs p.1 q.1 ∧ p.2.Moved pairing q.2) flow.popLoop
      flow'.popLoop :=
  (Stack.corresponds_pop h.loops).map fun _ _ ⟨hr, hloops⟩ =>
    ⟨hr, h.frames, hloops, h.calls, h.definitions⟩

/-- `Flow.Moved` is kept when calls with paired addresses are pushed. -/
theorem pushCall (h : flow.Moved pairing flow') (hc : call.Moved pairing call') :
    Corresponds (Flow.Moved pairing) (flow.pushCall call) (flow'.pushCall call') :=
  (Stack.corresponds_push callBound h.calls hc).map fun _ _ hcalls =>
    ⟨h.frames, h.loops, hcalls, h.definitions⟩

/-- `Flow.Moved` is kept by `popCall`, which takes calls with paired addresses. -/
theorem popCall (h : flow.Moved pairing flow') :
    Corresponds (fun p q => p.1.Moved pairing q.1 ∧ p.2.Moved pairing q.2) flow.popCall
      flow'.popCall :=
  (Stack.corresponds_pop h.calls).map fun _ _ ⟨hc, hcalls⟩ =>
    ⟨hc, h.frames, h.loops, hcalls, h.definitions⟩

/-- `Flow.Moved` is kept by `beginDefinition`. -/
theorem beginDefinition (h : flow.Moved pairing flow') (name : String) :
    Corresponds (Flow.Moved pairing) (flow.beginDefinition name) (flow'.beginDefinition name) := by
  unfold Flow.beginDefinition
  rw [h.definitions]
  exact (Corresponds.refl _).map fun definitions _ heq => ⟨h.frames, h.loops, h.calls, heq.symm⟩

/-- `Flow.Moved` is kept by `endDefinition`, which takes the same name from both. -/
theorem endDefinition (h : flow.Moved pairing flow') :
    flow.endDefinition.1 = flow'.endDefinition.1 ∧
      flow.endDefinition.2.Moved pairing flow'.endDefinition.2 := by
  unfold Flow.endDefinition
  rw [h.definitions]
  split
  · exact ⟨rfl, h.frames, h.loops, h.calls, rfl⟩
  · exact ⟨rfl, h⟩

end Flow.Moved

namespace Methods.Moved

variable {methods methods' : Methods} {name : String} {method method' : Method}

/-- `Methods.Moved` is kept when methods with paired addresses are put in under one name. -/
theorem table_insert (h : methods.Moved pairing methods') (hm : method.Moved pairing method') :
    Methods.Moved pairing ⟨methods.table.insert name method⟩
      ⟨methods'.table.insert name method'⟩ where
  size := by
    have hknown : methods'.table[name]?.isSome = methods.table[name]?.isSome := by
      have hfound := h.find? name
      unfold Methods.find? at hfound
      generalize methods.table[name]? = found, methods'.table[name]? = found' at hfound ⊢
      cases hfound <;> rfl
    have hsize : methods'.table.size = methods.table.size := h.size
    unfold Methods.size
    rw [Std.ExtTreeMap.size_insert, Std.ExtTreeMap.size_insert,
      Std.ExtTreeMap.contains_eq_isSome_getElem?, Std.ExtTreeMap.contains_eq_isSome_getElem?,
      hknown, hsize]
  find? := by
    intro other
    simp only [Methods.find?, Std.ExtTreeMap.getElem?_insert, Std.compare_eq_iff_eq]
    split
    · exact .some hm
    · exact h.find? other

/-- `Methods.Moved` is kept by `insert`, and the bound is met by both tables or by none. -/
theorem insert (h : methods.Moved pairing methods') (hm : method.Moved pairing method') :
    Corresponds (Methods.Moved pairing) (methods.insert name method)
      (methods'.insert name method') := by
  have hsize : methods'.table.size = methods.table.size := h.size
  unfold Methods.insert
  rw [hsize]
  split
  · exact .ok (h.table_insert hm)
  · exact .error _

/-- `Methods.Moved` is kept when the end of a method is noted at paired addresses. -/
theorem close (h : methods.Moved pairing methods') (hp : pairing.Pairs cursor cursor') :
    (methods.close name cursor).Moved pairing (methods'.close name cursor') := by
  have hfound := h.find? name
  unfold Methods.find? at hfound
  unfold Methods.close
  generalize methods.table[name]? = found, methods'.table[name]? = found' at hfound
  cases hfound with
  | none => exact h
  | some hm => exact h.table_insert ⟨hm.parameters, hm.start, .some hp⟩

/-- `checkUndefined` compares the address of a header with the start of the method, and both are
paired. -/
theorem checkUndefined_eq (h : methods.Moved pairing methods')
    (hp : pairing.Pairs cursor cursor') :
    Store.checkUndefined methods' name cursor' = Store.checkUndefined methods name cursor := by
  have hfound := h.find? name
  unfold Store.checkUndefined
  generalize methods.find? name = found, methods'.find? name = found' at hfound
  cases hfound with
  | none => rfl
  | some hm => simp only [pairing.eq_iff hm.start hp]

/-- `Methods.Moved` is kept by `register` at paired addresses. -/
theorem register (h : methods.Moved pairing methods') (hp : pairing.Pairs cursor cursor')
    (signature : Bracketed) :
    Corresponds (Methods.Moved pairing) (Store.register methods signature cursor)
      (Store.register methods' signature cursor') := by
  have hfound := h.find? signature.head
  unfold Store.register
  generalize methods.find? signature.head = found, methods'.find? signature.head = found'
    at hfound
  cases hfound with
  | none => exact h.insert ⟨rfl, hp, .none⟩
  | some _ => exact .ok h

end Methods.Moved

structure Invocation.Moved (pairing : Pairing) (invocation other : Invocation) : Prop where
  name : other.name = invocation.name
  method : invocation.method.Moved pairing other.method
  values : other.values = invocation.values

/-- Invocations that are `Moved` open the same scope. -/
theorem Invocation.Moved.scope_eq {invocation other : Invocation}
    (h : invocation.Moved pairing other) : other.scope = invocation.scope := by
  unfold Invocation.scope
  rw [h.method.parameters, h.values]

namespace Store.Moved

variable {tokens : List String}

/-- `resolve` looks at no address. -/
theorem resolve_eq (h : store.Moved pairing other) : other.resolve = store.resolve := by
  unfold Store.resolve
  rw [h.vars]

/-- `classify` looks at no address. -/
theorem classify_eq (h : store.Moved pairing other) : other.classify = store.classify := by
  unfold Store.classify
  rw [h.vars]

/-- `interpret` looks at no address. -/
theorem interpret (h : store.Moved pairing other) :
    Corresponds Eq (store.interpret tokens) (other.interpret tokens) := by
  unfold Store.interpret Store.substitute Store.substituteToken
  rw [h.classify_eq, h.resolve_eq]
  exact .refl _

/-- `readHeader` at paired addresses gives the same. -/
theorem readHeader (h : store.Moved pairing other) (hp : pairing.Pairs cursor cursor') :
    Corresponds Eq (store.readHeader tokens cursor) (other.readHeader tokens cursor') := by
  unfold Store.readHeader
  simp only [h.methods.checkUndefined_eq hp]
  exact .refl _

/-- `readCall` looks at no address. -/
theorem readCall (h : store.Moved pairing other) :
    Corresponds Eq (store.readCall tokens) (other.readCall tokens) := by
  unfold Store.readCall
  rw [h.resolve_eq]
  split
  · exact .error _
  · next call _ =>
    have hfound := h.methods.find? call.head
    generalize store.methods.find? call.head = found, other.methods.find? call.head = found'
      at hfound
    cases hfound with
    | none => exact .error _
    | some hm =>
      simp only [hm.parameters]
      exact .refl _

/-- `findCall` finds methods that are `Moved`. -/
theorem findCall (h : store.Moved pairing other) :
    Corresponds (Invocation.Moved pairing) (store.findCall tokens) (other.findCall tokens) := by
  refine h.readCall.bind ?_
  rintro request _ rfl
  have hfound := h.methods.find? request.name
  unfold Store.invoke
  generalize store.methods.find? request.name = found, other.methods.find? request.name = found'
    at hfound
  cases hfound with
  | none => exact .error _
  | some hm => exact .ok ⟨rfl, hm, rfl⟩

/-- `presumed` depends on the variables only. -/
theorem presumed (h : store.Moved pairing other) (assignment : Assignment) :
    Corresponds Eq (.ok (store.presumed assignment)) (.ok (other.presumed assignment)) := by
  unfold Store.presumed
  rw [h.vars]
  exact .ok rfl

/-- `checkCommand` looks at no address, except for a header, which is checked as if it stood at the
last one. -/
theorem checkCommand {command : Command} (h : store.Moved pairing other)
    (hc : command ≠ .keyword (.opens .method)) :
    Corresponds Eq (store.checkCommand command tokens) (other.checkCommand command tokens) := by
  unfold Store.checkCommand
  split
  · exact .refl _
  · exact h.readCall.map fun _ _ _ => rfl
  · exact absurd rfl hc
  · exact .refl _
  · exact .refl _
  · exact .refl _

end Store.Moved

/-! ## Actions and moves -/

section Follows

variable {σ : Type} {Before After : σ → σ → Prop} {x : EStateM Failure σ α}
  {y : EStateM Failure σ β}

/-- Two parts of a line come to related values and states, or to the same failure and states that
are related as before. -/
inductive Agrees (Before After : σ → σ → Prop) (R : α → β → Prop) :
    EStateM.Result Failure σ α → EStateM.Result Failure σ β → Prop where
  | ok {a : α} {b : β} {state other : σ} (h : R a b) (hs : After state other) :
      Agrees Before After R (.ok a state) (.ok b other)
  | error {state other : σ} (failure : Failure) (hs : Before state other) :
      Agrees Before After R (.error failure state) (.error failure other)

/-- From related states, two parts of a line agree. -/
def Follows (Before After : σ → σ → Prop) (R : α → β → Prop) (x : EStateM Failure σ α)
    (y : EStateM Failure σ β) : Prop :=
  ∀ state other, Before state other → Agrees Before After R (x state) (y other)

/-- `Follows` holds of related values. -/
theorem follows_pure {a : α} {b : β} (h : R a b) :
    Follows Before Before R (pure a) (pure b) :=
  fun _ _ hs => .ok h hs

/-- `Follows` holds of `get` with related states. -/
theorem follows_get : Follows Before Before Before get get :=
  fun _ _ hs => .ok hs hs

/-- `Follows` is kept by `bind`. -/
theorem Follows.bind {f : α → EStateM Failure σ γ} {g : β → EStateM Failure σ δ}
    (h : Follows Before Before R x y) (hf : ∀ a b, R a b → Follows Before After S (f a) (g b)) :
    Follows Before After S (x >>= f) (y >>= g) := by
  intro state other hs
  have hagrees := h state other hs
  cases hx : x state <;> cases hy : y other <;> rw [hx, hy] at hagrees <;> cases hagrees
  · next hr hs =>
    rw [Action.bind_of_ok hx, Action.bind_of_ok hy]
    exact hf _ _ hr _ _ hs
  · next hs =>
    rw [Action.bind_of_error hx, Action.bind_of_error hy]
    exact .error _ hs

/-- `Follows` is monotone in what holds of the states in the end. -/
theorem Follows.mono {Later : σ → σ → Prop} (h : Follows Before After R x y)
    (hs : ∀ state other, After state other → Later state other) : Follows Before Later R x y := by
  intro state other hstate
  have hagrees := h state other hstate
  generalize x state = result, y other = result' at hagrees ⊢
  cases hagrees with
  | ok hab hafter => exact .ok hab (hs _ _ hafter)
  | error failure hbefore => exact .error failure hbefore

end Follows

namespace Action

/-- From stores that differ in their addresses only, two actions come to such stores. -/
abbrev Tracks (pairing : Pairing) (R : α → β → Prop) (x : Action α) (y : Action β) : Prop :=
  Follows (Store.Moved pairing) (Store.Moved pairing) R x y

/-- `attempt` tracks `attempt` if their steps are in `Corresponds`. -/
theorem tracks_attempt {step : Store → Except Fault (α × Store)}
    {step' : Store → Except Fault (β × Store)}
    (h : ∀ store other, store.Moved pairing other →
      Corresponds (fun p q => R p.1 q.1 ∧ p.2.Moved pairing q.2) (step store) (step' other)) :
    Tracks pairing R (attempt step) (attempt step') := by
  intro store other hs
  have hresults := h store other hs
  unfold attempt
  generalize step store = result, step' other = result' at hresults
  cases hresults with
  | ok h => exact .ok h.1 h.2
  | error fault => exact .error _ hs

/-- `inspect` tracks `inspect` if what they see is in `Corresponds`. -/
theorem tracks_inspect {view : Store → Except Fault α} {view' : Store → Except Fault β}
    (h : ∀ store other, store.Moved pairing other → Corresponds R (view store) (view' other)) :
    Tracks pairing R (inspect view) (inspect view') :=
  tracks_attempt fun store other hs => (h store other hs).map fun _ _ hab => ⟨hab, hs⟩

/-- `check` tracks itself. -/
theorem tracks_check (result : Except Fault α) : Tracks pairing Eq (check result) (check result) :=
  tracks_inspect fun _ _ _ => .refl result

/-- `onVariables` tracks itself, since variables hold no addresses. -/
theorem tracks_onVariables (change : Variables → Except Fault Variables) :
    Tracks pairing Eq (onVariables change) (onVariables change) := by
  refine tracks_attempt fun store other hs => ?_
  rw [hs.vars]
  exact (Corresponds.refl _).map fun _ _ heq => ⟨rfl, heq.symm, hs.methods, hs.flow⟩

/-- `onMethods` tracks `onMethods` if the changes are in `Corresponds`. -/
theorem tracks_onMethods {change change' : Methods → Except Fault Methods}
    (h : ∀ methods methods', methods.Moved pairing methods' →
      Corresponds (Methods.Moved pairing) (change methods) (change' methods')) :
    Tracks pairing Eq (onMethods change) (onMethods change') :=
  tracks_attempt fun _ _ hs => (h _ _ hs.methods).map fun _ _ hm => ⟨rfl, hs.vars, hm, hs.flow⟩

/-- `onFlow` tracks `onFlow` if the changes are in `Corresponds`. -/
theorem tracks_onFlow {change change' : Flow → Except Fault Flow}
    (h : ∀ flow flow', flow.Moved pairing flow' →
      Corresponds (Flow.Moved pairing) (change flow) (change' flow')) :
    Tracks pairing Eq (onFlow change) (onFlow change') :=
  tracks_attempt fun _ _ hs => (h _ _ hs.flow).map fun _ _ hf => ⟨rfl, hs.vars, hs.methods, hf⟩

/-- `takeFlow` tracks `takeFlow` if what they take is in `Corresponds`. -/
theorem tracks_takeFlow {change : Flow → Except Fault (α × Flow)}
    {change' : Flow → Except Fault (β × Flow)}
    (h : ∀ flow flow', flow.Moved pairing flow' →
      Corresponds (fun p q => R p.1 q.1 ∧ p.2.Moved pairing q.2) (change flow) (change' flow')) :
    Tracks pairing R (takeFlow change) (takeFlow change') :=
  tracks_attempt fun _ _ hs => (h _ _ hs.flow).map fun _ _ hr =>
    ⟨hr.1, hs.vars, hs.methods, hr.2⟩

/-- `closeIf` tracks itself. -/
theorem tracks_closeIf (construct : Construct) :
    Tracks pairing Eq (closeIf construct) (closeIf construct) :=
  tracks_takeFlow fun _ _ h => h.popIf construct

/-- `endDefinition` tracks itself. -/
theorem tracks_endDefinition : Tracks pairing Eq endDefinition endDefinition :=
  tracks_takeFlow fun _ _ h => .ok h.endDefinition

end Action

namespace Move

variable {x : Action α} {y : Action β}

/-- From stores that differ in their addresses only and cursors that go with each other, two moves
come to such stores and to next lines that go with each other. -/
abbrev Tracks (pairing : Pairing) (R : α → β → Prop) (x : Move α) (y : Move β) : Prop :=
  Follows (Site.Moved pairing) (Site.Lands pairing) R x y

/-- An action that tracks another keeps the sites `Moved`, since it leaves the cursors alone. -/
theorem follows_lift (h : Action.Tracks pairing R x y) :
    Follows (Site.Moved pairing) (Site.Moved pairing) R (liftM x : Move α) (liftM y : Move β) := by
  intro site other hs
  have hagrees := h site.store other.store hs.store
  show Agrees _ _ R (onStore x site) (onStore y other)
  unfold onStore
  generalize x site.store = result, y other.store = result' at hagrees
  cases hagrees with
  | ok hab hstore => exact .ok hab ⟨hstore, hs.cursor⟩
  | error failure hstore => exact .error failure ⟨hstore, hs.cursor⟩

/-- `Action.Tracks` gives `Move.Tracks`. -/
theorem tracks_lift (h : Action.Tracks pairing R x y) :
    Tracks pairing R (liftM x : Move α) (liftM y : Move β) :=
  (follows_lift h).mono fun _ _ => Site.Moved.lands

/-- Related values track each other. -/
theorem tracks_pure {a : α} {b : β} (h : R a b) : Tracks pairing R (pure a) (pure b) :=
  (follows_pure h).mono fun _ _ => Site.Moved.lands

/-- `goTo` tracks `goTo` if the next lines go with each other. -/
theorem tracks_goTo {a a' : Address} (h : pairing.Lands a a') :
    Tracks pairing Eq (goTo a) (goTo a') :=
  fun _ _ hs => .ok rfl ⟨hs.store, h⟩

/-- After a move that may have left its line, only a `pure` keeps `Tracks`. -/
theorem Tracks.bind_pure {x : Move α} {y : Move β} {c : γ} {d : δ} (h : Tracks pairing R x y)
    (hcd : S c d) : Tracks pairing S (x >>= fun _ => pure c) (y >>= fun _ => pure d) := by
  intro site other hs
  have hagrees := h site other hs
  -- the sites need not be `Moved` any more after the move, so `Follows.bind` does not apply
  cases hx : x site <;> cases hy : y other <;> rw [hx, hy] at hagrees <;> cases hagrees
  · next hr hlands =>
    rw [Action.bind_of_ok hx, Action.bind_of_ok hy]
    exact .ok hcd hlands
  · next hmoved =>
    rw [Action.bind_of_error hx, Action.bind_of_error hy]
    exact .error _ hmoved

end Move

/-! ## Lines -/

namespace Store

open Sketch.Action

variable (tokens : List String)

/-- `openBranch` tracks itself. -/
theorem openBranch_tracks : Tracks pairing Eq (openBranch tokens) (openBranch tokens) := by
  refine (tracks_check _).bind ?_
  rintro condition _ rfl
  exact tracks_onFlow fun _ _ h => h.push _

/-- `closeBranch` tracks itself. -/
theorem closeBranch_tracks : Tracks pairing Eq (closeBranch tokens) (closeBranch tokens) :=
  (tracks_check _).bind fun _ _ _ => (tracks_closeIf _).bind fun _ _ _ => follows_pure rfl

/-- `openLoop` at paired addresses notes paired headers. -/
theorem openLoop_tracks (hp : pairing.Pairs cursor cursor') :
    Tracks pairing Eq (openLoop tokens cursor) (openLoop tokens cursor') := by
  refine (tracks_check _).bind ?_
  rintro condition _ rfl
  split
  · refine (tracks_onFlow fun _ _ h => h.push _).bind fun _ _ _ => ?_
    exact tracks_onFlow fun _ _ h => h.pushLoop (.some hp)
  · refine (tracks_onFlow fun _ _ h => h.push _).bind fun _ _ _ => ?_
    exact tracks_onFlow fun _ _ h => h.pushLoop .none

/-- `closeLoop` tracks itself. The line before the header need not have one that goes with it, but
the header has. -/
theorem closeLoop_tracks : Move.Tracks pairing Eq (closeLoop tokens) (closeLoop tokens) := by
  refine (Move.follows_lift (tracks_check _)).bind fun _ _ _ => ?_
  refine (Move.follows_lift (tracks_closeIf _)).bind ?_
  rintro closed _ rfl
  cases closed with
  | none => exact Move.tracks_pure rfl
  | some frame =>
    refine (Move.follows_lift (tracks_takeFlow fun _ _ h => h.popLoop)).bind ?_
    rintro _ _ (⟨hheader⟩ | _)
    · refine Move.tracks_goTo (.inr ?_)
      rwa [UInt64.sub_add_cancel, UInt64.sub_add_cancel]
    · exact Move.tracks_pure rfl

/-- `define` at paired addresses enters methods with paired addresses. -/
theorem define_tracks (hp : pairing.Pairs cursor cursor') :
    Tracks pairing Eq (define tokens cursor) (define tokens cursor') := by
  refine (tracks_inspect fun _ _ h => h.readHeader hp).bind ?_
  rintro signature _ rfl
  refine (tracks_onMethods fun _ _ h => h.register hp signature).bind fun _ _ _ => ?_
  refine (tracks_onFlow fun _ _ h => h.push _).bind fun _ _ _ => ?_
  exact tracks_onFlow fun _ _ h => h.beginDefinition _

/-- `call` tracks itself: the headers that it goes to are paired. -/
theorem call_tracks : Move.Tracks pairing Eq (call tokens) (call tokens) := by
  refine (Move.follows_lift (tracks_inspect fun _ _ h => h.findCall)).bind
    fun invocation other hi => ?_
  rw [hi.scope_eq]
  refine (Move.follows_lift (tracks_onVariables _)).bind fun _ _ _ => ?_
  -- the cursor is read while it is still at the line of the call
  refine follows_get.bind fun site site' hs => ?_
  have hcall : Call.Moved pairing ⟨invocation.name, site.cursor⟩ ⟨other.name, site'.cursor⟩ :=
    ⟨hi.name, hs.cursor⟩
  refine (Move.follows_lift (tracks_onFlow fun _ _ h => h.pushCall hcall)).bind fun _ _ _ => ?_
  refine (Move.follows_lift (tracks_onFlow fun _ _ h => h.push _)).bind fun _ _ _ => ?_
  exact Move.tracks_goTo (.inl hi.method.start)

/-- `returnFromCall` tracks itself: the addresses that it goes back to are paired. -/
theorem returnFromCall_tracks : Move.Tracks pairing Eq returnFromCall returnFromCall := by
  refine follows_get.bind fun site other hs => ?_
  have htop : other.store.flow.top? = site.store.flow.top? :=
    congrArg Stack.top? hs.store.flow.frames
  rw [htop]
  split
  · refine (Move.follows_lift (tracks_takeFlow fun _ _ h => h.pop)).bind fun _ _ _ => ?_
    refine (Move.follows_lift (tracks_takeFlow fun _ _ h => h.popCall)).bind fun call call' hc => ?_
    refine (Move.follows_lift (tracks_onVariables _)).bind fun _ _ _ => ?_
    exact Move.tracks_goTo (.inl hc.returnTo)
  · exact Move.tracks_pure rfl

/-- `closeMethod` tracks itself. -/
theorem closeMethod_tracks : Move.Tracks pairing Eq (closeMethod tokens) (closeMethod tokens) :=
  (Move.follows_lift (tracks_check _)).bind fun _ _ _ => returnFromCall_tracks

/-- `closeDefinition` tracks itself. -/
theorem closeDefinition_tracks : Move.Tracks pairing Eq closeDefinition closeDefinition := by
  refine (Move.follows_lift tracks_endDefinition).bind ?_
  rintro ended _ rfl
  cases ended with
  | none => exact returnFromCall_tracks
  | some name =>
    refine follows_get.bind fun site other hs => ?_
    refine (Move.follows_lift (tracks_onMethods fun _ _ h => .ok (h.close hs.cursor))).bind
      fun _ _ _ => ?_
    exact returnFromCall_tracks

/-- `closeSkipped` tracks itself. -/
theorem closeSkipped_tracks (construct : Construct) :
    Move.Tracks pairing Eq (closeSkipped construct) (closeSkipped construct) := by
  refine (Move.follows_lift (tracks_closeIf _)).bind ?_
  rintro closed _ rfl
  split
  · refine (Move.follows_lift (tracks_takeFlow fun _ _ h => h.popLoop)).bind fun _ _ _ => ?_
    exact Move.tracks_pure rfl
  · exact closeDefinition_tracks
  · exact Move.tracks_pure rfl

/-- `skip` tracks itself. -/
theorem skip_tracks : Move.Tracks pairing Eq (skip tokens) (skip tokens) := by
  refine follows_get.bind fun site other hs => ?_
  rw [hs.store.classify_eq]
  split
  · exact Move.tracks_lift (tracks_onFlow fun _ _ h => h.push _)
  · exact closeSkipped_tracks _
  · exact Move.tracks_pure rfl

/-- `assign` tracks itself. -/
theorem assign_tracks : Tracks pairing Eq (assign tokens) (assign tokens) := by
  refine (tracks_check _).bind ?_
  rintro assignment _ rfl
  refine (tracks_check _).bind ?_
  rintro value _ rfl
  exact tracks_onVariables _

/-- `openBlock` at paired addresses tracks itself. -/
theorem openBlock_tracks (construct : Construct) (hp : pairing.Pairs cursor cursor') :
    Tracks pairing Eq (openBlock construct tokens cursor) (openBlock construct tokens cursor') := by
  cases construct with
  | branch => exact openBranch_tracks tokens
  | loop => exact openLoop_tracks tokens hp
  | method => exact define_tracks tokens hp

/-- `closeBlock` tracks itself. -/
theorem closeBlock_tracks (construct : Construct) :
    Move.Tracks pairing Eq (closeBlock construct tokens) (closeBlock construct tokens) := by
  cases construct with
  | branch => exact Move.tracks_lift (closeBranch_tracks tokens)
  | loop => exact closeLoop_tracks tokens
  | method => exact closeMethod_tracks tokens

/-- `perform` tracks itself, one case for each command. -/
theorem perform_tracks (command : Command) :
    Move.Tracks pairing Eq (perform command tokens) (perform command tokens) := by
  unfold perform
  split
  · exact (Move.tracks_lift (assign_tracks tokens)).bind_pure rfl
  · exact (call_tracks tokens).bind_pure rfl
  · refine follows_get.bind fun site other hs => ?_
    exact (Move.tracks_lift (openBlock_tracks tokens _ hs.cursor)).bind_pure rfl
  · exact (closeBlock_tracks tokens _).bind_pure rfl
  · refine (Move.follows_lift (tracks_check _)).bind ?_
    rintro instruction _ rfl
    exact Move.tracks_pure rfl

/-- `execute` on lines with the same tokens tracks itself. -/
theorem execute_tracks {line line' : Line} (ht : line'.tokens = line.tokens) :
    Move.Tracks pairing Eq (execute line) (execute line') := by
  unfold execute Line.isEmpty
  rw [ht]
  -- the same case in both, since tokens and `suspended` are the same
  split
  · exact Move.tracks_pure rfl
  · refine follows_get.bind fun site other hs => ?_
    rw [hs.store.flow.suspended]
    split
    · exact (skip_tracks _).bind_pure rfl
    · refine (Move.follows_lift (tracks_inspect fun _ _ h => h.interpret)).bind ?_
      rintro ⟨command, tokens⟩ _ rfl
      exact perform_tracks tokens command

/-! ## Lines of a dry run -/

/-- `declareVariable` tracks itself. -/
theorem declareVariable_tracks :
    Tracks pairing Eq (declareVariable tokens) (declareVariable tokens) := by
  refine (tracks_check _).bind ?_
  rintro assignment _ rfl
  refine (tracks_inspect fun _ _ h => h.presumed assignment).bind ?_
  rintro value _ rfl
  exact tracks_onVariables _

/-- `declareMethod` tracks itself at paired addresses. -/
theorem declareMethod_tracks (hp : pairing.Pairs cursor cursor') :
    Tracks pairing Eq (declareMethod tokens cursor) (declareMethod tokens cursor') := by
  refine (tracks_inspect fun _ _ h => h.readHeader hp).bind ?_
  rintro signature _ rfl
  have hmethod : Method.Moved pairing ⟨signature.items, cursor, none⟩
      ⟨signature.items, cursor', none⟩ := ⟨rfl, hp, .none⟩
  refine (tracks_onMethods fun _ _ h => h.insert hmethod).bind fun _ _ _ => ?_
  refine (tracks_onVariables _).bind fun _ _ _ => ?_
  exact tracks_onFlow fun _ _ h => h.beginDefinition _

/-- `declareEnd` tracks itself at paired addresses. -/
theorem declareEnd_tracks (hp : pairing.Pairs cursor cursor') :
    Tracks pairing Eq (declareEnd tokens cursor) (declareEnd tokens cursor') := by
  refine (tracks_check _).bind fun _ _ _ => tracks_endDefinition.bind ?_
  rintro ended _ rfl
  cases ended with
  | none => exact follows_pure rfl
  | some name =>
    refine (tracks_onMethods fun _ _ h => .ok (h.close hp)).bind fun _ _ _ => ?_
    exact tracks_onVariables _

/-- `declare` on lines with the same tokens tracks itself at paired addresses. -/
theorem declare_tracks {line line' : Line} (ht : line'.tokens = line.tokens)
    (hp : pairing.Pairs cursor cursor') :
    Tracks pairing Eq (declare line cursor) (declare line' cursor') := by
  unfold declare Line.isEmpty
  rw [ht]
  split
  · exact follows_pure rfl
  · refine (tracks_inspect fun _ _ h => h.interpret).bind ?_
    rintro ⟨command, tokens⟩ _ rfl
    dsimp only
    split
    · exact declareVariable_tracks tokens
    · exact declareMethod_tracks tokens hp
    · exact declareEnd_tracks tokens hp
    · next hc _ => exact tracks_inspect fun _ _ h => h.checkCommand hc

end Store

end Sketch
