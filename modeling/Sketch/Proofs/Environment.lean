import Sketch.Proofs.Reachable
import Sketch.Proofs.Words

/-!
# Names and scopes

What is in the variables and in the table of methods, in every engine that can be reached. Main
statement: `Engine.Reachable.store_environment`, every name is a usable one, and the scopes go with
the calls, each binding the parameters of its method and nothing else.

Scopes and calls are paired position by position (`Store.Scoped`). A call and a return change both
stacks, an assignment changes a value in the newest scope and no name, and cutting back takes as
many from both. A method that has been entered keeps its parameters for good (`Methods.Extends`).
-/

namespace Sketch

/-! ## The table of methods -/

/-- A method and its parameters have usable names, and no parameter is listed twice. -/
structure Method.Proper (method : Method) (name : String) : Prop where
  name : Name.Usable name
  parameters : ∀ parameter ∈ method.parameters, Name.Usable parameter
  nodup : method.parameters.Nodup

namespace Methods

variable {methods after : Methods} {call : Call} {scope : Scope} {name : String}

/-- The scope binds the parameters of the called method, which is in the table. -/
def Binds (methods : Methods) (call : Call) (scope : Scope) : Prop :=
  ∃ method, methods.find? call.method = some method ∧ method.parameters.Nodup ∧
    ∀ name, name ∈ scope ↔ name ∈ method.parameters

/-- The methods of the table are proper ones, and there are no more than the room allows. -/
structure Proper (methods : Methods) : Prop where
  entries : ∀ name method, methods.find? name = some method → method.Proper name
  size_le : methods.size ≤ methodBound.size

/-- The empty table is `Proper`. -/
theorem Proper.empty : Methods.empty.Proper where
  entries name method hm := by simp [Methods.empty, find?] at hm
  size_le := Nat.zero_le _

/-- Every method of the first table is in the second one with the same parameters. -/
def Extends (methods after : Methods) : Prop :=
  ∀ name method, methods.find? name = some method →
    ∃ entry, after.find? name = some entry ∧ entry.parameters = method.parameters

/-- A scope still binds the parameters of its method in a table that `Extends` the first. -/
theorem Binds.extends (h : methods.Binds call scope) (he : methods.Extends after) :
    after.Binds call scope := by
  obtain ⟨method, hm, hnodup, hscope⟩ := h
  obtain ⟨entry, hentry, hsame⟩ := he _ _ hm
  exact ⟨entry, hentry, hsame ▸ hnodup, hsame ▸ hscope⟩

/-- `close` keeps the parameters of the methods (`Extends`). -/
theorem extends_close (methods : Methods) (name : String) (finish : Address) :
    methods.Extends (methods.close name finish) := by
  intro other method hm
  rw [find?_close, hm]
  exact ⟨_, rfl, by split <;> rfl⟩

/-- `close` adds no entry. -/
theorem size_close (methods : Methods) (name : String) (finish : Address) :
    (methods.close name finish).size = methods.size := by
  unfold Methods.close
  split
  · next method hm =>
    have hcontains : methods.table.contains name = true := by
      rw [Std.ExtTreeMap.contains_eq_isSome_getElem?, hm]
      rfl
    simp [size, Std.ExtTreeMap.size_insert, hcontains]
  · rfl

/-- `Proper` is kept when the end of a method is noted. -/
theorem Proper.close (h : methods.Proper) (name : String) (finish : Address) :
    (methods.close name finish).Proper := by
  refine ⟨?_, ?_⟩
  · intro other method hm
    rw [find?_close] at hm
    obtain ⟨old, hold, rfl⟩ := Option.map_eq_some_iff.1 hm
    obtain ⟨hname, hparameters, hnodup⟩ := h.entries other old hold
    split <;> exact ⟨hname, hparameters, hnodup⟩
  · exact Nat.le_trans (Nat.le_of_eq (size_close methods name finish)) h.size_le

/-- `Proper` is kept when a proper method is put in. -/
theorem Proper.insert (h : methods.Proper) {entry : Method} (he : entry.Proper name)
    (hi : methods.insert name entry = .ok after) : after.Proper := by
  refine ⟨?_, ?_⟩
  · intro other method hm
    rw [find?_insert hi] at hm
    split at hm
    · next heq =>
      cases hm
      exact heq ▸ he
    · exact h.entries other method hm
  · unfold Methods.insert at hi
    split at hi
    · next hroom =>
      cases hi
      exact Nat.le_trans Std.ExtTreeMap.size_insert_le hroom
    · cases hi

/-- A table with a new entry `Extends` the one before. -/
theorem extends_insert {entry : Method} (hnew : methods.find? name = none)
    (hi : methods.insert name entry = .ok after) : methods.Extends after := by
  intro other method hm
  have hne : name ≠ other := by
    rintro rfl
    rw [hnew] at hm
    cases hm
  exact ⟨method, by rw [find?_insert hi, if_neg hne, hm], rfl⟩

end Methods

/-! ## Scopes and calls -/

namespace Store

variable {store after origin : Store} {line : Line} {cursor next : Address} {tokens : List String}

/-- The `scope` of a call binds the parameters of its method and no other name. -/
theorem mem_scope_iff {invocation : Invocation} (hr : store.findCall tokens = .ok invocation)
    (name : String) : name ∈ invocation.scope ↔ name ∈ invocation.method.parameters := by
  refine ⟨mem_parameters_of_mem_scope, fun hmem => ?_⟩
  obtain ⟨call, values, -, -, hlength, hvalues, hinvocation⟩ := findCall_eq_ok_iff.1 hr
  have hcount : invocation.method.parameters.length ≤ invocation.values.length := by
    have hsame : invocation.values = values := by rw [hinvocation]
    rw [hsame, ← hlength]
    exact Nat.le_of_eq (mapM_eq_ok_iff.1 hvalues).length_eq
  rw [Invocation.scope, Scope.ofBindings, Std.ExtTreeMap.mem_ofList, List.contains_iff_mem,
    List.map_fst_zip hcount]
  exact hmem

/-- Usable names in their places, and for each call a scope with its parameters. -/
structure Scoped (store : Store) : Prop where
  globals : ∀ name ∈ store.vars.globals, Name.Usable name
  globals_le : store.vars.globals.size ≤ globalBound.size
  methods : store.methods.Proper
  scopes : List.Forall₂ store.methods.Binds store.flow.calls.entries store.vars.scopes.entries

namespace Scoped

/-- The empty store is `Scoped`. -/
theorem empty : Store.empty.Scoped where
  globals name h := by simp [Store.empty, Variables.empty] at h
  globals_le := Nat.zero_le _
  methods := .empty
  scopes := .nil

/-- `Scoped` is kept when the table `Extends`. -/
theorem withMethods (h : store.Scoped) {methods : Methods} (hp : methods.Proper)
    (he : store.methods.Extends methods) : Scoped { store with methods } where
  globals := h.globals
  globals_le := h.globals_le
  methods := hp
  scopes := h.scopes.imp fun _ _ hb => hb.extends he

/-- `Scoped` is kept by a call, which pushes a scope with the parameters of its method. -/
theorem call (h : store.Scoped) {invocation : Invocation}
    (hr : store.findCall tokens = .ok invocation) (cursor : Address) :
    Scoped { store with
      vars.scopes := store.vars.scopes.cons invocation.scope
      flow.calls := store.flow.calls.cons ⟨invocation.name, cursor⟩ } := by
  obtain ⟨call, values, -, hm, -, -, hinvocation⟩ := findCall_eq_ok_iff.1 hr
  have hname : invocation.name = call.head := by rw [hinvocation]
  refine ⟨h.globals, h.globals_le, h.methods, .cons ⟨invocation.method, ?_, ?_, ?_⟩ h.scopes⟩
  · rw [← hm, ← hname]
  · exact (h.methods.entries _ _ hm).nodup
  · exact mem_scope_iff hr

/-- `Scoped` is kept when the end of a definition is noted. -/
theorem closed (h : store.Scoped) (cursor : Address) : (store.closed cursor).Scoped := by
  unfold Store.closed
  split
  · next name definitions _ =>
    have hflow : Scoped { store with flow.definitions := definitions } :=
      ⟨h.globals, h.globals_le, h.methods, h.scopes⟩
    exact hflow.withMethods (h.methods.close name cursor)
      (Methods.extends_close store.methods name cursor)
  · exact h

/-- `Scoped` is kept by the return from a call, which takes the newest call and the newest scope. -/
theorem leaves (h : store.Scoped) (hl : Leaves cursor store next after) : after.Scoped := by
  cases hl with
  | stays _ => exact h
  | returns _ hc hs =>
    have hscopes := h.scopes
    rw [hc, hs, Stack.entries_cons, Stack.entries_cons, List.forall₂_cons] at hscopes
    exact ⟨h.globals, h.globals_le, h.methods, hscopes.2⟩

/-- `Scoped` is kept by `Variables.store`, which adds no name to a scope. -/
theorem assigns (h : store.Scoped) {name : String} {value : Number} {vars : Variables}
    (hname : Name.Usable name) (hv : store.vars.store name value = .ok vars) :
    Scoped { store with vars } := by
  -- the newest scope binds the name already, or the name is a global
  rcases Variables.store_cases hv with ⟨scope, scopes, hs, hbound, rfl⟩ | ⟨-, hroom, rfl⟩
  · refine ⟨h.globals, h.globals_le, h.methods, ?_⟩
    have hscopes := h.scopes
    rw [hs, Stack.entries_cons] at hscopes
    obtain ⟨call, calls, ⟨method, hm, hnodup, hscope⟩, hrest, hcalls⟩ :=
      List.forall₂_cons_right_iff.1 hscopes
    have hsame : ∀ other, other ∈ scope.insert name value ↔ other ∈ method.parameters := by
      intro other
      rw [Std.ExtTreeMap.mem_insert, ← hscope, Std.compare_eq_iff_eq]
      refine ⟨?_, .inr⟩
      rintro (rfl | hmem)
      · exact hbound
      · exact hmem
    show List.Forall₂ store.methods.Binds store.flow.calls.entries
      (scopes.cons (scope.insert name value)).entries
    rw [hcalls]
    exact .cons ⟨method, hm, hnodup, hsame⟩ hrest
  · refine ⟨?_, ?_, h.methods, h.scopes⟩
    · intro other hmem
      rcases Std.ExtTreeMap.mem_insert.1 hmem with heq | hmem
      · exact Std.compare_eq_iff_eq.1 heq ▸ hname
      · exact h.globals other hmem
    · show (store.vars.globals.insert name value).size ≤ globalBound.size
      rw [Std.ExtTreeMap.size_insert]
      split
      · exact h.globals_le
      · next hnew =>
        rcases hroom with hold | hroom
        · exact absurd hold hnew
        · exact hroom

/-- `Scoped` is kept when a new method is entered into the table. -/
theorem defines (h : store.Scoped) {signature : Bracketed} {methods : Methods}
    (hi : store.interpret line.tokens = .ok (.keyword (.opens .method), tokens))
    (hr : store.readHeader tokens cursor = .ok signature)
    (hnew : store.methods.find? signature.head = none)
    (hm : store.methods.insert signature.head ⟨signature.items, cursor, none⟩ = .ok methods) :
    Scoped { store with methods } := by
  obtain ⟨hhead, hitems⟩ := usable_of_header hi hr
  obtain ⟨-, -, hparameters, -⟩ := readHeader_eq_ok_iff.1 hr
  have hnodup : signature.items.Nodup := (nodup_of_checkParameters hparameters).1
  exact h.withMethods (h.methods.insert ⟨hhead, hitems, hnodup⟩ hm)
    (Methods.extends_insert hnew hm)

/-- `Scoped` is kept by every command that succeeds. -/
theorem performs {command : Command} {step : Step} (h : store.Scoped)
    (hi : store.interpret line.tokens = .ok (command, tokens))
    (he : Performs cursor store command tokens step after) : after.Scoped := by
  cases he with
  | assigns hp _ hv => exact h.assigns (usable_of_assignment hi hp) hv
  | calls hr _ _ _ =>
    obtain ⟨globals, globals_le, methods, scopes⟩ := h.call hr cursor
    exact ⟨globals, globals_le, methods, scopes⟩
  | defines hr hm _ _ =>
    rcases register_cases hr hm with ⟨_, -, -, rfl⟩ | ⟨hnew, hinsert⟩
    · exact ⟨h.globals, h.globals_le, h.methods, h.scopes⟩
    · obtain ⟨globals, globals_le, methods, scopes⟩ := h.defines hi hr hnew hinsert
      exact ⟨globals, globals_le, methods, scopes⟩
  | closesMethod _ hl => exact h.leaves hl
  | branches _ _ => exact ⟨h.globals, h.globals_le, h.methods, h.scopes⟩
  | loops _ _ _ => exact ⟨h.globals, h.globals_le, h.methods, h.scopes⟩
  | closesNothing _ _ _ => exact h
  | closesBranch _ _ => exact ⟨h.globals, h.globals_le, h.methods, h.scopes⟩
  | closesLoop _ _ _ => exact ⟨h.globals, h.globals_le, h.methods, h.scopes⟩
  | draws _ => exact h

/-- `Scoped` is kept by every line that succeeds. -/
theorem step {result : Step} (h : store.Scoped)
    (he : Executes line cursor store result after) : after.Scoped := by
  cases he with
  | blank _ => exact h
  | performs _ _ hi he => exact h.performs hi he
  | skips _ _ he =>
    cases he with
    | ignores _ _ => exact h
    | nests _ _ => exact ⟨h.globals, h.globals_le, h.methods, h.scopes⟩
    | closes _ _ _ => exact ⟨h.globals, h.globals_le, h.methods, h.scopes⟩
    | endsLoop _ _ _ => exact ⟨h.globals, h.globals_le, h.methods, h.scopes⟩
    | @endsDefinition frames _ _ _ _ hl =>
      have hbelow : Scoped { store with flow.frames := frames } :=
        ⟨h.globals, h.globals_le, h.methods, h.scopes⟩
      exact (hbelow.closed cursor).leaves hl

/-- `Scoped` is kept by what a failing line leaves behind. -/
theorem leftover (h : store.Scoped) (hl : Leftover line cursor store after) : after.Scoped := by
  cases hl with
  | call _ hr _ _ => exact h.call hr cursor
  | method hi hr hn hm => exact h.defines hi hr hn hm

/-- `Scoped` is kept by `unwind`, which cuts back as many scopes as calls. -/
theorem unwind (h : store.Scoped) (ho : origin.Scoped) :
    (store.unwind origin.checkpoint).Scoped := by
  refine ⟨h.globals, h.globals_le, h.methods, ?_⟩
  have hheight : store.flow.calls.height = store.vars.scopes.height := by
    rw [Stack.height_eq, Stack.height_eq]
    exact h.scopes.length_eq
  have horigin : origin.flow.calls.height = origin.vars.scopes.height := by
    rw [Stack.height_eq, Stack.height_eq]
    exact ho.scopes.length_eq
  show List.Forall₂ store.methods.Binds
    (store.flow.calls.entries.drop (store.flow.calls.height - origin.flow.calls.height))
    (store.vars.scopes.entries.drop (store.vars.scopes.height - origin.vars.scopes.height))
  rw [hheight, horigin]
  exact List.forall₂_drop _ h.scopes

end Scoped

/-- The name stands for something: it is bound, or it belongs to a method. -/
inductive Uses (store : Store) (name : String) : Prop where
  | global (h : name ∈ store.vars.globals)
  | bound {scope : Scope} (hs : scope ∈ store.vars.scopes.toList) (h : name ∈ scope)
  | method {method : Method} (h : store.methods.find? name = some method)
  | parameter {owner : String} {method : Method} (hm : store.methods.find? owner = some method)
      (h : name ∈ method.parameters)

/-- In a `Scoped` store, the names of a scope are parameters of a method. -/
theorem Scoped.usable_of_mem_scope (h : store.Scoped) {scope : Scope} {name : String}
    (hs : scope ∈ store.vars.scopes.entries) (hmem : name ∈ scope) : Name.Usable name := by
  obtain ⟨⟨i, hi⟩, rfl⟩ := List.get_of_mem hs
  obtain ⟨method, hm, -, hscope⟩ := h.scopes.get (h.scopes.length_eq ▸ hi) hi
  exact (h.methods.entries _ method hm).parameters name ((hscope name).1 hmem)

/-- Every name that a `Scoped` store uses is usable. -/
theorem Scoped.usable (h : store.Scoped) {name : String} (hu : store.Uses name) :
    Name.Usable name := by
  cases hu with
  | global hmem => exact h.globals name hmem
  | bound hs hmem => exact h.usable_of_mem_scope (List.mem_reverse.1 hs) hmem
  | method hm => exact (h.methods.entries name _ hm).name
  | parameter hm hmem => exact (h.methods.entries _ _ hm).parameters name hmem

/-- Names and scopes, from the oldest call to the newest. -/
structure Environment (store : Store) : Prop where
  usable : ∀ name, store.Uses name → Name.Usable name
  heights : store.flow.calls.height = store.vars.scopes.height
  scopes : List.Forall₂ store.methods.Binds store.flow.calls.toList store.vars.scopes.toList
  globals_le : store.vars.globals.size ≤ 65535
  methods_le : store.methods.size ≤ 65535

/-- `Scoped` gives all that `Environment` says. -/
theorem Scoped.environment (h : store.Scoped) : store.Environment := by
  refine ⟨fun name => h.usable, ?_, List.forall₂_reverse_iff.2 h.scopes, h.globals_le,
    h.methods.size_le⟩
  rw [Stack.height_eq, Stack.height_eq]
  exact h.scopes.length_eq

end Store

namespace Engine

variable {engine : Engine} {tolerated : Fault → Prop}

/-- The store of every engine that can be reached is `Scoped`. -/
theorem Reachable.scoped (h : Reachable tolerated engine) : engine.store.Scoped :=
  h.store_induction .empty Store.Scoped.step Store.Scoped.leftover Store.Scoped.unwind

/-- **Names are usable, and scopes belong to calls.** The store of every `Reachable` engine is an
`Environment`: all names in use are free, and each open call has a scope that binds the parameters
of its method and no other name. A run ends in a `Reachable` engine as well. -/
theorem Reachable.store_environment (h : Reachable (fun _ => True) engine) :
    engine.store.Environment ∧ ∀ program fuel outcome,
      Engine.run program fuel engine = some outcome →
        Reachable (fun _ => True) outcome.engine :=
  ⟨h.scoped.environment, fun _ _ _ hr => h.run hr fun _ _ => trivial⟩

/-- A call inside a call that fails, and its parameters have other values by then. -/
def shares : Program :=
  .parse ("METHOD split(all,parts)\nrest = all - parts\nall = rest\ntake(rest)\nENDMETHOD\n" ++
    "METHOD take(n)\nn = n / 0\nENDMETHOD\nsplit(5,2)\n")

/-- Two calls, one inside the other, and a global. -/
theorem Reachable.store_environment_shares : ∃ engine : Engine,
    Reachable (fun _ => True) engine ∧
      engine.store.flow.calls.toList.map Call.method = ["split", "take"] ∧
      engine.store.vars.scopes.toList.map (fun scope => scope.toList) =
        [[("all", 3), ("parts", 2)], [("n", 3)]] ∧
      engine.store.vars.globals.toList = [("rest", 3)] ∧ engine.store.Environment := by
  have hrun : (Engine.run shares 40 .initial).map (fun outcome =>
      (outcome.engine.store.flow.calls.toList.map Call.method,
        outcome.engine.store.vars.scopes.toList.map (fun scope => scope.toList),
        outcome.engine.store.vars.globals.toList)) =
      some (["split", "take"], [[("all", 3), ("parts", 2)], [("n", 3)]], [("rest", 3)]) := by
    decide +kernel
  obtain ⟨outcome, houtcome, hend⟩ := Option.map_eq_some_iff.1 hrun
  simp only [Prod.mk.injEq] at hend
  obtain ⟨hcalls, hscopes, hglobals⟩ := hend
  have hreach : Reachable (fun _ => True) outcome.engine :=
    Reachable.initial.store_environment.2 shares 40 outcome houtcome
  exact ⟨outcome.engine, hreach, hcalls, hscopes, hglobals, hreach.store_environment.1⟩

end Engine

end Sketch
