import Sketch.Failure
import Sketch.Store

/-!
# Actions

An `Action` changes the store and may fail. A `Move` does so too and may also move the cursor. One
that fails keeps the changes made before the fault, since some lines do more than one thing.
-/

namespace Sketch

/-- A change of the store that may fail. -/
abbrev Action := EStateM Failure Store

namespace Action

variable {α : Type}

/-- A step that gives a value and the next store, or else a fault that is tied to no line and leaves
the store alone. -/
def attempt (step : Store → Except Fault (α × Store)) : Action α := fun store =>
  match step store with
  | .ok (a, store) => .ok a store
  | .error fault => .error (.ofFault fault) store

/-- A look at the store, which leaves it alone. -/
def inspect (view : Store → Except Fault α) : Action α :=
  attempt fun store => (view store).map fun a => (a, store)

/-- A check that does not depend on the store. -/
def check (result : Except Fault α) : Action α :=
  inspect fun _ => result

/-- A change of the variables. -/
def onVariables (change : Variables → Except Fault Variables) : Action Unit :=
  attempt fun store => (change store.vars).map fun vars => ((), { store with vars })

/-- A change of the method table. -/
def onMethods (change : Methods → Except Fault Methods) : Action Unit :=
  attempt fun store => (change store.methods).map fun methods => ((), { store with methods })

/-- A change of what is open. -/
def onFlow (change : Flow → Except Fault Flow) : Action Unit :=
  attempt fun store => (change store.flow).map fun flow => ((), { store with flow })

/-- Something is taken from what is open. -/
def takeFlow (change : Flow → Except Fault (α × Flow)) : Action α :=
  attempt fun store => (change store.flow).map fun (a, flow) => (a, { store with flow })

/-- Closes the innermost block if it is of this construct. -/
def closeIf (construct : Construct) : Action (Option Frame) :=
  takeFlow (·.popIf construct)

/-- Closes the innermost definition, if there is one, and tells which method it defines. -/
def endDefinition : Action (Option String) :=
  takeFlow fun flow => .ok flow.endDefinition

/-- Closes the innermost scope. -/
def leaveScope : Action Unit :=
  onVariables fun vars => vars.leave.map Prod.snd

end Action

/-- What a line works on: the store and the cursor. -/
structure Site where
  store : Store
  cursor : Address

/-- A change of the store and of the cursor that may fail. -/
abbrev Move := EStateM Failure Site

namespace Move

variable {α : Type}

/-- An action on the store, which leaves the cursor where it is. -/
def onStore (action : Action α) : Move α := fun site =>
  match action site.store with
  | .ok a store => .ok a { site with store }
  | .error failure store => .error failure { site with store }

instance : MonadLift Action Move := ⟨onStore⟩

/-- The cursor goes to an address. -/
def goTo (a : Address) : Move Unit := fun site =>
  .ok () { site with cursor := a }

end Move

end Sketch
