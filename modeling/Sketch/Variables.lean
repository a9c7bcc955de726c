import Std.Data.ExtTreeMap
import Sketch.Number
import Sketch.Stack

/-!
# Variables

Global variables, and one scope of parameters for every call that has not returned. A name is
looked up in the innermost scope and then among the globals; the scopes between are out of sight.
An assignment changes the binding that a look-up finds and makes a global if there is none.
-/

namespace Sketch

/-- A finite map from names to numbers. -/
abbrev Scope := Std.ExtTreeMap String Number

/-- The map with these bindings; of two bindings of a name the later one counts. -/
def Scope.ofBindings (bindings : List (String × Number)) : Scope :=
  Std.ExtTreeMap.ofList bindings

/-- The number of calls that may be open at once. -/
def callLimit : Nat := 4096

/-- The number of entries that other parts of the state may hold. -/
def entryLimit : Nat := 65535

/-- The room for parameter scopes. -/
def scopeBound : Bound := ⟨callLimit, "CALL STACK OVERFLOW"⟩

/-- The room for global variables. -/
def globalBound : Bound := ⟨entryLimit, "TOO MANY VARIABLES"⟩

/-- The global variables and the scopes of the open calls. -/
structure Variables where
  globals : Scope
  scopes : Stack Scope

namespace Variables

/-- No variables. -/
def empty : Variables := ⟨∅, .empty⟩

instance : Inhabited Variables := ⟨empty⟩

/-- The value of a name: that of the innermost scope, else that of the global. -/
def lookup? (vars : Variables) (name : String) : Option Number :=
  match vars.scopes.top?.bind (·[name]?) with
  | some value => some value
  | none => vars.globals[name]?

/-- Whether a name has a value. -/
def contains (vars : Variables) (name : String) : Bool :=
  (vars.lookup? name).isSome

/-- The global bindings with this one, if it replaces one or there is room for it. -/
def storeGlobal (vars : Variables) (name : String) (value : Number) : Except Fault Variables :=
  if vars.globals.contains name || vars.globals.size < globalBound.size then
    .ok { vars with globals := vars.globals.insert name value }
  else
    .error (.full globalBound)

/-- Gives a name a value: in the innermost scope if it is bound there, else among the globals. -/
def store (vars : Variables) (name : String) (value : Number) : Except Fault Variables :=
  match vars.scopes.top? with
  | some scope =>
    if scope.contains name then
      .ok { vars with scopes := vars.scopes.setTop (scope.insert name value) }
    else vars.storeGlobal name value
  | none => vars.storeGlobal name value

/-- Opens a scope. -/
def enter (vars : Variables) (scope : Scope) : Except Fault Variables :=
  (vars.scopes.push scopeBound scope).map fun scopes => { vars with scopes }

/-- Closes the innermost scope and gives its bindings. -/
def leave (vars : Variables) : Except Fault (Scope × Variables) :=
  vars.scopes.pop.map fun (scope, scopes) => (scope, { vars with scopes })

/-- The number of open scopes. -/
def depth (vars : Variables) : Nat :=
  vars.scopes.height

/-- Closes the scopes above a depth. -/
def unwind (vars : Variables) (depth : Nat) : Variables :=
  { vars with scopes := vars.scopes.truncate depth }

/-- The global variables with their values, in the order of their names. -/
def listing (vars : Variables) : List (String × Number) :=
  vars.globals.toList

end Variables

end Sketch
