import Sketch.Program
import Sketch.Variables

/-!
# The method table

A method is known by its name from the moment its header has been met. Its entry holds the
parameters, the address of the header, and the address of the closing line once that has been met.
-/

namespace Sketch

/-- The room for methods. -/
def methodBound : Bound := ⟨entryLimit, "TOO MANY METHODS"⟩

/-- A method: its parameters, its header and its closing line. -/
structure Method where
  parameters : List String
  start : Address
  finish : Option Address
  deriving DecidableEq, Repr

/-- The methods by name. -/
structure Methods where
  table : Std.ExtTreeMap String Method

namespace Methods

/-- No methods. -/
def empty : Methods := ⟨∅⟩

instance : Inhabited Methods := ⟨empty⟩

/-- The method of a name. -/
def find? (methods : Methods) (name : String) : Option Method :=
  methods.table[name]?

/-- The number of methods. -/
def size (methods : Methods) : Nat :=
  methods.table.size

/-- Enters a method under a name. A full table refuses it, even under a name that it has. -/
def insert (methods : Methods) (name : String) (method : Method) : Except Fault Methods :=
  if methods.table.size < methodBound.size then .ok ⟨methods.table.insert name method⟩
  else .error (.full methodBound)

/-- Records the closing line of a method. -/
def close (methods : Methods) (name : String) (finish : Address) : Methods :=
  match methods.table[name]? with
  | some method => ⟨methods.table.insert name { method with finish := some finish }⟩
  | none => methods

/-- The methods with their names, in the order of the names. -/
def listing (methods : Methods) : List (String × Method) :=
  methods.table.toList

end Methods

end Sketch
