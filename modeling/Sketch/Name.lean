import Sketch.Keyword

/-!
# Names

Variables, methods and parameters have names. A name is not empty, does not begin with a decimal
digit and contains none of the reserved characters, which are those of the operators, brackets,
separators and quotes. Keywords have the form of names, but nothing can be named by one.
-/

namespace Sketch.Name

/-- The characters that no name contains. -/
def reserved : List Char :=
  ['=', '<', '>', '!', '+', '-', '*', '/', '(', ')', '\x7b', '\x7d', ';', ':', ',', '.', ' ', '"']

/-- Whether the text contains a reserved character. -/
def hasReserved (s : String) : Bool :=
  s.toList.any reserved.contains

/-- Whether the text has the form of a name. -/
def isName (s : String) : Bool :=
  match s.toList with
  | [] => false
  | c :: _ => !c.isDigit && !hasReserved s

/-- Whether something can be given this name. -/
def isFree (s : String) : Bool :=
  isName s && (Keyword.ofText? s).isNone

end Sketch.Name
