import Sketch.Fault
import Sketch.Name
import Sketch.Text.Case

/-!
# Commands

What a line asks for: an assignment, a call of a method, or what its keyword says. The tokens alone
decide, except that a line whose first token is a variable is always an assignment.
-/

namespace Sketch

/-- What a line asks for. -/
inductive Command where
  | assignment
  | call
  | keyword (keyword : Keyword)
  deriving DecidableEq, Repr

namespace Command

/-- Three to five tokens, of which the first is a name and the second the equals sign. -/
def hasAssignmentShape : List String → Bool
  | name :: equals :: _ :: rest => rest.length ≤ 2 && Name.isName name && equals == "="
  | _ => false

/-- Whether the character is a round bracket. -/
def isBracket (c : Char) : Bool :=
  c == '(' || c == ')'

/-- A single token in which an opening bracket stands before the first closing one. -/
def hasCallShape : List String → Bool
  | [token] => token.toList.find? isBracket == some '(' && token.toList.contains ')'
  | _ => false

/-- What a keyword, or a word that should be one, asks for. -/
def ofWord (word : String) : Except Fault Command :=
  match Keyword.ofText? word with
  | some k => .ok (.keyword k)
  | none =>
    if (Keyword.ofText? (Text.upper word)).isSome then .error .notUppercase
    else .error (.unsupported word)

/-- What the tokens of a line ask for; `isBound` tells which names are variables. -/
def classify (isBound : String → Bool) (tokens : List String) : Except Fault Command :=
  match tokens with
  | [] => .error .emptyLine
  | first :: _ =>
    if isBound first || hasAssignmentShape tokens then .ok .assignment
    else if hasCallShape tokens then .ok .call
    else ofWord first

/-- Whether the line acts on the state of a run and not on the drawing. -/
def isStructural : Command → Bool
  | .keyword k => k.isStructural
  | _ => true

/-- Whether variables in the arguments stand for their values. -/
def substitutes : Command → Bool
  | .keyword k => k.substitutes
  | _ => true

/-- The keyword of a command. -/
def keyword? : Command → Option Keyword
  | .keyword k => some k
  | _ => none

end Command

end Sketch
