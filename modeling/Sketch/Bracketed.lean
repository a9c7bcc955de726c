import Sketch.Text.Blank
import Sketch.Text.Split

/-!
# Bracketed lists

The form that a method header and a call share: a head, and in round brackets after it a list of
items with commas between them. Blanks around an item do not belong to it, and brackets with only
blanks between them hold no items. `parse?` reads the list by characters and `cut?` by offsets in
bytes, where a piece could be cut inside a character.
-/

namespace Sketch

/-- A head with a list of items in brackets. -/
structure Bracketed where
  head : String
  items : List String
  deriving DecidableEq, Repr

namespace Bracketed

/-- The items between the brackets. -/
def itemsOf (inner : List Char) : List String :=
  if Text.trimChars inner = [] then []
  else (Text.splitChars ',' inner).map fun piece => String.ofList (Text.trimChars piece)

/-- What stands between brackets, if the characters end with the closing one and have no bracket
before it. -/
def inner? (cs : List Char) : Option (List Char) :=
  if cs.getLast? = some ')' ∧ cs.dropLast.all (fun c => c != '(' && c != ')') then
    some cs.dropLast
  else none

/-- Reads a head with a list in brackets. The head ends at the first opening bracket. -/
def parse? (s : String) : Option Bracketed :=
  let head := s.toList.takeWhile (· != '(')
  match s.toList.dropWhile (· != '(') with
  | [] => none
  | _ :: afterBracket => (inner? afterBracket).map fun inner => ⟨String.ofList head, itemsOf inner⟩

/-- Reads a head with a list in brackets by offsets in bytes. There is no result if a piece is cut
where no character ends. -/
def cut? (s : String) : Option (Option Bracketed) :=
  match Text.offset? '(' s.toList with
  | none => some none
  | some start =>
    if s.toList.getLast? = some ')' ∧ start + 1 ≤ s.utf8ByteSize - 1 then do
      let inner ← Text.slice? s (start + 1) (s.utf8ByteSize - 1)
      if inner.toList.any (fun c => c == '(' || c == ')') then some none
      else
        let head ← Text.slice? s 0 start
        some (some ⟨head, itemsOf inner.toList⟩)
    else some none

/-- The text of a head with a list in brackets. -/
def text (b : Bracketed) : String :=
  b.head ++ "(" ++ String.intercalate "," b.items ++ ")"

end Bracketed

end Sketch
