import Sketch.Fault
import Sketch.Name
import Sketch.Number

/-!
# Operands

The checks that several commands share: a token has to be an integer, a word has to be free for use
as a name, a keyword takes no arguments.
-/

namespace Sketch

/-- The number that a literal stands for. -/
def Number.read (word : String) : Except Fault Number :=
  match Number.parse? word with
  | some n => .ok n
  | none => .error (.notInteger word)

/-- A word that names something has the form of a name and is no keyword. -/
def Name.check (word : String) : Except Fault Unit :=
  if !Name.isName word then .error (.invalidName word)
  else if (Keyword.ofText? word).isSome then .error (.reservedWord word)
  else .ok ()

/-- A line with this keyword has no further tokens. -/
def Keyword.checkAlone (keyword : Keyword) (tokens : List String) : Except Fault Unit :=
  if tokens.length > 1 then .error (.takesNoArguments keyword) else .ok ()

end Sketch
