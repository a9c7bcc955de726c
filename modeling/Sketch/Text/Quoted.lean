import Sketch.Text.Hidden

/-!
# Quoted text

`quote` writes a text between double quotes so that it can be told apart from every other text:
the quote and the backslash carry a backslash, four controls have a letter of their own, and the
hidden code points are written as `\u` with their number in braces.
-/

namespace Sketch.Text

/-- How a character stands inside a quoted text. -/
def escapeChar (c : Char) : List Char :=
  if c = '"' then ['\\', '"']
  else if c = '\\' then ['\\', '\\']
  else if c = '\x00' then ['\\', '0']
  else if c = '\t' then ['\\', 't']
  else if c = '\n' then ['\\', 'n']
  else if c = '\r' then ['\\', 'r']
  else if isHidden c then ['\\', 'u', '\x7b'] ++ Nat.toDigits 16 c.toNat ++ ['\x7d']
  else [c]

/-- The characters between quotes, each escaped where it has to be. -/
def quoteChars (cs : List Char) : List Char :=
  '"' :: cs.flatMap escapeChar ++ ['"']

/-- The text between quotes, each character escaped where it has to be. -/
def quote (s : String) : String :=
  String.ofList (quoteChars s.toList)

end Sketch.Text
