import Sketch.Program

/-!
# Directives

What can be typed at the prompt: a word about the stored program, or a line to be executed. A
directive has exactly the tokens it needs; anything else is a line. A file name may stand in quotes.
-/

namespace Sketch

/-- What is asked for at the prompt. -/
inductive Directive where
  | load (name : String)
  | save (name : String)
  | list
  | new
  | check
  | run
  | status
  | vars
  | direct (line : Line)
  deriving DecidableEq

namespace Directive

/-- A file name without the quotes around it. -/
def unquoted (word : String) : String :=
  String.ofList (Text.dropEndWhile (· == '"') (word.toList.dropWhile (· == '"')))

/-- Reads what is typed at the prompt. -/
def ofInput (input : String) : Directive :=
  let line := Line.ofText input
  match line.tokens with
  | ["LOAD", name] => .load (unquoted name)
  | ["SAVE", name] => .save (unquoted name)
  | ["LIST"] => .list
  | ["NEW"] => .new
  | ["CHECK"] => .check
  | ["RUN"] => .run
  | ["STATUS"] => .status
  | ["VARS"] => .vars
  | _ => .direct line

end Directive

end Sketch
