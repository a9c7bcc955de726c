import Sketch.Host.Session

/-!
# Running a file

A program in a file is checked as a whole and then run. Its drawing goes to the output, and an
error to the error output, set off by the function `bold` as at the prompt.
-/

namespace Sketch

/-- What is left of running a file: the exit code and what was printed. -/
structure BatchResult where
  code : Nat
  output : String
  errors : String
  deriving DecidableEq, Repr

namespace BatchResult

/-- The end of a run that met an error after printing `output`. -/
def failed (bold : String → String) (output : String) (report : Report) : BatchResult :=
  ⟨1, output, bold report.render ++ "\n"⟩

end BatchResult

/-- The primitives of the picture, one in a line. -/
def Engine.printedPicture (engine : Engine) : String :=
  Session.printed (engine.canvas.picture.toList.map Primitive.render)

/-- The end of a run: what was drawn, and the error if there was one. -/
def BatchResult.ofOutcome (bold : String → String) : Outcome Unit → BatchResult
  | .ok _ engine => ⟨0, engine.printedPicture, ""⟩
  | .error failure engine => .failed bold engine.printedPicture failure.report

/-- Runs a program, or only checks it. -/
def Program.batch (program : Program) (bold : String → String) (checkOnly : Bool) (fuel : Nat) :
    Option BatchResult :=
  match program.check with
  | .error failure => some (.failed bold "" failure.report)
  | .ok _ =>
    if checkOnly then some ⟨0, "OK\n", ""⟩
    else (Engine.run program fuel .initial).map (BatchResult.ofOutcome bold)

/-- Runs the program in a file, or only checks it. -/
def batch (bold : String → String) (name : String) (checkOnly : Bool) (fuel : Nat) :
    Exchange (Option BatchResult) :=
  .read name fun answer =>
    match Program.load answer with
    | .error report => some (.failed bold "" report)
    | .ok program => program.batch bold checkOnly fuel

end Sketch
