import Sketch.Host.Batch

/-!
# The command line

With a file name the program in that file is checked and run, or only checked; without one, lines
are read from a prompt until the input ends.
-/

namespace Sketch.Terminal

/-- More lines than a run executes before it is waited for in vain. -/
def patience : Nat := 4611686018427387904

/-- Nobody interrupts a run. -/
def never : Nat → Bool := fun _ => false

/-- The text in bold type. -/
def bold (s : String) : String :=
  "\x1b[1m" ++ s ++ "\x1b[0m"

/-- The number of a system error, which some calls give with a minus sign. -/
def errorNumber (code : UInt32) : UInt32 :=
  if code < 0x80000000 then code else 0 - code

/-- Why the system did not read or write a file. -/
def faultOf (error : IO.Error) : FileFault :=
  match error with
  | .noFileOrDirectory _ _ _ => .notFound
  | .inappropriateType _ code _ =>
    if errorNumber code = 20 then .notFolder
    else if errorNumber code = 21 then .isFolder
    else .other (toString error)
  | other => .other (toString other)

/-- Does what an exchange asks for with the files of the system. -/
def perform {α : Type} : Exchange α → IO α
  | .done value => pure value
  | .read name next => do
    match ← (IO.FS.readBinFile name).toBaseIO with
    | .ok content => pure (next (.ok content))
    | .error error => pure (next (.error (faultOf error)))
  | .write name content next => do
    match ← (IO.FS.writeBinFile name content).toBaseIO with
    | .ok _ => pure (next (.ok ()))
    | .error error => pure (next (.error (faultOf error)))

/-- Reads lines from the prompt and answers them. -/
partial def prompt (session : Session) : IO Unit := do
  let output ← IO.getStdout
  output.putStr "> "
  output.flush
  let input ← (← IO.getStdin).getLine
  unless input.isEmpty do
    match ← perform (session.answer bold never patience input) with
    | some (session, shown) =>
      output.putStr shown
      prompt session
    | none => prompt session

/-- Runs the program in a file, or only checks it. -/
def runFile (name : String) (checkOnly : Bool) : IO UInt32 := do
  match ← perform (batch bold name checkOnly patience) with
  | some result =>
    (← IO.getStdout).putStr result.output
    (← IO.getStderr).putStr result.errors
    pure (UInt32.ofNat result.code)
  | none => pure 1

/-- What is said of arguments that cannot be read. -/
def usage : String := "usage: sketch [FILE] [--check]\n"

end Sketch.Terminal

open Sketch Terminal in
def main (args : List String) : IO UInt32 := do
  let checkOnly := args.contains "--check"
  match args.filter (· ≠ "--check"), checkOnly with
  | [name], _ => runFile name checkOnly
  | [], false => do
    (← IO.getStdout).putStr Session.greeting
    prompt .initial
    pure 0
  | _, _ => do
    (← IO.getStderr).putStr usage
    pure 2
