import Sketch.Execution.Line
import Sketch.Failure

/-!
# Checking without executing

`Store.checkLine` says whether a line could be executed now and changes nothing. `Program.check` is
a dry run of a whole program: every line once, from the first to the last, on a store of its own
that records only what later lines may refer to. An assignment of a literal records its value; the
result of an operation is not computed, and its name counts as positive unless it already was. The
parameters of a method count as one inside its block.
-/

namespace Sketch

namespace Store

open Sketch.Action

/-- Checks a command with its substituted tokens. A method header is checked as if it stood at the
last address. -/
def checkCommand (store : Store) (command : Command) (tokens : List String) : Except Fault Unit :=
  match command with
  | .assignment => (Assignment.parse tokens).map fun _ => ()
  | .call => (store.readCall tokens).map fun _ => ()
  | .keyword (.opens .method) => (store.readHeader tokens Address.last).map fun _ => ()
  | .keyword (.opens construct) => (Condition.parse (.opens construct) tokens).map fun _ => ()
  | .keyword (.closes construct) => Keyword.checkAlone (.closes construct) tokens
  | .keyword keyword => (Instruction.ofLine keyword tokens).map fun _ => ()

/-- Checks the tokens of a line that is not skipped. -/
def checkTokens (store : Store) (tokens : List String) : Except Fault Unit := do
  let (command, tokens) ← store.interpret tokens
  store.checkCommand command tokens

/-- Checks whether a line could be executed now. -/
def checkLine (store : Store) (line : Line) : Except Failure Unit :=
  if line.isEmpty || store.flow.suspended then .ok ()
  else (store.checkTokens line.tokens).mapError .ofFault

/-! ## The dry run -/

/-- The value that a dry run records for an assignment. -/
def presumed (store : Store) (assignment : Assignment) : Number :=
  match assignment.operation with
  | none => assignment.value
  | some _ =>
    match store.vars.lookup? assignment.name with
    | some value => if 0 < value.toInt then value else 1
    | none => 1

/-- Records an assignment. -/
def declareVariable (tokens : List String) : Action Unit := do
  let assignment ← check (Assignment.parse tokens)
  let value ← inspect fun store => .ok (store.presumed assignment)
  onVariables (·.store assignment.name value)

/-- Records a method and opens a scope for its parameters. -/
def declareMethod (tokens : List String) (index : Address) : Action Unit := do
  let signature ← inspect (·.readHeader tokens index)
  onMethods (·.insert signature.head ⟨signature.items, index, none⟩)
  onVariables (·.enter (Scope.ofBindings (signature.items.map fun name => (name, 1))))
  onFlow (·.beginDefinition signature.head)

/-- Closes the scope of the innermost method, if there is one. -/
def declareEnd (tokens : List String) (index : Address) : Action Unit := do
  check (Keyword.checkAlone (.closes .method) tokens)
  match ← endDefinition with
  | some name =>
    onMethods fun methods => .ok (methods.close name index)
    leaveScope
  | none => pure ()

/-- One line of a dry run. -/
def declare (line : Line) (index : Address) : Action Unit := do
  if line.isEmpty then pure ()
  else
    let (command, tokens) ← inspect (·.interpret line.tokens)
    match command with
    | .assignment => declareVariable tokens
    | .keyword (.opens .method) => declareMethod tokens index
    | .keyword (.closes .method) => declareEnd tokens index
    | _ => inspect (·.checkCommand command tokens)

/-- The dry run of the lines from an address on. -/
def declareAll : List Line → Address → Store → Except Failure Store
  | [], _, store => .ok store
  | line :: rest, index, store =>
    match declare line index store with
    | .ok _ store => declareAll rest (index + 1) store
    | .error failure _ => .error (failure.annotate index line)

end Store

/-- Checks a program line by line. The first fault counts. -/
def Program.check (program : Program) : Except Failure Unit :=
  (Store.declareAll program.lines.toList 0 .empty).map fun _ => ()

end Sketch
