import Sketch.Assignment
import Sketch.Drawing.Instruction
import Sketch.Execution.Block
import Sketch.Execution.Method

/-!
# Executing a line

`Store.execute` executes one line at the cursor. It changes the store, may move the cursor, and
gives the drawing instruction of the line, if it has one; what has been drawn is never looked at.
`Store.skip` is what happens to a line inside a block that is skipped: only its opening or closing
word counts.
-/

namespace Sketch.Store

open Sketch.Action Sketch.Move

/-- What the tokens of a line ask for in this store. -/
def classify (store : Store) (tokens : List String) : Except Fault Command :=
  Command.classify store.vars.contains tokens

/-- The command of a line, and its tokens with the variables replaced by their values. -/
def interpret (store : Store) (tokens : List String) : Except Fault (Command × List String) := do
  let command ← store.classify tokens
  let tokens ← store.substitute command tokens
  .ok (command, tokens)

/-! ## Skipping -/

/-- Closes a block that is skipped or stands inside a skipped one. -/
def closeSkipped (construct : Construct) : Move Unit := do
  match ← closeIf construct with
  | some ⟨.loop, .skipping⟩ =>
    let _ ← takeFlow Flow.popLoop
  | some ⟨.method, .skipping⟩ => closeDefinition
  | _ => pure ()

/-- A line inside a skipped block opens a nested block, closes the innermost one, or does
nothing. -/
def skip (tokens : List String) : Move Unit := do
  match (← get).store.classify tokens with
  | .ok (.keyword (.opens construct)) => onFlow (·.nest construct)
  | .ok (.keyword (.closes construct)) => closeSkipped construct
  | _ => pure ()

/-! ## Executing -/

/-- Executes an assignment. -/
def assign (tokens : List String) : Action Unit := do
  let assignment ← check (Assignment.parse tokens)
  let value ← check assignment.evaluate
  onVariables (·.store assignment.name value)

/-- Executes a keyword that opens a block. -/
def openBlock (construct : Construct) (tokens : List String) (cursor : Address) : Action Unit :=
  match construct with
  | .branch => openBranch tokens
  | .loop => openLoop tokens cursor
  | .method => define tokens cursor

/-- Executes a keyword that closes a block. -/
def closeBlock (construct : Construct) (tokens : List String) : Move Unit :=
  match construct with
  | .branch => closeBranch tokens
  | .loop => closeLoop tokens
  | .method => closeMethod tokens

/-- Executes a command with its substituted tokens. -/
def perform (command : Command) (tokens : List String) : Move (Option Instruction) :=
  match command with
  | .assignment => do
    assign tokens
    pure none
  | .call => do
    call tokens
    pure none
  | .keyword (.opens construct) => do
    openBlock construct tokens (← get).cursor
    pure none
  | .keyword (.closes construct) => do
    closeBlock construct tokens
    pure none
  | .keyword keyword => do
    let instruction ← check (Instruction.ofLine keyword tokens)
    pure (some instruction)

/-- Executes a line at the cursor. -/
def execute (line : Line) : Move (Option Instruction) := do
  if line.isEmpty then pure none
  else if (← get).store.flow.suspended then
    skip line.tokens
    pure none
  else
    let (command, tokens) ← inspect (·.interpret line.tokens)
    perform command tokens

end Sketch.Store
