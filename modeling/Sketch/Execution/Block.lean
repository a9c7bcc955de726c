import Sketch.Action
import Sketch.Condition

/-!
# Branches and loops

The block of a branch is executed or skipped as its condition says. The block of a loop is executed
while its condition holds: its closing line goes to the line before the header, from where the
header comes next. A closing line that does not match the innermost block does nothing.
-/

namespace Sketch.Store

open Sketch.Action Sketch.Move

/-- Opens a branch, whose block is executed if the condition holds. -/
def openBranch (tokens : List String) : Action Unit := do
  let condition ← check (Condition.parse (.opens .branch) tokens)
  onFlow (·.push ⟨.branch, if condition.holds then .executing else .skipping⟩)

/-- Closes a branch. -/
def closeBranch (tokens : List String) : Action Unit := do
  check (Keyword.checkAlone (.closes .branch) tokens)
  let _ ← closeIf .branch

/-- Opens a loop at an address, to which its closing line goes back if the condition holds. -/
def openLoop (tokens : List String) (cursor : Address) : Action Unit := do
  let condition ← check (Condition.parse (.opens .loop) tokens)
  if condition.holds then
    onFlow (·.push ⟨.loop, .executing⟩)
    onFlow (·.pushLoop (some cursor))
  else
    onFlow (·.push ⟨.loop, .skipping⟩)
    onFlow (·.pushLoop none)

/-- Closes a loop and goes to the line before its header. -/
def closeLoop (tokens : List String) : Move Unit := do
  check (Keyword.checkAlone (.closes .loop) tokens)
  match ← closeIf .loop with
  | none => pure ()
  | some _ =>
    match ← takeFlow Flow.popLoop with
    | some header => goTo (header - 1)
    | none => pure ()

end Sketch.Store
