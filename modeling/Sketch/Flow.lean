import Sketch.Keyword
import Sketch.Program
import Sketch.Variables

/-!
# Control flow

Four stacks hold what is open at a point of a run: the blocks, the loops among them, the calls and
the definitions. A block is being executed, or it is skipped because its header said so, or it
stands inside a block that is skipped and is only counted.
-/

namespace Sketch

/-- What is done with the lines of an open block. -/
inductive Mode where
  /-- the lines are executed -/
  | executing
  /-- the header of the block decided that its lines are skipped -/
  | skipping
  /-- the block stands inside a skipped one, and its own header was not looked at -/
  | nested
  deriving DecidableEq, Repr

/-- An open block. -/
structure Frame where
  construct : Construct
  mode : Mode
  deriving DecidableEq, Repr

/-- An open call: the method, and the address of the line that called it. -/
structure Call where
  method : String
  returnTo : Address
  deriving DecidableEq, Repr

/-- The room for open blocks. -/
def frameBound : Bound := ⟨entryLimit, "BLOCKS TOO DEEPLY NESTED"⟩

/-- The room for open loops. -/
def loopBound : Bound := ⟨entryLimit, "LOOPS TOO DEEPLY NESTED"⟩

/-- The room for open calls. -/
def callBound : Bound := ⟨callLimit, "CALL STACK OVERFLOW"⟩

/-- The room for open definitions. -/
def definitionBound : Bound := ⟨entryLimit, "METHODS TOO DEEPLY NESTED"⟩

/-- The heights of the four stacks. -/
structure Mark where
  frames : Nat
  loops : Nat
  calls : Nat
  definitions : Nat
  deriving DecidableEq, Repr

/-- What is open: blocks, loops with the address of the header to go back to (none for a loop
whose condition failed), calls, and the names of the methods being defined. -/
structure Flow where
  frames : Stack Frame
  loops : Stack (Option Address)
  calls : Stack Call
  definitions : Stack String
  deriving DecidableEq

namespace Flow

/-- Nothing is open. -/
def empty : Flow := ⟨.empty, .empty, .empty, .empty⟩

instance : Inhabited Flow := ⟨empty⟩

/-- The innermost open block. -/
def top? (flow : Flow) : Option Frame :=
  flow.frames.top?

/-- Lines are skipped while the innermost open block is not executed. -/
def suspended (flow : Flow) : Bool :=
  match flow.top? with
  | some frame => frame.mode != .executing
  | none => false

/-- Opens a block. -/
def push (flow : Flow) (frame : Frame) : Except Fault Flow :=
  (flow.frames.push frameBound frame).map fun frames => { flow with frames }

/-- Opens a block inside a skipped one. -/
def nest (flow : Flow) (construct : Construct) : Except Fault Flow :=
  flow.push ⟨construct, .nested⟩

/-- Closes the innermost block. -/
def pop (flow : Flow) : Except Fault (Frame × Flow) :=
  flow.frames.pop.map fun (frame, frames) => (frame, { flow with frames })

/-- Closes the innermost block if it is of this construct. -/
def popIf (flow : Flow) (construct : Construct) : Except Fault (Option Frame × Flow) :=
  match flow.top? with
  | some frame =>
    if frame.construct = construct then flow.pop.map fun (frame, flow) => (some frame, flow)
    else .ok (none, flow)
  | none => .ok (none, flow)

/-- Opens a loop. -/
def pushLoop (flow : Flow) (rewind : Option Address) : Except Fault Flow :=
  (flow.loops.push loopBound rewind).map fun loops => { flow with loops }

/-- Closes the innermost loop and tells where it goes back to. -/
def popLoop (flow : Flow) : Except Fault (Option Address × Flow) :=
  flow.loops.pop.map fun (rewind, loops) => (rewind, { flow with loops })

/-- Opens a call. -/
def pushCall (flow : Flow) (call : Call) : Except Fault Flow :=
  (flow.calls.push callBound call).map fun calls => { flow with calls }

/-- Closes the innermost call. -/
def popCall (flow : Flow) : Except Fault (Call × Flow) :=
  flow.calls.pop.map fun (call, calls) => (call, { flow with calls })

/-- Opens the definition of a method. -/
def beginDefinition (flow : Flow) (method : String) : Except Fault Flow :=
  (flow.definitions.push definitionBound method).map fun definitions => { flow with definitions }

/-- Closes the innermost definition, if there is one, and tells which method it defines. -/
def endDefinition (flow : Flow) : Option String × Flow :=
  match flow.definitions.pop with
  | .ok (method, definitions) => (some method, { flow with definitions })
  | .error _ => (none, flow)

/-- The heights of the four stacks. -/
def mark (flow : Flow) : Mark :=
  ⟨flow.frames.height, flow.loops.height, flow.calls.height, flow.definitions.height⟩

/-- Closes everything that was opened since the mark was taken. -/
def unwind (flow : Flow) (mark : Mark) : Flow where
  frames := flow.frames.truncate mark.frames
  loops := flow.loops.truncate mark.loops
  calls := flow.calls.truncate mark.calls
  definitions := flow.definitions.truncate mark.definitions

end Flow

end Sketch
