import Sketch.Action
import Sketch.Assignment
import Sketch.Bracketed
import Sketch.Check
import Sketch.Command
import Sketch.Condition
import Sketch.Drawing.Canvas
import Sketch.Drawing.Color
import Sketch.Drawing.Instruction
import Sketch.Drawing.Primitive
import Sketch.Engine
import Sketch.Execution.Block
import Sketch.Execution.Line
import Sketch.Execution.Method
import Sketch.Failure
import Sketch.Fault
import Sketch.Flow
import Sketch.Host.Batch
import Sketch.Host.Directive
import Sketch.Host.Disk
import Sketch.Host.Exchange
import Sketch.Host.ProgramFile
import Sketch.Host.Session
import Sketch.Keyword
import Sketch.Line
import Sketch.Main
import Sketch.Methods
import Sketch.Name
import Sketch.Number
import Sketch.Operand
import Sketch.Program
import Sketch.Proofs.Assignments
import Sketch.Proofs.Atomicity
import Sketch.Proofs.Blocks
import Sketch.Proofs.Brackets
import Sketch.Proofs.Classification
import Sketch.Proofs.Computation
import Sketch.Proofs.Control
import Sketch.Proofs.Cursor
import Sketch.Proofs.Cuts
import Sketch.Proofs.Definitions
import Sketch.Proofs.Environment
import Sketch.Proofs.Evaluation
import Sketch.Proofs.Failures
import Sketch.Proofs.Files
import Sketch.Proofs.Geometry
import Sketch.Proofs.Inlining
import Sketch.Proofs.Interruption
import Sketch.Proofs.Iterations
import Sketch.Proofs.Layout
import Sketch.Proofs.Moves
import Sketch.Proofs.Names
import Sketch.Proofs.Prediction
import Sketch.Proofs.Printing
import Sketch.Proofs.Prompt
import Sketch.Proofs.Reachable
import Sketch.Proofs.Relocation
import Sketch.Proofs.Replay
import Sketch.Proofs.Returns
import Sketch.Proofs.RunLoops
import Sketch.Proofs.Signatures
import Sketch.Proofs.Skipping
import Sketch.Proofs.Stacks
import Sketch.Proofs.Steps
import Sketch.Proofs.StraightLine
import Sketch.Proofs.Stretches
import Sketch.Proofs.Structure
import Sketch.Proofs.Termination
import Sketch.Proofs.Tokenizing
import Sketch.Proofs.Tokens
import Sketch.Proofs.Validation
import Sketch.Proofs.Words
import Sketch.Report
import Sketch.Stack
import Sketch.Store
import Sketch.Text.Blank
import Sketch.Text.Case
import Sketch.Text.Hidden
import Sketch.Text.Quoted
import Sketch.Text.Split
import Sketch.Variables
