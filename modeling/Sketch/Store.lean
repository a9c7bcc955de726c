import Sketch.Command
import Sketch.Flow
import Sketch.Methods

/-!
# The store

The state of a run: variables, methods and what is open. A token of a line is read against it:
`resolve` gives the number that a token stands for, and `substitute` replaces the variables among
the arguments of a line by their values.
-/

namespace Sketch

/-- The state of a run. -/
structure Store where
  vars : Variables
  methods : Methods
  flow : Flow

/-- How far the stacks of a store had grown at a point of a run. -/
structure Checkpoint where
  flow : Mark
  scopes : Nat
  deriving DecidableEq, Repr

namespace Store

/-- The state at the start of a run. -/
def empty : Store := ⟨.empty, .empty, .empty⟩

instance : Inhabited Store := ⟨empty⟩

/-- The number that a token stands for: its own value if it is a literal, else that of the
variable. -/
def resolve (store : Store) (token : String) : Except Fault Number :=
  match Number.parse? token with
  | some n => .ok n
  | none =>
    match store.vars.lookup? token with
    | some n => .ok n
    | none => .error (.undefinedVariable token)

/-- An argument with a variable replaced by its value. Literals and tokens with a reserved
character stay as they are. -/
def substituteToken (store : Store) (token : String) : Except Fault String :=
  if Number.isLiteral token || Name.hasReserved token then .ok token
  else (store.resolve token).map Number.text

/-- The tokens of a line with the variables among its arguments replaced by their values. -/
def substitute (store : Store) (command : Command) : List String → Except Fault (List String)
  | [] => .ok []
  | first :: arguments =>
    if command.substitutes then (arguments.mapM store.substituteToken).map (first :: ·)
    else .ok (first :: arguments)

/-- How far the stacks have grown. -/
def checkpoint (store : Store) : Checkpoint :=
  ⟨store.flow.mark, store.vars.depth⟩

/-- Closes all that was opened since the checkpoint. -/
def unwind (store : Store) (checkpoint : Checkpoint) : Store :=
  { store with
    flow := store.flow.unwind checkpoint.flow
    vars := store.vars.unwind checkpoint.scopes }

end Store

end Sketch
