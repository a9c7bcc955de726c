import Sketch.Operand

/-!
# Conditions

The header of a branch or of a loop compares two values.
-/

namespace Sketch

/-- The comparisons of a condition. -/
inductive Comparison where
  | greater
  | less
  | equal
  | notEqual
  | greaterEqual
  | lessEqual
  deriving DecidableEq, Repr

namespace Comparison

/-- The comparison with this spelling. -/
def ofText? : String → Option Comparison
  | ">" => some .greater
  | "<" => some .less
  | "==" => some .equal
  | "!=" => some .notEqual
  | ">=" => some .greaterEqual
  | "<=" => some .lessEqual
  | _ => none

/-- Whether two integers compare like this. -/
def holds : Comparison → Int → Int → Bool
  | .greater, a, b => a > b
  | .less, a, b => a < b
  | .equal, a, b => a = b
  | .notEqual, a, b => a ≠ b
  | .greaterEqual, a, b => a ≥ b
  | .lessEqual, a, b => a ≤ b

end Comparison

/-- A comparison of two values. -/
structure Condition where
  left : Number
  comparison : Comparison
  right : Number
  deriving DecidableEq, Repr

namespace Condition

/-- Reads the condition of a header. The first token is the keyword itself. -/
def parse (keyword : Keyword) : List String → Except Fault Condition
  | [_, left, word, right] => do
    let a ← Number.read left
    match Comparison.ofText? word with
    | none => .error (.unknownOperator word)
    | some comparison =>
      let b ← Number.read right
      .ok ⟨a, comparison, b⟩
  | _ => .error (.conditionShape keyword)

/-- Whether the condition holds. -/
def holds (condition : Condition) : Bool :=
  condition.comparison.holds condition.left.toInt condition.right.toInt

end Condition

end Sketch
