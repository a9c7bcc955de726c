import Sketch.Operand

/-!
# Assignments

An assignment gives a name a value, or the result of one operation on two values. The parts are
checked from left to right and the first fault counts. Arithmetic is exact: division goes toward
zero, a division by zero is a fault, and so is a result that is not a number of the language.
-/

namespace Sketch

/-- The operations of an assignment. -/
inductive Operator where
  | add
  | subtract
  | multiply
  | divide
  deriving DecidableEq, Repr

namespace Operator

/-- The operator with this spelling. -/
def ofText? : String → Option Operator
  | "+" => some .add
  | "-" => some .subtract
  | "*" => some .multiply
  | "/" => some .divide
  | _ => none

/-- The exact result of an operation on integers. -/
def result : Operator → Int → Int → Int
  | .add, a, b => a + b
  | .subtract, a, b => a - b
  | .multiply, a, b => a * b
  | .divide, a, b => a.tdiv b

/-- The result of an operation on numbers. -/
def apply (operator : Operator) (a b : Number) : Except Fault Number :=
  if operator = .divide ∧ b.toInt = 0 then .error .divisionByZero
  else
    match Number.ofInt? (operator.result a.toInt b.toInt) with
    | some n => .ok n
    | none => .error .overflow

end Operator

/-- An assignment of a value, or of the result of an operation on it. -/
structure Assignment where
  name : String
  value : Number
  operation : Option (Operator × Number)
  deriving DecidableEq, Repr

namespace Assignment

/-- The operation after the first value of an assignment. -/
def parseOperation : List String → Except Fault (Option (Operator × Number))
  | [] => .ok none
  | word :: rest =>
    match Operator.ofText? word with
    | none => .error (.unknownOperator word)
    | some operator =>
      match rest with
      | [] => .error .missingOperand
      | operand :: rest => do
        let b ← Number.read operand
        if rest.isEmpty then .ok (some (operator, b)) else .error .trailingTokens

/-- Reads an assignment. -/
def parse : List String → Except Fault Assignment
  | name :: equals :: value :: rest => do
    Name.check name
    if equals = "=" then
      let a ← Number.read value
      let operation ← parseOperation rest
      .ok ⟨name, a, operation⟩
    else .error .missingEquals
  | _ => .error .assignmentShape

/-- The value that the assignment gives to its name. -/
def evaluate (assignment : Assignment) : Except Fault Number :=
  match assignment.operation with
  | none => .ok assignment.value
  | some (operator, b) => operator.apply assignment.value b

end Assignment

end Sketch
