import Sketch.Keyword

/-!
# Faults

What can be wrong with a line or with the state it meets. A `Fault` is a cause, with the words
and names that it is about. Its `kind` and its `detail` are read off the cause.
-/

namespace Sketch

/-- The kinds of errors that are told apart by a number. -/
inductive Kind where
  | syntaxError
  | illegalFunctionCall
  | overflow
  | outOfMemory
  | duplicateDefinition
  | divisionByZero
  | typeMismatch
  | undefinedMethod
  | missingOperand
  | unsupportedCommand
  | undefinedVariable
  | internalError
  | fileNotFound
  deriving DecidableEq, Repr

namespace Kind

/-- The number of a kind of errors. -/
def code : Kind → Nat
  | .syntaxError => 2
  | .illegalFunctionCall => 5
  | .overflow => 6
  | .outOfMemory => 7
  | .duplicateDefinition => 10
  | .divisionByZero => 11
  | .typeMismatch => 13
  | .undefinedMethod => 18
  | .missingOperand => 22
  | .unsupportedCommand => 24
  | .undefinedVariable => 25
  | .internalError => 51
  | .fileNotFound => 53

/-- The title under which an error of this kind is reported. -/
def title : Kind → String
  | .syntaxError => "SYNTAX ERROR"
  | .illegalFunctionCall => "ILLEGAL FUNCTION CALL"
  | .overflow => "OVERFLOW"
  | .outOfMemory => "OUT OF MEMORY"
  | .duplicateDefinition => "DUPLICATE DEFINITION"
  | .divisionByZero => "DIVISION BY ZERO"
  | .typeMismatch => "TYPE MISMATCH"
  | .undefinedMethod => "UNDEFINED METHOD"
  | .missingOperand => "MISSING OPERAND"
  | .unsupportedCommand => "UNSUPPORTED COMMAND"
  | .undefinedVariable => "UNDEFINED VARIABLE"
  | .internalError => "INTERNAL ERROR"
  | .fileNotFound => "FILE NOT FOUND"

end Kind

/-- How many entries a part of the state may hold, and what is said when there is no room for
another one. -/
structure Bound where
  size : Nat
  notice : String
  deriving DecidableEq, Repr

/-- The sizes that have to be positive. -/
inductive Measure where
  | radius
  | width
  | height
  | base
  | textSize
  deriving DecidableEq, Repr

/-- The word for a size. -/
def Measure.text : Measure → String
  | .radius => "RADIUS"
  | .width => "WIDTH"
  | .height => "HEIGHT"
  | .base => "BASE"
  | .textSize => "SIZE"

/-- The cause of an error. -/
inductive Fault where
  /-- the first word is a keyword but for its case -/
  | notUppercase
  /-- an assignment has fewer than three tokens -/
  | assignmentShape
  /-- a word that should name something has not the form of a name -/
  | invalidName (word : String)
  /-- a keyword stands where something is named -/
  | reservedWord (word : String)
  /-- the second token of an assignment is not the equals sign -/
  | missingEquals
  /-- no operator or comparison is spelled like this -/
  | unknownOperator (word : String)
  /-- tokens follow a complete expression -/
  | trailingTokens
  /-- a condition has not the form value, comparison, value -/
  | conditionShape (keyword : Keyword)
  /-- a method header has not the form of a name with parameters in brackets -/
  | headerShape
  /-- a parameter is listed twice -/
  | duplicateParameter (name : String)
  /-- a call has not the form of a name with arguments in brackets -/
  | callShape
  /-- arguments follow a keyword that takes none -/
  | takesNoArguments (keyword : Keyword)
  /-- the number of arguments is not `count` -/
  | expectsExactly (keyword : Keyword) (count : Nat)
  /-- the number of arguments is not between `fewest` and `most` -/
  | expectsBetween (keyword : Keyword) (fewest most : Nat)
  /-- the argument is not a color -/
  | unknownColor
  /-- the argument is neither on nor off -/
  | unknownSwitch
  /-- the text to write does not stand in quotes -/
  | unquotedText
  /-- a call passes more or fewer arguments than the method has parameters -/
  | argumentCount
  /-- a size is zero or negative -/
  | notPositive (measure : Measure)
  /-- the exact result is not a number of the language -/
  | overflow
  /-- there is no room for another entry -/
  | full (bound : Bound)
  /-- another line already defines a method of this name -/
  | alreadyDefined (name : String)
  /-- a division by zero -/
  | divisionByZero
  /-- the token is not a decimal literal in range -/
  | notInteger (word : String)
  /-- no method has this name -/
  | undefinedMethod (name : String)
  /-- an operator without its second operand -/
  | missingOperand
  /-- the first word is no command -/
  | unsupported (word : String)
  /-- no variable has this name -/
  | undefinedVariable (name : String)
  /-- a line without tokens has no command -/
  | emptyLine
  /-- an entry was taken from an empty stack -/
  | underflow
  /-- the keyword is not a drawing tool -/
  | notDrawing (keyword : Keyword)
  /-- the method of a call that has been read is not in the table -/
  | methodVanished
  /-- a called method runs on beyond the lines of the program -/
  | bodyMissing
  deriving DecidableEq, Repr

namespace Fault

/-- The kind of error that a cause is reported as. -/
def kind : Fault → Kind
  | .notUppercase | .assignmentShape | .invalidName _ | .reservedWord _ | .missingEquals
  | .unknownOperator _ | .trailingTokens | .conditionShape _ | .headerShape
  | .duplicateParameter _ | .callShape | .takesNoArguments _ | .expectsExactly _ _
  | .expectsBetween _ _ _ | .unknownColor | .unknownSwitch | .unquotedText => .syntaxError
  | .argumentCount | .notPositive _ => .illegalFunctionCall
  | .overflow => .overflow
  | .full _ => .outOfMemory
  | .alreadyDefined _ => .duplicateDefinition
  | .divisionByZero => .divisionByZero
  | .notInteger _ => .typeMismatch
  | .undefinedMethod _ => .undefinedMethod
  | .missingOperand => .missingOperand
  | .unsupported _ => .unsupportedCommand
  | .undefinedVariable _ => .undefinedVariable
  | .emptyLine | .underflow | .notDrawing _ | .methodVanished | .bodyMissing => .internalError

/-- What is said about the cause beside its kind; nothing where the kind says it all. -/
def detail : Fault → String
  | .notUppercase => "COMMANDS MUST BE UPPERCASE"
  | .assignmentShape => "EXPECTED NAME = VALUE"
  | .invalidName word => word ++ " IS NOT A VALID NAME"
  | .reservedWord word => word ++ " IS A RESERVED WORD"
  | .missingEquals => "EXPECTED ="
  | .unknownOperator word => "UNKNOWN OPERATOR " ++ word
  | .trailingTokens => "UNEXPECTED TOKENS AFTER EXPRESSION"
  | .conditionShape keyword => "EXPECTED " ++ keyword.text ++ " VALUE OPERATOR VALUE"
  | .headerShape => "EXPECTED METHOD NAME(PARAMETERS)"
  | .duplicateParameter name => "DUPLICATE PARAMETER " ++ name
  | .callShape => "EXPECTED NAME(ARGUMENTS)"
  | .takesNoArguments keyword => keyword.text ++ " TAKES NO ARGUMENTS"
  | .expectsExactly keyword count =>
    keyword.text ++ " EXPECTS " ++ toString count ++ " ARGUMENTS"
  | .expectsBetween keyword fewest most =>
    keyword.text ++ " EXPECTS " ++ toString fewest ++ " TO " ++ toString most ++ " ARGUMENTS"
  | .unknownColor => "EXPECTED BLACK, BLUE, RED OR GREEN"
  | .unknownSwitch => "EXPECTED ON OR OFF"
  | .unquotedText => "TEXT MUST BE QUOTED"
  | .argumentCount => "WRONG NUMBER OF ARGUMENTS"
  | .notPositive measure => measure.text ++ " MUST BE POSITIVE"
  | .overflow => ""
  | .full bound => bound.notice
  | .alreadyDefined name => name ++ " IS ALREADY DEFINED"
  | .divisionByZero => ""
  | .notInteger word => word ++ " IS NOT AN INTEGER"
  | .undefinedMethod name => name ++ " IS NOT DEFINED"
  | .missingOperand => ""
  | .unsupported word => word ++ " IS NOT A COMMAND"
  | .undefinedVariable name => name ++ " IS NOT DEFINED"
  | .emptyLine => "EMPTY LINE"
  | .underflow => "UNDERFLOW"
  | .notDrawing keyword => keyword.text ++ " IS NOT A DRAWING COMMAND"
  | .methodVanished => "METHOD VANISHED"
  | .bodyMissing => "METHOD BODY NOT IN PROGRAM"

end Fault

end Sketch
