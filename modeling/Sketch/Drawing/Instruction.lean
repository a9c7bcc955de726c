import Sketch.Drawing.Canvas
import Sketch.Operand

/-!
# Drawing instructions

A line with a drawing tool is read into an instruction, and an instruction is carried out on a
canvas. Reading checks everything: the number of arguments, that they are integers, and that sizes
are positive. Carrying out cannot fail; coordinates and sizes that would leave the range of numbers
stop at its end.
-/

namespace Sketch

/-- A drawing instruction. -/
inductive Instruction where
  /-- take the pen to a point -/
  | move (target : Point)
  /-- draw a line to `x`, and to `y` or along the present height -/
  | draw (x : Number) (y : Option Number)
  /-- draw a circle around the pen -/
  | circle (radius : Number)
  /-- draw a rectangle from the pen -/
  | rectangle (width height : Number)
  /-- draw a triangle over a base that begins at the pen -/
  | triangle (base height : Number)
  /-- take up another color -/
  | color (color : Color)
  /-- fill figures, or leave them open -/
  | fill (filling : Bool)
  /-- wipe the picture -/
  | clear
  /-- put the pen back to its initial state -/
  | reset
  /-- write a text at the pen -/
  | write (size : Number) (content : String)
  deriving DecidableEq, Repr

namespace Instruction

/-- The size of a text for which none is given. -/
def defaultTextSize : Number := 12

/-- A size: a positive integer. -/
def readSize (measure : Measure) (word : String) : Except Fault Number := do
  let n ← Number.read word
  if 0 < n.toInt then .ok n else .error (.notPositive measure)

/-- The text between the quotes at both ends of a token. -/
def unquote? (word : String) : Option String :=
  match word.toList with
  | '"' :: rest => if rest.getLast? = some '"' then some (String.ofList rest.dropLast) else none
  | _ => none

/-- A quoted text. -/
def readQuoted (word : String) : Except Fault String :=
  match unquote? word with
  | some content => .ok content
  | none => .error .unquotedText

/-- The switch that a word stands for, whatever its case. -/
def readSwitch (word : String) : Except Fault Bool :=
  match Text.upper word with
  | "ON" => .ok true
  | "OFF" => .ok false
  | _ => .error .unknownSwitch

/-- A color word. -/
def readColor (word : String) : Except Fault Color :=
  match Color.ofWord? word with
  | some shade => .ok shade
  | none => .error .unknownColor

/-- What a text that is given alone writes: an integer its decimal text, a quoted text itself. -/
def readContent (word : String) : Except Fault String :=
  match Number.parse? word with
  | some n => .ok (Number.text n)
  | none => readQuoted word

/-- Reads the arguments of a drawing tool. -/
def parse : Tool → List String → Except Fault Instruction
  | .move, [x, y] => do
    let x ← Number.read x
    let y ← Number.read y
    .ok (.move ⟨x, y⟩)
  | .move, _ => .error (.expectsExactly (.draws .move) 2)
  | .draw, [x] => do
    let x ← Number.read x
    .ok (.draw x none)
  | .draw, [x, y] => do
    let y ← Number.read y
    let x ← Number.read x
    .ok (.draw x (some y))
  | .draw, _ => .error (.expectsBetween (.draws .draw) 1 2)
  | .circle, [radius] => do
    let radius ← readSize .radius radius
    .ok (.circle radius)
  | .circle, _ => .error (.expectsExactly (.draws .circle) 1)
  | .rectangle, [width, height] => do
    let width ← readSize .width width
    let height ← readSize .height height
    .ok (.rectangle width height)
  | .rectangle, _ => .error (.expectsExactly (.draws .rectangle) 2)
  | .triangle, [base, height] => do
    let base ← readSize .base base
    let height ← readSize .height height
    .ok (.triangle base height)
  | .triangle, _ => .error (.expectsExactly (.draws .triangle) 2)
  | .color, [word] => do
    let shade ← readColor word
    .ok (.color shade)
  | .color, _ => .error (.expectsExactly (.draws .color) 1)
  | .fill, [word] => do
    let filling ← readSwitch word
    .ok (.fill filling)
  | .fill, _ => .error (.expectsExactly (.draws .fill) 1)
  | .clear, [] => .ok .clear
  | .clear, _ => .error (.takesNoArguments (.draws .clear))
  | .reset, [] => .ok .reset
  | .reset, _ => .error (.takesNoArguments (.draws .reset))
  | .write, [content] => do
    let content ← readContent content
    .ok (.write defaultTextSize content)
  | .write, [size, content] => do
    let size ← readSize .textSize size
    let content ← readQuoted content
    .ok (.write size content)
  | .write, _ => .error (.expectsBetween (.draws .write) 1 2)

/-- Reads a line that should have a drawing tool as its keyword. -/
def ofLine (keyword : Keyword) (tokens : List String) : Except Fault Instruction :=
  match keyword with
  | .draws tool => parse tool tokens.tail
  | _ => .error (.notDrawing keyword)

/-! ## Carrying out -/

/-- The box of a circle around a point. -/
def circleBox (center : Point) (radius : Number) : Box where
  corner :=
    ⟨Number.clamp (center.x.toInt - radius.toInt), Number.clamp (center.y.toInt - radius.toInt)⟩
  width := Number.clamp (2 * radius.toInt)
  height := Number.clamp (2 * radius.toInt)

/-- The corners of a triangle over a base that begins at a point. -/
def triangleCorners (left : Point) (base height : Number) : List Point :=
  [left,
    ⟨Number.clamp (left.x.toInt + base.toInt), left.y⟩,
    ⟨Number.clamp (left.x.toInt + base.toInt.tdiv 2), Number.clamp (left.y.toInt - height.toInt)⟩]

end Instruction

/-- The canvas after an instruction has been carried out. -/
def Canvas.perform (canvas : Canvas) : Instruction → Canvas
  | .move target =>
    { canvas with pen := { canvas.pen with position := target } }.add (.move target)
  | .draw x y =>
    let source := canvas.pen.position
    let target : Point := ⟨x, y.getD source.y⟩
    { canvas with pen := { canvas.pen with position := target } }.add
      (.line source target canvas.pen.color)
  | .circle radius =>
    canvas.add (.ellipse (Instruction.circleBox canvas.pen.position radius) canvas.pen.color
      canvas.pen.filling)
  | .rectangle width height =>
    canvas.add (.rectangle ⟨canvas.pen.position, width, height⟩ canvas.pen.color canvas.pen.filling)
  | .triangle base height =>
    canvas.add (.polygon (Instruction.triangleCorners canvas.pen.position base height)
      canvas.pen.color canvas.pen.filling)
  | .color color => { canvas with pen := { canvas.pen with color } }
  | .fill filling => { canvas with pen := { canvas.pen with filling } }
  | .clear => canvas.add .clear
  | .reset => canvas.resetPen
  | .write size content => canvas.add (.text canvas.pen.position size content canvas.pen.color)

end Sketch
