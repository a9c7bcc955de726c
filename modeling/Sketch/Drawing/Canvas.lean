import Sketch.Drawing.Primitive

/-!
# Pen and picture

The pen has a position, a color and a switch for filling figures. A canvas is the pen together
with the primitives drawn so far, oldest first.
-/

namespace Sketch

/-- Where the pen is and how it draws. -/
structure Pen where
  position : Point
  color : Color
  filling : Bool
  deriving DecidableEq, Repr

namespace Pen

/-- The pen at the origin, black and not filling. -/
def initial : Pen := ⟨⟨0, 0⟩, .black, false⟩

instance : Inhabited Pen := ⟨initial⟩

/-- What is shown of the pen, line by line. -/
def status (pen : Pen) : List String :=
  ["Position: \x7bX=" ++ Number.text pen.position.x ++ ", Y=" ++ Number.text pen.position.y ++
      "\x7d",
    "Fill: " ++ (if pen.filling then "ON" else "OFF"),
    "Color: " ++ pen.color.text]

end Pen

/-- The pen and what it has drawn. -/
structure Canvas where
  pen : Pen
  picture : Array Primitive
  deriving DecidableEq

namespace Canvas

/-- A fresh pen and an empty picture. -/
def blank : Canvas := ⟨.initial, #[]⟩

instance : Inhabited Canvas := ⟨blank⟩

/-- Adds a primitive to the picture. -/
def add (canvas : Canvas) (primitive : Primitive) : Canvas :=
  { canvas with picture := canvas.picture.push primitive }

/-- Puts the pen back to its initial state. -/
def resetPen (canvas : Canvas) : Canvas :=
  { canvas with pen := .initial }

end Canvas

end Sketch
