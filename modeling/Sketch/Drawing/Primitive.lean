import Sketch.Drawing.Color
import Sketch.Number
import Sketch.Text.Quoted

/-!
# Primitives

What a drawing consists of. A drawing is a sequence of primitives, and each of them has a text of
one line.
-/

namespace Sketch

/-- A point of the drawing. -/
structure Point where
  x : Number
  y : Number
  deriving DecidableEq, Repr

/-- The text of a point. -/
def Point.text (p : Point) : String :=
  Number.text p.x ++ "," ++ Number.text p.y

/-- An upright rectangle, given by a corner and its sides. -/
structure Box where
  corner : Point
  width : Number
  height : Number
  deriving DecidableEq, Repr

/-- The text of a box. -/
def Box.text (b : Box) : String :=
  b.corner.text ++ " " ++ Number.text b.width ++ "x" ++ Number.text b.height

/-- A mark on the drawing. -/
inductive Primitive where
  /-- the pen goes to a point without drawing -/
  | move (target : Point)
  /-- a straight line -/
  | line (source target : Point) (color : Color)
  /-- the ellipse inside a box -/
  | ellipse (bounds : Box) (color : Color) (filled : Bool)
  /-- a box -/
  | rectangle (bounds : Box) (color : Color) (filled : Bool)
  /-- a closed line through the corners -/
  | polygon (corners : List Point) (color : Color) (filled : Bool)
  /-- a text at a point -/
  | text (place : Point) (size : Number) (content : String) (color : Color)
  /-- everything drawn so far is wiped away -/
  | clear
  deriving DecidableEq, Repr

namespace Primitive

/-- The end of the text of a figure that can be filled. -/
def fillText : Bool → String
  | true => " FILL"
  | false => ""

/-- The text of a primitive. -/
def render : Primitive → String
  | .move target => "MOVE " ++ target.text
  | .line source target color =>
    "LINE " ++ source.text ++ " " ++ target.text ++ " " ++ color.text
  | .ellipse bounds color filled =>
    "ELLIPSE " ++ bounds.text ++ " " ++ color.text ++ fillText filled
  | .rectangle bounds color filled =>
    "RECTANGLE " ++ bounds.text ++ " " ++ color.text ++ fillText filled
  | .polygon corners color filled =>
    "POLYGON" ++ String.join (corners.map fun p => " " ++ p.text) ++ " " ++ color.text ++
      fillText filled
  | .text place size content color =>
    "TEXT " ++ place.text ++ " " ++ Number.text size ++ " " ++ color.text ++ " " ++
      Text.quote content
  | .clear => "CLEAR"

end Primitive

end Sketch
