import Sketch.Text.Case

/-!
# Colors

The colors of the pen. They are read in any case and written with a capital.
-/

namespace Sketch

/-- A color of the pen. -/
inductive Color where
  | black
  | blue
  | red
  | green
  deriving DecidableEq, Repr

namespace Color

/-- The name of a color. -/
def text : Color → String
  | .black => "Black"
  | .blue => "Blue"
  | .red => "Red"
  | .green => "Green"

/-- The color that a word stands for, whatever its case. -/
def ofWord? (word : String) : Option Color :=
  match Text.upper word with
  | "BLACK" => some .black
  | "BLUE" => some .blue
  | "RED" => some .red
  | "GREEN" => some .green
  | _ => none

end Color

end Sketch
