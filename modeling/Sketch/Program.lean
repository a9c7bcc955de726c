import Sketch.Line
import Sketch.Text.Split

/-!
# Programs

A program is a sequence of lines. Blank lines are kept, so that a line is found under the number
that it has in its text. An `Address` is a position in a program; the arithmetic of addresses wraps
around at its end, so that the address before the first one is the last one.
-/

namespace Sketch

/-- A position in a program, counted from zero. -/
abbrev Address := UInt64

namespace Address

/-- The last address. -/
def last : Address := 0xffffffffffffffff

/-- The line number of an address: counted from one, and not beyond the last address. -/
def number (a : Address) : Nat :=
  min (a.toNat + 1) last.toNat

end Address

/-- A sequence of lines. -/
structure Program where
  lines : Array Line
  deriving DecidableEq

namespace Program

/-- The program without lines. -/
def empty : Program := ⟨#[]⟩

/-- The program whose lines are those of the text. -/
def parse (source : String) : Program :=
  ⟨((Text.lines source).map Line.ofText).toArray⟩

/-- The program with these lines. -/
def ofLines (lines : List String) : Program :=
  ⟨(lines.map Line.ofText).toArray⟩

/-- The number of lines. -/
def size (program : Program) : Nat :=
  program.lines.size

/-- The program with one more line at its end. -/
def push (program : Program) (line : Line) : Program :=
  ⟨program.lines.push line⟩

/-- The line at an address. -/
def line? (program : Program) (a : Address) : Option Line :=
  program.lines[a.toNat]?

/-- The text of a program: its lines, each followed by a line feed. -/
def text (program : Program) : String :=
  String.join (program.lines.toList.map fun line => line.text ++ "\n")

end Program

end Sketch
