/-!
# Keywords

The words that begin a line: ten drawing tools, and an opener and a closer for each of the three
block constructs. Keywords are case-sensitive. Main statement: `Keyword.ofText?_eq_some_iff`, a
text is the keyword with that spelling and no other.
-/

namespace Sketch

/-- The block constructs. -/
inductive Construct where
  /-- runs its block when a condition holds -/
  | branch
  /-- repeats its block while a condition holds -/
  | loop
  /-- names its block, which runs when it is called -/
  | method
  deriving DecidableEq, Repr

namespace Construct

/-- The word that opens a block of this construct. -/
def text : Construct → String
  | .branch => "IF"
  | .loop => "WHILE"
  | .method => "METHOD"

end Construct

/-- The drawing tools: what a line can do to the pen or the picture. -/
inductive Tool where
  | move
  | draw
  | circle
  | rectangle
  | triangle
  | color
  | fill
  | clear
  | reset
  | write
  deriving DecidableEq, Repr

namespace Tool

/-- The spelling of a tool. -/
def text : Tool → String
  | .move => "MOVE"
  | .draw => "DRAW"
  | .circle => "CIRCLE"
  | .rectangle => "RECTANGLE"
  | .triangle => "TRIANGLE"
  | .color => "COLOR"
  | .fill => "FILL"
  | .clear => "CLEAR"
  | .reset => "RESET"
  | .write => "WRITE"

end Tool

/-- A word that begins a line and says what the line does. -/
inductive Keyword where
  /-- uses a drawing tool -/
  | draws (tool : Tool)
  /-- opens a block -/
  | opens (construct : Construct)
  /-- closes a block -/
  | closes (construct : Construct)
  deriving DecidableEq, Repr

namespace Keyword

/-- The spelling of a keyword. -/
def text : Keyword → String
  | .draws tool => tool.text
  | .opens construct => construct.text
  | .closes .branch => "ENDIF"
  | .closes .loop => "ENDWHILE"
  | .closes .method => "ENDMETHOD"

/-- Every keyword. -/
def all : List Keyword :=
  [.draws .move, .draws .draw, .draws .circle, .draws .rectangle, .draws .triangle, .draws .color,
    .draws .fill, .draws .clear, .draws .reset, .draws .write, .opens .branch, .closes .branch,
    .opens .loop, .closes .loop, .opens .method, .closes .method]

/-- The keyword with this spelling. -/
def ofText? (s : String) : Option Keyword :=
  all.find? fun k => k.text == s

/-- Whether the keyword opens or closes a block. -/
def isStructural : Keyword → Bool
  | .draws _ => false
  | _ => true

/-- The construct that the keyword opens. -/
def opened? : Keyword → Option Construct
  | .opens construct => some construct
  | _ => none

/-- The construct that the keyword closes. -/
def closed? : Keyword → Option Construct
  | .closes construct => some construct
  | _ => none

/-- Whether variables in the arguments stand for their values. The arguments of `COLOR` and
`FILL` are words of their own. -/
def substitutes : Keyword → Bool
  | .draws .color => false
  | .draws .fill => false
  | _ => true

/-! ## Spelling and keyword determine each other -/

/-- `all` lists every keyword. -/
theorem mem_all (k : Keyword) : k ∈ all := by
  rcases k with t | c | c
  · cases t <;> decide
  · cases c <;> decide
  · cases c <;> decide

@[simp] theorem ofText?_text (k : Keyword) : ofText? k.text = some k := by
  rcases k with t | c | c
  · cases t <;> decide
  · cases c <;> decide
  · cases c <;> decide

/-- `ofText?` inverts `text`. -/
theorem ofText?_eq_some_iff {s : String} {k : Keyword} : ofText? s = some k ↔ s = k.text := by
  constructor
  · intro h
    have := List.find?_some h
    exact (beq_iff_eq.1 this).symm
  · rintro rfl
    exact ofText?_text k

end Keyword

end Sketch
