/-!
# Cutting text at a separator

`split` cuts a text at every occurrence of one character and keeps the empty pieces, so that
joining the pieces with that character gives the text back. `lines` is the reading of a text as
lines: a final line feed ends the last line and opens no further one. `cutText` reads the lines by
the usual rule, by which a line feed ends a line together with one return before it; `cutLines` is
that rule for characters and for bytes. `slice?` and `offset?` cut by offsets in bytes.
-/

namespace Sketch.Text

/-- The first piece of the characters up to `sep`, and the pieces after it. -/
def splitHead (sep : Char) (cs : List Char) : List Char × List (List Char) :=
  cs.foldr
    (fun c (piece, rest) => if c = sep then ([], piece :: rest) else (c :: piece, rest))
    ([], [])

/-- The pieces of the characters between the occurrences of `sep`; there is always at least one. -/
def splitChars (sep : Char) (cs : List Char) : List (List Char) :=
  (splitHead sep cs).1 :: (splitHead sep cs).2

/-- The pieces of the text between the occurrences of `sep`. -/
def split (sep : Char) (s : String) : List String :=
  (splitChars sep s.toList).map String.ofList

/-- The pieces without the last one if that one is empty. -/
def dropEmptyEnd (pieces : List (List Char)) : List (List Char) :=
  if pieces.getLast? = some [] then pieces.dropLast else pieces

/-- The lines of a text, without their line feeds. A carriage return before a line feed stays
with its line. -/
def lines (s : String) : List String :=
  (dropEmptyEnd (splitChars '\n' s.toList)).map String.ofList

/-! ## The usual rule for lines -/

section CutLines

variable {α : Type} [DecidableEq α]

/-- A line, its last element first, without a return at its end. -/
def dropReturn (cr : α) : List α → List α
  | [] => []
  | a :: line => if a = cr then line else a :: line

/-- The lines of a text or of a file: each ends at a line feed, which is no part of it, nor is one
return before it. What follows the last line feed is a line if it is not empty. `line` is the part
of the present line that has been read, its last element first. -/
def cutLines (lf cr : α) : (line : List α) → List α → List (List α)
  | line, [] => if line = [] then [] else [line.reverse]
  | line, a :: rest =>
    if a = lf then (dropReturn cr line).reverse :: cutLines lf cr [] rest
    else cutLines lf cr (a :: line) rest

end CutLines

/-- The lines of a text by the usual rule. -/
def cutText (s : String) : List String :=
  (cutLines '\n' '\r' [] s.toList).map String.ofList

/-! ## Offsets in bytes -/

/-- The text between two offsets, counted in bytes. There is none if an offset is out of range or
inside a character, or if the offsets are out of order. -/
def slice? (s : String) (lo hi : Nat) : Option String :=
  if h : lo ≤ hi ∧ String.Pos.Raw.IsValid s ⟨lo⟩ ∧ String.Pos.Raw.IsValid s ⟨hi⟩ then
    some (s.extract ⟨⟨lo⟩, h.2.1⟩ ⟨⟨hi⟩, h.2.2⟩)
  else none

/-- The number of bytes before the first occurrence of a character. -/
def offset? (c : Char) : List Char → Option Nat
  | [] => none
  | d :: ds => if d = c then some 0 else (offset? c ds).map (d.utf8Size + ·)

/-! ## Laws of splitting -/

@[simp] theorem splitChars_nil (sep : Char) : splitChars sep [] = [[]] := rfl

@[simp] theorem splitHead_cons_self (sep : Char) (cs : List Char) :
    splitHead sep (sep :: cs) = ([], splitChars sep cs) := by
  simp [splitHead, splitChars]

/-- A character that is no separator belongs to the first piece. -/
theorem splitHead_cons_of_ne {sep c : Char} (h : c ≠ sep) (cs : List Char) :
    splitHead sep (c :: cs) = (c :: (splitHead sep cs).1, (splitHead sep cs).2) := by
  simp [splitHead, h]

/-- No piece contains the separator. -/
theorem not_mem_of_mem_splitChars {sep : Char} {cs piece : List Char}
    (h : piece ∈ splitChars sep cs) : sep ∉ piece := by
  induction cs generalizing piece with
  | nil => simp_all
  | cons c cs ih =>
    by_cases hc : c = sep
    · subst hc
      simp only [splitChars, splitHead_cons_self, List.mem_cons] at h
      rcases h with rfl | h
      · simp
      · exact ih (by simpa [splitChars] using h)
    · simp only [splitChars, splitHead_cons_of_ne hc, List.mem_cons] at h
      rcases h with rfl | h
      · simp only [List.mem_cons, not_or]
        exact ⟨Ne.symm hc, ih (by simp [splitChars])⟩
      · exact ih (by simp [splitChars, h])

end Sketch.Text
