/-!
# Blank characters

The characters that separate the tokens of a line, and trimming. `isBlank` is the White_Space
property of Unicode. Main definitions: `isBlank`, `trim`, `dropEndWhile`.
-/

namespace Sketch.Text

/-- A character is blank when it has the White_Space property: the tab and the line breaks of
ASCII, the space, and the spaces and separators of the wider tables. -/
def isBlank (c : Char) : Bool :=
  let n := c.toNat
  (0x09 ≤ n && n ≤ 0x0d) || n == 0x20 || n == 0x85 || n == 0xa0 || n == 0x1680 ||
    (0x2000 ≤ n && n ≤ 0x200a) || n == 0x2028 || n == 0x2029 || n == 0x202f || n == 0x205f ||
    n == 0x3000

/-- The list without its longest final run of elements that satisfy `p`. -/
def dropEndWhile {α : Type} (p : α → Bool) (l : List α) : List α :=
  (l.reverse.dropWhile p).reverse

/-- The characters without blanks at either end. -/
def trimChars (cs : List Char) : List Char :=
  dropEndWhile isBlank (cs.dropWhile isBlank)

/-- The text without blanks at either end. -/
def trim (s : String) : String :=
  String.ofList (trimChars s.toList)

/-! ## Laws of trimming -/

@[simp] theorem dropEndWhile_nil {α : Type} (p : α → Bool) : dropEndWhile p [] = [] := rfl

/-- An element that stays keeps everything before it. -/
theorem dropEndWhile_append_singleton {α : Type} (p : α → Bool) (l : List α) (a : α) :
    dropEndWhile p (l ++ [a]) = if p a then dropEndWhile p l else l ++ [a] := by
  by_cases h : p a <;> simp [dropEndWhile, h]

/-- What stays after dropping from the end is a beginning of the list. -/
theorem dropEndWhile_isPrefix {α : Type} (p : α → Bool) (l : List α) :
    ∃ dropped, l = dropEndWhile p l ++ dropped ∧ ∀ a ∈ dropped, p a := by
  refine ⟨(l.reverse.takeWhile p).reverse, ?_, ?_⟩
  · rw [dropEndWhile, ← List.reverse_append, List.takeWhile_append_dropWhile, List.reverse_reverse]
  · intro a ha
    rw [List.mem_reverse] at ha
    exact List.all_eq_true.1 List.all_takeWhile a ha

/-- Dropping from the front a second time changes nothing. -/
theorem dropWhile_dropWhile {α : Type} (p : α → Bool) (l : List α) :
    (l.dropWhile p).dropWhile p = l.dropWhile p := by
  induction l with
  | nil => rfl
  | cons a l ih => by_cases h : p a <;> simp [h, ih]

/-- Dropping from the end a second time changes nothing. -/
theorem dropEndWhile_idem {α : Type} (p : α → Bool) (l : List α) :
    dropEndWhile p (dropEndWhile p l) = dropEndWhile p l := by
  simp [dropEndWhile, dropWhile_dropWhile]

end Sketch.Text
