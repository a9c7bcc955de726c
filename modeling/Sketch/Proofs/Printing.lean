import Sketch.Host.Batch
import Sketch.Proofs.Inlining

/-!
# Printed drawings

A drawing is printed with one primitive in a line. Nothing is lost by that: two drawings with the
same print are the same (`Primitive.printed_inj`).

The notion behind it is `Text.Legible`: a way to write things such that what was written can be told
from what comes after it, as long as that does not look like a continuation. Numbers go on as long
as there are digits, the name of a color and a quoted text end by themselves, and a list of legible
items is legible if its end does not look like one more item (`Text.Legible.flatMap`). The last of
these is used three times: for the characters of a quoted text, for the corners of a polygon and for
the lines of the print.
-/

namespace Sketch

namespace Text

/-- What was written can be told from what comes after it, if that satisfies `ends`. -/
def Legible {α : Type} (ends : List Char → Prop) (write : α → List Char) : Prop :=
  ∀ ⦃a b : α⦄ ⦃r s : List Char⦄, ends r → ends s → write a ++ r = write b ++ s → a = b ∧ r = s

/-- The text does not go on with a character of this kind. -/
def Leaves (kind : Char → Bool) (r : List Char) : Prop :=
  ∀ c ∈ r.head?, kind c = false

@[simp] theorem leaves_cons {kind : Char → Bool} {c : Char} {r : List Char} :
    Leaves kind (c :: r) ↔ kind c = false := by
  simp [Leaves]

namespace Legible

variable {α : Type} {ends : List Char → Prop} {write : α → List Char}

/-- Writings of one kind of characters are `Legible` before anything of another kind. -/
theorem of_kind {kind : Char → Bool} (hkind : ∀ a, ∀ c ∈ write a, kind c = true)
    (hinj : Function.Injective write) : Legible (Leaves kind) write := by
  -- the characters of the kind at the front are the writing
  have htake : ∀ {a : α} {r : List Char}, Leaves kind r →
      (write a ++ r).takeWhile kind = write a := by
    intro a r hr
    have hnone : r.takeWhile kind = [] := by
      cases r with
      | nil => rfl
      | cons c r => rw [List.takeWhile_cons, leaves_cons.1 hr]; rfl
    rw [List.takeWhile_append_of_pos (hkind a), hnone, List.append_nil]
  intro a b r s hr hs h
  have hab : write a = write b := by rw [← htake hr, h, htake hs]
  rw [hab] at h
  exact ⟨hinj hab, List.append_cancel_left h⟩

/-- A list of `Legible` items is legible, if no item looks like the end of the list. -/
theorem flatMap {endsItem : List Char → Prop} (hitem : Legible endsItem write)
    (hnext : ∀ a r, endsItem (write a ++ r)) (hends : ∀ r, ends r → endsItem r)
    (hend : ∀ a r, ¬ ends (write a ++ r)) :
    Legible ends fun items : List α => items.flatMap write := by
  -- what follows an item is the end or one more item
  have hrest : ∀ (items : List α) (r : List Char), ends r →
      endsItem (items.flatMap write ++ r) := by
    intro items r hr
    cases items with
    | nil => exact hends r hr
    | cons item items =>
      rw [List.flatMap_cons, List.append_assoc]
      exact hnext item _
  intro items others r s hr hs h
  change items.flatMap write ++ r = others.flatMap write ++ s at h
  induction items generalizing others with
  | nil =>
    cases others with
    | nil => exact ⟨rfl, h⟩
    | cons other others =>
      rw [List.flatMap_nil, List.nil_append, List.flatMap_cons, List.append_assoc] at h
      exact absurd (h ▸ hr) (hend other _)
  | cons item items ih =>
    cases others with
    | nil =>
      rw [List.flatMap_nil, List.nil_append, List.flatMap_cons, List.append_assoc] at h
      exact absurd (h ▸ hs) (hend item _)
    | cons other others =>
      rw [List.flatMap_cons, List.flatMap_cons, List.append_assoc, List.append_assoc] at h
      obtain ⟨rfl, htail⟩ := hitem (hrest items r hr) (hrest others s hs) h
      obtain ⟨rfl, rfl⟩ := ih htail
      exact ⟨rfl, rfl⟩

end Legible

/-! ## Quoted texts -/

/-- Hexadecimal digits are different. -/
theorem digitChar_inj {m n : Nat} (hm : m < 16) (hn : n < 16) (h : m.digitChar = n.digitChar) :
    m = n := by
  have hall : ∀ i j : Fin 16, i.val.digitChar = j.val.digitChar → i = j := by decide
  exact congrArg Fin.val (hall ⟨m, hm⟩ ⟨n, hn⟩ h)

/-- A number has one text in base sixteen. -/
theorem toDigits_sixteen_injective : Function.Injective (Nat.toDigits 16) := by
  intro m
  induction m using Nat.strongRecOn with
  | ind m ih =>
    intro n h
    rw [Nat.toDigits_eq_if (by decide), Nat.toDigits_eq_if (b := 16) (n := n) (by decide)] at h
    split at h <;> split at h
    · next hm hn => exact digitChar_inj hm hn (by simpa using h)
    · have hlength := congrArg List.length h
      simp at hlength
    · have hlength := congrArg List.length h
      simp at hlength
    · next hm hn =>
      obtain ⟨hquotient, hlast⟩ := List.append_inj' h rfl
      have hdiv := ih (m / 16) (by omega) hquotient
      have hmod := digitChar_inj (Nat.mod_lt m (by decide)) (Nat.mod_lt n (by decide))
        (List.singleton_inj.1 hlast)
      omega

/-- The digits of base sixteen are no braces. -/
theorem ne_brace_of_mem_toDigits {n : Nat} {c : Char} (h : c ∈ Nat.toDigits 16 n) : c ≠ '\x7d' := by
  have hdigit : ∀ i : Fin 16, i.val.digitChar ≠ '\x7d' := by decide
  induction n using Nat.strongRecOn with
  | ind n ih =>
    rw [Nat.toDigits_eq_if (by decide)] at h
    split at h
    · next hn =>
      rw [List.mem_singleton.1 h]
      exact hdigit ⟨n, hn⟩
    · next hn =>
      rcases List.mem_append.1 h with h | h
      · exact ih (n / 16) (by omega) h
      · rw [List.mem_singleton.1 h]
        exact hdigit ⟨n % 16, Nat.mod_lt n (by decide)⟩

/-- Hexadecimal numbers are `Legible` before a closing brace. -/
theorem legible_toDigits : Legible (Leaves (· ≠ '\x7d')) (Nat.toDigits 16) :=
  .of_kind (fun _ _ hc => by simpa using ne_brace_of_mem_toDigits hc) toDigits_sixteen_injective

/-- The character that a backslash and this letter stand for. -/
def unmark (c : Char) : Char :=
  if c = '0' then '\x00' else if c = 't' then '\t' else if c = 'n' then '\n'
  else if c = 'r' then '\r' else c

/-- `escapeChar` keeps a character, or shows it by a letter or by its number. -/
theorem escapeChar_cases (c : Char) :
    (escapeChar c = [c] ∧ c ≠ '\\' ∧ c ≠ '"') ∨
    (∃ m, escapeChar c = ['\\', m] ∧ m ≠ 'u' ∧ unmark m = c) ∨
    escapeChar c = ['\\', 'u', '\x7b'] ++ Nat.toDigits 16 c.toNat ++ ['\x7d'] := by
  unfold escapeChar
  split
  · next h => exact .inr (.inl ⟨'"', rfl, by decide, h.symm⟩)
  split
  · next h => exact .inr (.inl ⟨'\\', rfl, by decide, h.symm⟩)
  split
  · next h => exact .inr (.inl ⟨'0', rfl, by decide, h.symm⟩)
  split
  · next h => exact .inr (.inl ⟨'t', rfl, by decide, h.symm⟩)
  split
  · next h => exact .inr (.inl ⟨'n', rfl, by decide, h.symm⟩)
  split
  · next h => exact .inr (.inl ⟨'r', rfl, by decide, h.symm⟩)
  split
  · exact .inr (.inr rfl)
  · next hquote hslash _ _ _ _ _ => exact .inl ⟨rfl, hslash, hquote⟩

/-- `escapeChar` never begins with the closing quote. -/
theorem head?_escapeChar (c : Char) (r : List Char) : (escapeChar c ++ r).head? ≠ some '"' := by
  rcases escapeChar_cases c with ⟨h, -, hquote⟩ | ⟨m, h, -⟩ | h
  · simpa [h] using hquote
  · simp [h]
  · simp [h]

/-- `escapeChar` is `Legible` before anything. -/
theorem legible_escapeChar : Legible (fun _ => True) escapeChar := by
  intro c d r s _ _ h
  rcases escapeChar_cases c with ⟨hc, hcslash, -⟩ | ⟨m, hc, hm, rfl⟩ | hc <;>
    rcases escapeChar_cases d with ⟨hd, hdslash, -⟩ | ⟨m', hd, hm', rfl⟩ | hd <;>
    rw [hc, hd] at h
  · simpa using h
  · simp [hcslash] at h
  · simp [hcslash] at h
  · simp [hdslash.symm] at h
  · obtain ⟨rfl, rfl⟩ : m = m' ∧ r = s := by simpa using h
    exact ⟨rfl, rfl⟩
  · simp [hm] at h
  · simp [hdslash.symm] at h
  · simp [hm'.symm] at h
  · simp only [List.append_assoc, List.cons_append, List.nil_append, List.cons.injEq,
      true_and] at h
    obtain ⟨hcode, h⟩ := legible_toDigits (by simp) (by simp) h
    exact ⟨Char.toNat_inj.1 hcode, List.tail_eq_of_cons_eq h⟩

/-- `quote` is `Legible` before anything. -/
theorem legible_quote : Legible (fun _ => True) fun s => (quote s).toList := by
  have hchars : Legible (fun r => r.head? = some '"') fun cs : List Char => cs.flatMap escapeChar :=
    legible_escapeChar.flatMap (fun _ _ => trivial) (fun _ _ => trivial) head?_escapeChar
  intro a b r s _ _ h
  simp only [quote, quoteChars, String.toList_ofList, List.cons_append, List.append_assoc,
    List.nil_append, List.cons.injEq, true_and] at h
  obtain ⟨hab, h⟩ := hchars rfl rfl h
  exact ⟨String.toList_inj.1 hab, List.tail_eq_of_cons_eq h⟩

end Text

/-! ## Numbers, points and colors -/

open Text

/-- The characters that numbers are written with. -/
def Number.isPart (c : Char) : Bool :=
  c.isDigit || c == '+' || c == '-'

namespace Number

/-- `Number.text` is injective. -/
theorem text_injective : Function.Injective text := by
  intro m n h
  have hparse := congrArg parse? h
  rw [parse?_text, parse?_text] at hparse
  exact Option.some.inj hparse

/-- `Number.text` has only digits and signs. -/
theorem isPart_of_mem_text {n : Number} {c : Char} (h : c ∈ (text n).toList) : isPart c = true := by
  rcases char_of_isLiteral (isLiteral_text n) h with hdigit | rfl | rfl
  · simp [isPart, hdigit]
  · rfl
  · rfl

/-- Numbers are `Legible` before what is no part of a number. -/
theorem legible_text : Legible (Leaves isPart) fun n => (text n).toList :=
  .of_kind (fun _ _ => isPart_of_mem_text) fun _ _ h => text_injective (String.toList_inj.1 h)

end Number

namespace Point

/-- Points are `Legible` before what is no part of a number. -/
theorem legible_text : Legible (Leaves Number.isPart) fun p : Point => p.text.toList := by
  rintro ⟨x, y⟩ ⟨x', y'⟩ r s hr hs h
  simp only [text, String.toList_append, String.reduceToList, List.append_assoc, List.cons_append,
    List.nil_append] at h
  obtain ⟨rfl, hsecond⟩ := Number.legible_text (leaves_cons.2 rfl) (leaves_cons.2 rfl) h
  obtain ⟨rfl, hrest⟩ := Number.legible_text hr hs (List.tail_eq_of_cons_eq hsecond)
  exact ⟨rfl, hrest⟩

/-- The text of a point begins like a number. -/
theorem exists_text_eq_cons (p : Point) :
    ∃ c rest, p.text.toList = c :: rest ∧ Number.isPart c = true := by
  obtain ⟨c, digits, hdigits⟩ := List.exists_cons_of_ne_nil (Number.isAtom_text p.x).ne_nil
  refine ⟨c, digits ++ ',' :: (Number.text p.y).toList, ?_, ?_⟩
  · simp [text, hdigits]
  · exact Number.isPart_of_mem_text (n := p.x) (by simp [hdigits])

end Point

/-- Boxes are `Legible` before what is no part of a number. -/
theorem Box.legible_text : Legible (Leaves Number.isPart) fun b : Box => b.text.toList := by
  rintro ⟨corner, width, height⟩ ⟨corner', width', height'⟩ r s hr hs h
  simp only [text, String.toList_append, String.reduceToList, List.append_assoc, List.cons_append,
    List.nil_append] at h
  obtain ⟨rfl, hsides⟩ := Point.legible_text (leaves_cons.2 rfl) (leaves_cons.2 rfl) h
  obtain ⟨rfl, hheight⟩ :=
    Number.legible_text (leaves_cons.2 rfl) (leaves_cons.2 rfl) (List.tail_eq_of_cons_eq hsides)
  obtain ⟨rfl, hrest⟩ := Number.legible_text hr hs (List.tail_eq_of_cons_eq hheight)
  exact ⟨rfl, hrest⟩

namespace Color

/-- `Color.text` is `Legible`: no color's name is the beginning of another. -/
theorem legible_text : Legible (fun _ => True) fun color : Color => color.text.toList := by
  intro color other r s _ _ h
  cases color <;> cases other <;> simp [text] at h ⊢ <;> exact h

/-- The name of a color does not begin like a number. -/
theorem exists_text_eq_cons (color : Color) :
    ∃ c rest, color.text.toList = c :: rest ∧ Number.isPart c = false := by
  cases color <;> simp [text, Number.isPart]

end Color

/-! ## Primitives -/

namespace Primitive

/-- The end of a figure's line: its color, and whether it is filled. -/
theorem figure_end_inj {color color' : Color} {filled filled' : Bool} {r s : List Char}
    (h : color.text.toList ++ ((fillText filled).toList ++ '\n' :: r) =
      color'.text.toList ++ ((fillText filled').toList ++ '\n' :: s)) :
    color = color' ∧ filled = filled' ∧ r = s := by
  obtain ⟨rfl, h⟩ := Color.legible_text trivial trivial h
  refine ⟨rfl, ?_⟩
  cases filled <;> cases filled' <;> simp [fillText] at h ⊢ <;> exact h

/-- What follows the keyword of an ellipse or a rectangle. -/
theorem boxed_inj {bounds bounds' : Box} {color color' : Color} {filled filled' : Bool}
    {r s : List Char}
    (h : bounds.text.toList ++ ' ' ::
        (color.text.toList ++ ((fillText filled).toList ++ '\n' :: r)) =
      bounds'.text.toList ++ ' ' ::
        (color'.text.toList ++ ((fillText filled').toList ++ '\n' :: s))) :
    bounds = bounds' ∧ color = color' ∧ filled = filled' ∧ r = s := by
  obtain ⟨rfl, hend⟩ := Box.legible_text (leaves_cons.2 rfl) (leaves_cons.2 rfl) h
  exact ⟨rfl, figure_end_inj (List.tail_eq_of_cons_eq hend)⟩

/-- The corners of a polygon are `Legible` before the name of a color. -/
theorem legible_corners :
    Legible (fun r => ∃ (color : Color) (rest : List Char), r = ' ' :: (color.text.toList ++ rest))
      fun corners : List Point => corners.flatMap fun p => ' ' :: p.text.toList := by
  have hcorner : Legible (Leaves Number.isPart) fun p : Point => ' ' :: p.text.toList :=
    fun _ _ _ _ hr hs h => Point.legible_text hr hs (List.tail_eq_of_cons_eq h)
  refine hcorner.flatMap (fun _ _ => leaves_cons.2 rfl) ?_ ?_
  · rintro r ⟨color, rest, rfl⟩
    exact leaves_cons.2 rfl
  · -- after the blank there is a digit or a sign in one case, and a letter in the other
    rintro p r ⟨color, rest, h⟩
    obtain ⟨c, digits, hp, hc⟩ := p.exists_text_eq_cons
    obtain ⟨d, letters, hcolor, hd⟩ := color.exists_text_eq_cons
    rw [hp, hcolor] at h
    simp only [List.cons_append, List.cons.injEq, true_and] at h
    rw [h.1, hd] at hc
    cases hc

/-- The text of a primitive with a rest behind it, its pieces nested to the right. -/
def chars (r : List Char) : Primitive → List Char
  | .move target => ['M', 'O', 'V', 'E', ' '] ++ (target.text.toList ++ r)
  | .line source target color =>
    ['L', 'I', 'N', 'E', ' '] ++ (source.text.toList ++ ' ' ::
      (target.text.toList ++ ' ' :: (color.text.toList ++ r)))
  | .ellipse bounds color filled =>
    ['E', 'L', 'L', 'I', 'P', 'S', 'E', ' '] ++ (bounds.text.toList ++ ' ' ::
      (color.text.toList ++ ((fillText filled).toList ++ r)))
  | .rectangle bounds color filled =>
    ['R', 'E', 'C', 'T', 'A', 'N', 'G', 'L', 'E', ' '] ++ (bounds.text.toList ++ ' ' ::
      (color.text.toList ++ ((fillText filled).toList ++ r)))
  | .polygon corners color filled =>
    ['P', 'O', 'L', 'Y', 'G', 'O', 'N'] ++ (corners.flatMap (fun p => ' ' :: p.text.toList) ++
      ' ' :: (color.text.toList ++ ((fillText filled).toList ++ r)))
  | .text place size content color =>
    ['T', 'E', 'X', 'T', ' '] ++ (place.text.toList ++ ' ' :: ((Number.text size).toList ++ ' ' ::
      (color.text.toList ++ ' ' :: ((quote content).toList ++ r))))
  | .clear => ['C', 'L', 'E', 'A', 'R'] ++ r

/-- `chars` is the printed primitive with a rest behind it. -/
theorem toList_render_append (p : Primitive) (r : List Char) :
    p.render.toList ++ r = p.chars r := by
  cases p <;> simp [render, chars, List.flatMap_map]

/-- The line of a primitive is `Legible` before anything. -/
theorem legible_line : Legible (fun _ => True) fun p : Primitive => p.render.toList ++ ['\n'] := by
  intro p q r s _ _ h
  rw [List.append_assoc, List.append_assoc, toList_render_append, toList_render_append] at h
  -- the keywords differ in their first letters, so only primitives of one kind are left
  cases p with
  | move target =>
    cases q with
    | move target' =>
      simp only [chars, List.append_cancel_left_eq, List.singleton_append] at h
      obtain ⟨rfl, hrest⟩ := Point.legible_text (leaves_cons.2 rfl) (leaves_cons.2 rfl) h
      exact ⟨rfl, List.tail_eq_of_cons_eq hrest⟩
    | _ => simp [chars] at h
  | line source target color =>
    cases q with
    | line source' target' color' =>
      simp only [chars, List.append_cancel_left_eq, List.singleton_append] at h
      obtain ⟨rfl, htarget⟩ := Point.legible_text (leaves_cons.2 rfl) (leaves_cons.2 rfl) h
      obtain ⟨rfl, hcolor⟩ := Point.legible_text (leaves_cons.2 rfl) (leaves_cons.2 rfl)
        (List.tail_eq_of_cons_eq htarget)
      obtain ⟨rfl, hrest⟩ := Color.legible_text trivial trivial (List.tail_eq_of_cons_eq hcolor)
      exact ⟨rfl, List.tail_eq_of_cons_eq hrest⟩
    | _ => simp [chars] at h
  | ellipse bounds color filled =>
    cases q with
    | ellipse bounds' color' filled' =>
      simp only [chars, List.append_cancel_left_eq, List.singleton_append] at h
      obtain ⟨rfl, rfl, rfl, hrest⟩ := boxed_inj h
      exact ⟨rfl, hrest⟩
    | _ => simp [chars] at h
  | rectangle bounds color filled =>
    cases q with
    | rectangle bounds' color' filled' =>
      simp only [chars, List.append_cancel_left_eq, List.singleton_append] at h
      obtain ⟨rfl, rfl, rfl, hrest⟩ := boxed_inj h
      exact ⟨rfl, hrest⟩
    | _ => simp [chars] at h
  | polygon corners color filled =>
    cases q with
    | polygon corners' color' filled' =>
      simp only [chars, List.append_cancel_left_eq, List.singleton_append] at h
      obtain ⟨rfl, hend⟩ := legible_corners ⟨color, _, rfl⟩ ⟨color', _, rfl⟩ h
      obtain ⟨rfl, rfl, hrest⟩ := figure_end_inj (List.tail_eq_of_cons_eq hend)
      exact ⟨rfl, hrest⟩
    | _ => simp [chars] at h
  | text place size content color =>
    cases q with
    | text place' size' content' color' =>
      simp only [chars, List.append_cancel_left_eq, List.singleton_append] at h
      obtain ⟨rfl, hsize⟩ := Point.legible_text (leaves_cons.2 rfl) (leaves_cons.2 rfl) h
      obtain ⟨rfl, hcolor⟩ := Number.legible_text (leaves_cons.2 rfl) (leaves_cons.2 rfl)
        (List.tail_eq_of_cons_eq hsize)
      obtain ⟨rfl, hcontent⟩ := Color.legible_text trivial trivial (List.tail_eq_of_cons_eq hcolor)
      obtain ⟨rfl, hrest⟩ := legible_quote trivial trivial (List.tail_eq_of_cons_eq hcontent)
      exact ⟨rfl, List.tail_eq_of_cons_eq hrest⟩
    | _ => simp [chars] at h
  | clear =>
    cases q with
    | clear => exact ⟨rfl, List.tail_eq_of_cons_eq (List.append_cancel_left h)⟩
    | _ => simp [chars] at h

/-- The characters of `printed`. -/
theorem toList_printed (drawing : List Primitive) :
    (Session.printed (drawing.map render)).toList =
      drawing.flatMap fun p => p.render.toList ++ ['\n'] := by
  simp [Session.printed, List.flatMap_map]

/-- **The print of a drawing determines it.** Two drawings have the same print only if they are the
same, primitive by primitive, with all their points, colors and texts. -/
theorem printed_inj (drawing other : List Primitive) :
    Session.printed (drawing.map render) = Session.printed (other.map render) ↔
      drawing = other := by
  refine ⟨fun h => ?_, fun h => h ▸ rfl⟩
  have hlines : Legible (· = []) fun drawing : List Primitive =>
      drawing.flatMap fun p => p.render.toList ++ ['\n'] :=
    legible_line.flatMap (fun _ _ => trivial) (fun _ _ => trivial) fun p r hnil => by
      simp at hnil
  have hchars := congrArg String.toList h
  rw [toList_printed, toList_printed] at hchars
  exact (hlines rfl rfl (congrArg (· ++ []) hchars)).1

end Primitive

end Sketch
