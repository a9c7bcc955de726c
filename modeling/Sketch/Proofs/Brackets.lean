import Sketch.Proofs.Words

/-!
# Bracketed lists that are written out

Reading what `Bracketed.text` writes. Pieces that are written with commas between them are cut into
the same pieces again (`Text.splitChars_intercalate`), each of them loses the blanks around it
(`Text.trimChars_padded`), and the whole is read as a bracketed list unless a bracket stands among
the pieces or something follows the list (`Bracketed.parse?_text_append`).
-/

namespace Sketch

namespace Text

variable {sep : Char} {cs ds : List Char}

/-- `splitChars` gives one piece where there is no separator. -/
theorem splitChars_of_not_mem (h : sep ∉ cs) : splitChars sep cs = [cs] := by
  induction cs with
  | nil => rfl
  | cons c cs ih =>
    rw [List.mem_cons, not_or] at h
    have hrest := ih h.2
    simp only [splitChars, List.cons.injEq] at hrest
    rw [splitChars, splitHead_cons_of_ne (Ne.symm h.1), hrest.1, hrest.2]

/-- The first piece of `splitChars` ends at the first separator. -/
theorem splitChars_append (h : sep ∉ cs) :
    splitChars sep (cs ++ sep :: ds) = cs :: splitChars sep ds := by
  induction cs with
  | nil => rw [List.nil_append, splitChars, splitHead_cons_self]
  | cons c cs ih =>
    rw [List.mem_cons, not_or] at h
    have hrest := ih h.2
    simp only [splitChars, List.cons.injEq] at hrest ⊢
    rw [List.cons_append, splitHead_cons_of_ne (Ne.symm h.1), hrest.1]
    exact ⟨rfl, hrest.2⟩

/-- `splitChars` inverts `intercalate` on pieces without the separator. -/
theorem splitChars_intercalate {pieces : List (List Char)} (hne : pieces ≠ [])
    (h : ∀ piece ∈ pieces, sep ∉ piece) : splitChars sep ([sep].intercalate pieces) = pieces := by
  induction pieces with
  | nil => exact absurd rfl hne
  | cons piece pieces ih =>
    rw [List.forall_mem_cons] at h
    cases pieces with
    | nil => rw [List.intercalate_singleton, splitChars_of_not_mem h.1]
    | cons next rest =>
      rw [List.intercalate_cons_cons, List.append_assoc, List.singleton_append,
        splitChars_append h.1, ih (List.cons_ne_nil next rest) h.2]

/-- `intercalate` inverts `splitChars`. -/
theorem intercalate_splitChars (sep : Char) (cs : List Char) :
    [sep].intercalate (splitChars sep cs) = cs := by
  induction cs with
  | nil => rfl
  | cons c cs ih =>
    by_cases hc : c = sep
    · subst hc
      rw [splitChars, splitHead_cons_self]
      exact (List.intercalate_cons_cons).trans (congrArg (c :: ·) ih)
    · rw [splitChars, splitHead_cons_of_ne hc]
      rw [splitChars] at ih
      cases hrest : (splitHead sep cs).2 with
      | nil =>
        rw [hrest, List.intercalate_singleton] at ih
        rw [List.intercalate_singleton, ih]
      | cons piece rest =>
        rw [hrest, List.intercalate_cons_cons] at ih
        rw [List.intercalate_cons_cons, List.cons_append, List.cons_append, ih]

/-- `trimChars` leaves nothing of blanks alone. -/
theorem trimChars_eq_nil_iff : trimChars cs = [] ↔ cs.all isBlank = true := by
  rw [List.all_eq_true]
  constructor
  · intro h c hc
    by_contra hblank
    rw [Bool.not_eq_true] at hblank
    have hmem := mem_trimChars hc hblank
    rw [h] at hmem
    cases hmem
  · intro h
    have hnone : cs.dropWhile isBlank = [] := by
      rw [← List.append_nil cs, List.dropWhile_append_of_pos h, List.dropWhile_nil]
    rw [trimChars, hnone]
    rfl

/-- `trimChars` takes the blanks around characters that are not blank. -/
theorem trimChars_padded {before after : List Char} (hbefore : ∀ c ∈ before, isBlank c = true)
    (hafter : ∀ c ∈ after, isBlank c = true) (hne : cs ≠ []) (h : ∀ c ∈ cs, isBlank c = false) :
    trimChars (before ++ cs ++ after) = cs := by
  have hkeep : ∀ {cs : List Char}, cs ≠ [] → (∀ c ∈ cs, isBlank c = false) → ∀ ds,
      (cs ++ ds).dropWhile isBlank = cs ++ ds := by
    intro cs hne h ds
    obtain ⟨c, rest, rfl⟩ := List.exists_cons_of_ne_nil hne
    exact List.dropWhile_cons_of_neg (by rw [h c List.mem_cons_self]; decide)
  have hfront : (before ++ cs ++ after).dropWhile isBlank = cs ++ after := by
    rw [List.append_assoc, List.dropWhile_append_of_pos hbefore, hkeep hne h]
  have hback : (after.reverse ++ cs.reverse).dropWhile isBlank = cs.reverse := by
    rw [List.dropWhile_append_of_pos fun c hc => hafter c (List.mem_reverse.1 hc),
      ← List.append_nil cs.reverse]
    exact hkeep (mt List.reverse_eq_nil_iff.1 hne) (fun c hc => h c (List.mem_reverse.1 hc)) []
  rw [trimChars, hfront, dropEndWhile, List.reverse_append, hback, List.reverse_reverse]

/-- `trimChars` changes nothing where there are no blanks. -/
theorem trimChars_eq_self (h : ∀ c ∈ cs, isBlank c = false) : trimChars cs = cs := by
  by_cases hne : cs = []
  · rw [hne]
    rfl
  · have htrim : trimChars ([] ++ cs ++ []) = cs := trimChars_padded (by simp) (by simp) hne h
    rwa [List.nil_append, List.append_nil] at htrim

end Text

namespace Bracketed

variable {head rest : String} {pieces : List String}

/-- The characters between the brackets of a list that is written out. -/
def between (pieces : List String) : List Char :=
  [','].intercalate (pieces.map String.toList)

/-- The characters of the `text` of a list with a rest behind it. -/
theorem toList_text_append (head : String) (pieces : List String) (rest : String) :
    (text ⟨head, pieces⟩ ++ rest).toList =
      head.toList ++ '(' :: (between pieces ++ ')' :: rest.toList) := by
  have hbetween : (",".intercalate pieces).toList = between pieces := String.toList_intercalate
  simp only [text, String.toList_append, hbetween]
  simp

/-- `itemsOf` gives the pieces without the blanks around them. -/
theorem itemsOf_between (h : ∀ piece ∈ pieces, ',' ∉ piece.toList) :
    itemsOf (between pieces) =
      if (between pieces).all Text.isBlank then [] else pieces.map Text.trim := by
  unfold itemsOf
  by_cases hblank : (between pieces).all Text.isBlank = true
  · rw [if_pos hblank, if_pos (Text.trimChars_eq_nil_iff.2 hblank)]
  · have hne : pieces.map String.toList ≠ [] := by
      intro hnil
      apply hblank
      simp [between, hnil]
    have hpieces : ∀ piece ∈ pieces.map String.toList, ',' ∉ piece := by
      simpa only [List.forall_mem_map] using h
    rw [if_neg hblank, if_neg (mt Text.trimChars_eq_nil_iff.1 hblank), between,
      Text.splitChars_intercalate hne hpieces, List.map_map]
    rfl

/-- `inner?` accepts what ends with the only bracket. -/
theorem inner?_append {inner : List Char} :
    inner? (inner ++ ')' :: rest.toList) =
      if rest = "" ∧ '(' ∉ inner ∧ ')' ∉ inner then some inner else none := by
  have hall : inner.all (fun c => c != '(' && c != ')') = true ↔ '(' ∉ inner ∧ ')' ∉ inner := by
    simp only [List.all_eq_true, Bool.and_eq_true, bne_iff_ne]
    exact ⟨fun h => ⟨fun hmem => (h _ hmem).1 rfl, fun hmem => (h _ hmem).2 rfl⟩,
      fun h c hc => ⟨fun heq => h.1 (heq ▸ hc), fun heq => h.2 (heq ▸ hc)⟩⟩
  unfold inner?
  by_cases hrest : rest = ""
  · simp [hrest, hall]
  · -- the closing bracket is one of those before the last character
    have hne : rest.toList ≠ [] := mt String.toList_eq_nil_iff.1 hrest
    have hdrop : (inner ++ ')' :: rest.toList).dropLast = inner ++ ')' :: rest.toList.dropLast := by
      rw [List.dropLast_append_of_ne_nil (List.cons_ne_nil _ _), List.dropLast_cons_of_ne_nil hne]
    simp [hrest, hdrop]

/-- `parse?` reads the `text` of a list if no bracket stands among its pieces and nothing follows
it. -/
theorem parse?_text_append (hhead : '(' ∉ head.toList) :
    parse? (text ⟨head, pieces⟩ ++ rest) =
      if rest = "" ∧ '(' ∉ between pieces ∧ ')' ∉ between pieces then
        some ⟨head, itemsOf (between pieces)⟩
      else none := by
  have hstop : ∀ c ∈ head.toList, (c != '(') = true := by
    intro c hc
    rw [bne_iff_ne]
    rintro rfl
    exact hhead hc
  have htake : (head.toList ++ '(' :: (between pieces ++ ')' :: rest.toList)).takeWhile
      (· != '(') = head.toList := by
    rw [List.takeWhile_append_of_pos hstop, List.takeWhile_cons_of_neg (by decide),
      List.append_nil]
  have hdrop : (head.toList ++ '(' :: (between pieces ++ ')' :: rest.toList)).dropWhile
      (· != '(') = '(' :: (between pieces ++ ')' :: rest.toList) := by
    rw [List.dropWhile_append_of_pos hstop, List.dropWhile_cons_of_neg (by decide)]
  simp only [parse?, toList_text_append, htake, hdrop, String.ofList_toList, inner?_append]
  split
  · rfl
  · rfl

end Bracketed

end Sketch
