import Sketch.Proofs.Tokenizing
import Sketch.Proofs.Tokens

/-!
# The words that become names

A line gives names in two places: in front of an assignment, and in the brackets of a header. Such a
name is free, which by itself does not keep out blanks other than the space. It has none all the
same: a token has a blank only between quotes (`Line.guarded_of_mem_tokens`), no name has a quote,
and every quote of a header would be in one of its names (`Bracketed.mentions_of_mem`).
`Name.usable_iff` says what a free name without blanks is, character by character.
-/

namespace Sketch

/-! ## Blanks stand between quotes -/

namespace Line

/-- Characters without a quote have no blank among them. -/
def Guarded (cs : List Char) : Prop :=
  '"' ∉ cs → ∀ c ∈ cs, Text.isBlank c = false

/-- An `Unbroken` token is `Guarded`. -/
theorem Unbroken.guarded {cs : List Char} (h : Unbroken false cs) : Guarded cs := by
  intro hq
  induction cs with
  | nil => simp
  | cons c cs ih =>
    obtain ⟨hc, hrest⟩ := h
    rw [List.mem_cons, not_or] at hq
    have hquote : (c == '"') = false := beq_false_of_ne (Ne.symm hq.1)
    rw [hquote, Bool.bne_false] at hrest
    exact List.forall_mem_cons.2 ⟨by simpa using hc, ih hrest hq.2⟩

/-- Every token of a line is `Guarded`: it has a blank only if it has a quote. -/
theorem guarded_of_mem_tokens {line : Line} {token : String} (h : token ∈ line.tokens) :
    Guarded token.toList :=
  (line.areTokens.isToken _ (List.mem_map_of_mem h)).unbroken.guarded

end Line

/-! ## The characters of a bracketed list -/

namespace Text

variable {c sep : Char} {cs : List Char}

/-- `trimChars` adds nothing. -/
theorem mem_of_mem_trimChars (h : c ∈ trimChars cs) : c ∈ cs := by
  unfold trimChars at h
  obtain ⟨dropped, heq, -⟩ := dropEndWhile_isPrefix isBlank (cs.dropWhile isBlank)
  refine (List.dropWhile_sublist isBlank).mem ?_
  rw [heq]
  exact List.mem_append_left dropped h

/-- `trimChars` takes nothing but blanks. -/
theorem mem_trimChars (h : c ∈ cs) (hc : isBlank c = false) : c ∈ trimChars cs := by
  rw [← List.takeWhile_append_dropWhile (p := isBlank) (l := cs), List.mem_append] at h
  rcases h with h | h
  · rw [List.all_eq_true.1 List.all_takeWhile c h] at hc
    cases hc
  · obtain ⟨dropped, heq, hblank⟩ := dropEndWhile_isPrefix isBlank (cs.dropWhile isBlank)
    rw [heq, List.mem_append] at h
    rcases h with h | h
    · exact h
    · rw [hblank c h] at hc
      cases hc

/-- The pieces of `splitChars` have the characters of the whole but for the separator. -/
theorem exists_mem_splitChars_iff :
    (∃ piece ∈ splitChars sep cs, c ∈ piece) ↔ c ∈ cs ∧ c ≠ sep := by
  induction cs with
  | nil => simp
  | cons d cs ih =>
    by_cases hd : d = sep
    · subst hd
      have hpieces : splitChars d (d :: cs) = [] :: splitChars d cs := by
        simp [splitChars]
      simp only [hpieces, List.mem_cons, exists_eq_or_imp, List.not_mem_nil, false_or, ih]
      grind
    · simp only [splitChars, splitHead_cons_of_ne hd, List.mem_cons, exists_eq_or_imp] at ih ⊢
      grind

end Text

namespace Bracketed

variable {s : String} {b : Bracketed} {c : Char}

/-- The character is in the head or in an item. -/
def Mentions (b : Bracketed) (c : Char) : Prop :=
  c ∈ b.head.toList ∨ ∃ item ∈ b.items, c ∈ item.toList

/-- `itemsOf` has only characters from between the brackets. -/
theorem mem_of_mem_itemsOf {inner : List Char} {item : String} (hi : item ∈ itemsOf inner)
    (hc : c ∈ item.toList) : c ∈ inner := by
  unfold itemsOf at hi
  split at hi
  · cases hi
  · obtain ⟨piece, hpiece, rfl⟩ := List.mem_map.1 hi
    rw [String.toList_ofList] at hc
    exact (Text.exists_mem_splitChars_iff.1 ⟨piece, hpiece, Text.mem_of_mem_trimChars hc⟩).1

/-- `itemsOf` drops nothing but blanks and commas. -/
theorem exists_mem_itemsOf {inner : List Char} (hc : c ∈ inner) (hblank : Text.isBlank c = false)
    (hcomma : c ≠ ',') : ∃ item ∈ itemsOf inner, c ∈ item.toList := by
  have hne : Text.trimChars inner ≠ [] := List.ne_nil_of_mem (Text.mem_trimChars hc hblank)
  obtain ⟨piece, hpiece, hmem⟩ := Text.exists_mem_splitChars_iff.2 ⟨hc, hcomma⟩
  rw [itemsOf, if_neg hne]
  refine ⟨_, List.mem_map_of_mem hpiece, ?_⟩
  rw [String.toList_ofList]
  exact Text.mem_trimChars hmem hblank

/-- A list that is read `Mentions` nothing that its text has not. -/
theorem mem_of_mentions (h : parse? s = some b) (hc : b.Mentions c) : c ∈ s.toList := by
  obtain ⟨inner, hs, hitems⟩ := parse?_eq_some h
  rw [hs]
  rcases hc with hc | ⟨item, hi, hc⟩
  · exact List.mem_append_left _ hc
  · have hinner := mem_of_mem_itemsOf (hitems ▸ hi) hc
    exact List.mem_append_right _ (List.mem_cons_of_mem _ (List.mem_append_left _ hinner))

/-- A list that is read `Mentions` all of its text but brackets, commas and blanks. -/
theorem mentions_of_mem (h : parse? s = some b) (hc : c ∈ s.toList)
    (hblank : Text.isBlank c = false) (hmark : c ∉ ['(', ',', ')']) : b.Mentions c := by
  obtain ⟨inner, hs, hitems⟩ := parse?_eq_some h
  simp only [List.mem_cons, List.not_mem_nil, or_false, not_or] at hmark
  rw [hs, List.mem_append, List.mem_cons, List.mem_append, List.mem_singleton] at hc
  rcases hc with hc | hc | hc | hc
  · exact .inl hc
  · exact absurd hc hmark.1
  · rw [Mentions, hitems]
    exact .inr (exists_mem_itemsOf hc hblank hmark.2.1)
  · exact absurd hc hmark.2.2

end Bracketed

/-! ## Names that can be used -/

namespace Name

variable {name : String}

/-- What the texts are like that variables, methods and parameters are named by. -/
structure Usable (name : String) : Prop where
  ne_empty : name ≠ ""
  not_digit : ∀ c, name.toList.head? = some c → c.isDigit = false
  not_reserved : ∀ c ∈ name.toList, c ∉ reserved
  ne_keyword : ∀ keyword : Keyword, name ≠ keyword.text
  not_blank : ∀ c ∈ name.toList, Text.isBlank c = false
  not_literal : Number.parse? name = none

/-- No character of a free name is `reserved`. -/
theorem not_mem_reserved_of_isFree (h : isFree name = true) {c : Char} (hc : c ∈ name.toList) :
    c ∉ reserved := by
  have hnone := not_hasReserved_of_isFree h
  rw [hasReserved, List.any_eq_false] at hnone
  exact fun hmem => hnone c hc (List.contains_iff_mem.2 hmem)

/-- `Number.parse?` reads no free name, which would begin with a digit or with a sign. -/
theorem parse?_of_isFree (h : isFree name = true) {c : Char} {cs : List Char}
    (hs : name.toList = c :: cs) (hdigit : c.isDigit = false) : Number.parse? name = none := by
  have hfirst : c ∈ name.toList := hs ▸ List.mem_cons_self
  have hfalse : Number.isLiteral name = false := by
    refine Number.isLiteral_eq_false hfirst hdigit ?_ ?_
    · rintro rfl
      exact not_mem_reserved_of_isFree h hfirst (by decide)
    · rintro rfl
      exact not_mem_reserved_of_isFree h hfirst (by decide)
  simpa [Number.isLiteral] using hfalse

/-- A name is `Usable` exactly if it is free and has no blank. -/
theorem usable_iff :
    Usable name ↔ isFree name = true ∧ ∀ c ∈ name.toList, Text.isBlank c = false := by
  -- the two ways to say that a name is not a keyword
  have hkeyword : Keyword.ofText? name = none ↔ ∀ keyword : Keyword, name ≠ keyword.text := by
    rw [Option.eq_none_iff_forall_ne_some]
    exact forall_congr' fun keyword => not_congr Keyword.ofText?_eq_some_iff
  constructor
  · rintro ⟨hne, hdigit, hreserved, hkeywords, hblank, -⟩
    refine ⟨?_, hblank⟩
    cases hs : name.toList with
    | nil => exact absurd (String.toList_eq_nil_iff.1 hs) hne
    | cons c cs =>
      have hnone : hasReserved name = false := by
        rw [hasReserved, List.any_eq_false]
        intro d hd hmem
        exact hreserved d hd (List.contains_iff_mem.1 hmem)
      have hfirst : c.isDigit = false := hdigit c (by rw [hs, List.head?_cons])
      simp [isFree, isName, hs, hnone, hfirst, hkeyword.2 hkeywords]
  · rintro ⟨hfree, hblank⟩
    have hname : isName name = true := (Bool.and_eq_true_iff.1 hfree).1
    unfold isName at hname
    split at hname
    · cases hname
    · next c cs hs =>
      have hdigit : c.isDigit = false := by simpa using (Bool.and_eq_true_iff.1 hname).1
      refine ⟨?_, ?_, fun d hd => not_mem_reserved_of_isFree hfree hd,
        hkeyword.1 (ofText?_of_isFree hfree), hblank, parse?_of_isFree hfree hs hdigit⟩
      · rintro rfl
        cases hs
      · intro d hd
        rw [hs, List.head?_cons, Option.some.injEq] at hd
        exact hd ▸ hdigit

/-- A free name that is `Guarded` is usable. -/
theorem usable_of_guarded (h : isFree name = true) (hg : Line.Guarded name.toList) :
    Usable name :=
  usable_iff.2 ⟨h, hg fun hquote => not_mem_reserved_of_isFree h hquote (by decide)⟩

end Name

/-- A list of free names under a free name `Mentions` no quote. -/
theorem Bracketed.not_mentions_quote {b : Bracketed} (hhead : Name.isFree b.head = true)
    (hitems : ∀ item ∈ b.items, Name.isFree item = true) : ¬ b.Mentions '"' := by
  rintro (hc | ⟨item, hitem, hc⟩)
  · exact Name.not_mem_reserved_of_isFree hhead hc (by decide)
  · exact Name.not_mem_reserved_of_isFree (hitems item hitem) hc (by decide)

namespace Store

variable {store : Store} {line : Line} {tokens : List String} {cursor : Address}

/-- The name of an assignment that is read from a line is `Usable`. -/
theorem usable_of_assignment {assignment : Assignment}
    (hi : store.interpret line.tokens = .ok (.assignment, tokens))
    (hp : Assignment.parse tokens = .ok assignment) : Name.Usable assignment.name := by
  obtain ⟨value, rest, htokens, hfree, -, -⟩ := Assignment.parse_eq_ok_iff.1 hp
  obtain ⟨-, hs⟩ := interpret_eq_ok_iff.1 hi
  refine Name.usable_of_guarded hfree (line.guarded_of_mem_tokens ?_)
  cases hline : line.tokens with
  | nil =>
    rw [hline, htokens] at hs
    cases hs
  | cons first arguments =>
    rw [hline] at hs
    obtain ⟨_, hfirst, -⟩ := forall₂_of_substitute rfl hs
    rw [htokens, List.cons.injEq] at hfirst
    rw [hfirst.1]
    exact List.mem_cons_self

/-- `checkParameters` accepts no name twice. -/
theorem nodup_of_checkParameters {seen parameters : List String}
    (h : checkParameters seen parameters = .ok ()) :
    parameters.Nodup ∧ ∀ parameter ∈ parameters, parameter ∉ seen := by
  induction parameters generalizing seen with
  | nil => exact ⟨.nil, fun _ hmem => by cases hmem⟩
  | cons name rest ih =>
    rw [checkParameters] at h
    obtain ⟨_, -, h⟩ := bind_ok_iff.1 h
    split at h
    · cases h
    · next hnew =>
      obtain ⟨hnodup, hunseen⟩ := ih h
      refine ⟨List.nodup_cons.2 ⟨fun hmem => hunseen name hmem List.mem_cons_self, hnodup⟩, ?_⟩
      intro parameter hmem
      rcases List.mem_cons.1 hmem with rfl | hmem
      · exact fun hseen => hnew (List.contains_iff_mem.2 hseen)
      · exact fun hseen => hunseen parameter hmem (List.mem_cons_of_mem name hseen)

/-- The names in a header that is read from a line are `Usable`. -/
theorem usable_of_header {signature : Bracketed}
    (hi : store.interpret line.tokens = .ok (.keyword (.opens .method), tokens))
    (hr : store.readHeader tokens cursor = .ok signature) :
    Name.Usable signature.head ∧ ∀ parameter ∈ signature.items, Name.Usable parameter := by
  obtain ⟨⟨first, word, rfl, hp⟩, hname, hparameters, -⟩ := readHeader_eq_ok_iff.1 hr
  obtain ⟨-, hs⟩ := interpret_eq_ok_iff.1 hi
  have hhead : Name.isFree signature.head = true := Name.check_eq_ok_iff.1 hname
  have hitems := isFree_of_checkParameters hparameters
  have hword : Line.Guarded word.toList :=
    line.guarded_of_mem_tokens (by rw [eq_of_substitute_header hs hp]; simp)
  have hquote : '"' ∉ word.toList := fun hmem =>
    Bracketed.not_mentions_quote hhead hitems
      (Bracketed.mentions_of_mem hp hmem (by decide) (by decide))
  refine ⟨Name.usable_iff.2 ⟨hhead, fun c hc => ?_⟩, fun parameter hmem =>
    Name.usable_iff.2 ⟨hitems parameter hmem, fun c hc => ?_⟩⟩
  · exact hword hquote c (Bracketed.mem_of_mentions hp (.inl hc))
  · exact hword hquote c (Bracketed.mem_of_mentions hp (.inr ⟨parameter, hmem, hc⟩))

end Store

end Sketch
