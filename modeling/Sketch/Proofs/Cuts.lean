import Sketch.Proofs.Tokenizing

/-!
# A text as its tokens and the blanks between them

What the tokens of a text are, said without the scan. A text is cut into the blanks at its front and
its tokens, each with the blanks that follow it (`Line.Cut`), and `Cut.Proper` says which cuts
count: a blank inside a token stands between quotes, two tokens have blanks between them, and a
quote that is never closed keeps the rest of the text in its token. Main statement:
`Line.tokenize_exact`, every text has one proper cut and no other, the scan finds its tokens, and
tokens that are written with spaces between them are found again.

The scan leads to a proper cut (`exists_proper`) and a proper cut leads back to the scan
(`Cut.Proper.scan_text`), so all proper cuts of a text have the same tokens. Then they also have the
same blanks, since no token begins with one (`Cut.Proper.eq_of_text_eq`).
-/

namespace Sketch

/-! ## The last element and the others -/

section

variable {α : Type} {p : α → Prop} {a : α} {l : List α}

/-- All but the last of a list, one item at a time. -/
theorem forall_mem_dropLast_cons :
    (∀ b ∈ (a :: l).dropLast, p b) ↔ (l ≠ [] → p a) ∧ ∀ b ∈ l.dropLast, p b := by
  cases l with
  | nil => simp
  | cons next rest => simp [List.dropLast_cons_cons]

/-- The last of a list, one item at a time. -/
theorem forall_getLast?_cons :
    (∀ b, (a :: l).getLast? = some b → p b) ↔ (l = [] → p a) ∧ ∀ b, l.getLast? = some b → p b := by
  cases l with
  | nil => simp
  | cons next rest => simp [List.getLast?_cons_cons]

end

namespace Line

/-! ## Quotes in pairs -/

variable {quoted : Bool} {cs ds : List Char} {token gap lead : String} {words : List String}
  {parts : List (String × String)}

/-- `quotedAfter` is flipped by an odd number of quotes. -/
theorem quotedAfter_eq : quotedAfter quoted cs = (quoted != decide (cs.count '"' % 2 = 1)) := by
  induction cs generalizing quoted with
  | nil => cases quoted <;> rfl
  | cons c cs ih =>
    have hstep : quotedAfter quoted (c :: cs) = quotedAfter (quoted != (c == '"')) cs := rfl
    rw [hstep, ih]
    by_cases hc : c = '"'
    · subst hc
      rw [List.count_cons_self]
      rcases Nat.mod_two_eq_zero_or_one (cs.count '"') with hcount | hcount
      · have hnext : (cs.count '"' + 1) % 2 = 1 := by omega
        rw [hcount, hnext]
        cases quoted <;> rfl
      · have hnext : (cs.count '"' + 1) % 2 = 0 := by omega
        rw [hcount, hnext]
        cases quoted <;> rfl
    · rw [List.count_cons_of_ne hc, beq_false_of_ne hc, Bool.bne_false]

/-- `quotedAfter` is true after an odd number of quotes, if none was open. -/
theorem quotedAfter_eq_true_iff : quotedAfter false cs = true ↔ cs.count '"' % 2 = 1 := by
  rw [quotedAfter_eq, Bool.false_bne, decide_eq_true_iff]

/-- `quotedAfter` is false after an even number of quotes, if none was open. -/
theorem quotedAfter_eq_false_iff : quotedAfter false cs = false ↔ cs.count '"' % 2 = 0 := by
  rw [← Bool.not_eq_true, quotedAfter_eq_true_iff]
  omega

/-- Each blank among `Unbroken` characters comes after an open quote. -/
theorem unbroken_iff : Unbroken quoted cs ↔
    ∀ before c after, cs = before ++ c :: after → Text.isBlank c = true →
      quotedAfter quoted before = true := by
  constructor
  · rintro h before c after rfl hblank
    have hc := (unbroken_append.1 h).2.1
    rw [hblank] at hc
    simpa using hc
  · intro h
    induction cs generalizing quoted with
    | nil => trivial
    | cons c cs ih =>
      refine ⟨?_, ih fun before d after hcs hblank => ?_⟩
      · cases hblank : Text.isBlank c with
        | false => rfl
        | true =>
          have hquoted : quoted = true := h [] c cs rfl hblank
          rw [hquoted]
          rfl
      · exact h (c :: before) d after (by rw [hcs, List.cons_append]) hblank

/-! ## Tokens by their characters -/

/-- The number of quotes in a text. -/
def quotes (s : String) : Nat :=
  s.toList.count '"'

/-- A text that can be a token: it begins with a character that is not blank, and before each blank
in it there is an odd number of quotes. -/
structure IsSolid (token : String) : Prop where
  begins : ∃ c rest, token.toList = c :: rest ∧ Text.isBlank c = false
  enclosed : ∀ before c after, token.toList = before ++ c :: after → Text.isBlank c = true →
    before.count '"' % 2 = 1

/-- Texts that can be the tokens of one text: in all but the last one the quotes come in pairs. -/
structure AreSolid (tokens : List String) : Prop where
  solid : ∀ token ∈ tokens, IsSolid token
  paired : ∀ token ∈ tokens.dropLast, quotes token % 2 = 0

/-- `IsSolid` is `IsToken` said by the quotes before each blank. -/
theorem isSolid_iff : IsSolid token ↔ IsToken token.toList := by
  constructor
  · rintro ⟨⟨c, rest, hs, -⟩, henclosed⟩
    refine ⟨by rw [hs]; exact List.cons_ne_nil c rest, unbroken_iff.2 ?_⟩
    intro before d after hsplit hblank
    exact quotedAfter_eq_true_iff.2 (henclosed before d after hsplit hblank)
  · rintro ⟨hne, hunbroken⟩
    rw [unbroken_iff] at hunbroken
    obtain ⟨c, rest, hs⟩ := List.exists_cons_of_ne_nil hne
    refine ⟨⟨c, rest, hs, ?_⟩, fun before d after hsplit hblank =>
      quotedAfter_eq_true_iff.1 (hunbroken before d after hsplit hblank)⟩
    -- no quote is open before the first character
    refine Bool.eq_false_iff.2 fun hblank => ?_
    have hopen : quotedAfter false [] = true := hunbroken [] c rest hs hblank
    cases hopen

/-- `AreSolid`, one token at a time. -/
theorem areSolid_cons_iff : AreSolid (token :: words) ↔
    IsSolid token ∧ (words ≠ [] → quotes token % 2 = 0) ∧ AreSolid words := by
  constructor
  · rintro ⟨hsolid, hpaired⟩
    obtain ⟨htoken, hrest⟩ := List.forall_mem_cons.1 hsolid
    obtain ⟨heven, hmore⟩ := forall_mem_dropLast_cons.1 hpaired
    exact ⟨htoken, heven, hrest, hmore⟩
  · rintro ⟨htoken, heven, hrest, hmore⟩
    exact ⟨List.forall_mem_cons.2 ⟨htoken, hrest⟩, forall_mem_dropLast_cons.2 ⟨heven, hmore⟩⟩

/-- `AreSolid` is `AreTokens` said by the numbers of quotes. -/
theorem areSolid_iff : AreSolid words ↔ AreTokens (words.map String.toList) := by
  induction words with
  | nil => exact ⟨fun _ => .nil, fun _ => ⟨by simp, by simp⟩⟩
  | cons token words ih =>
    rw [areSolid_cons_iff, List.map_cons, areTokens_cons_iff, isSolid_iff, ih,
      quotedAfter_eq_false_iff, Ne, Ne, List.map_eq_nil_iff]
    rfl

/-- The tokens of a text are what `scan` finds in its characters. -/
theorem tokenize_eq_iff {s : String} :
    tokenize s = words ↔ scan false [] s.toList = words.map String.toList := by
  rw [← map_toList_tokenize]
  exact (List.map_inj_right fun _ _ => String.toList_inj.1).symm

/-! ## Cuts -/

/-- A text that is taken apart: the blanks at its front, and its tokens, each with the blanks that
follow it. -/
structure Cut where
  lead : String
  parts : List (String × String)

namespace Cut

/-- The tokens of a cut. -/
def tokens (cut : Cut) : List String :=
  cut.parts.map Prod.fst

/-- The blanks before the tokens, between them and after them. -/
def gaps (cut : Cut) : List String :=
  cut.lead :: cut.parts.map Prod.snd

/-- The text that was taken apart. -/
def text (cut : Cut) : String :=
  cut.lead ++ String.join (cut.parts.map fun part => part.1 ++ part.2)

/-- The gaps are blank, two tokens have a gap between them, and a quote that is open at the end of
the last token is open to the end of the text. -/
structure Spaced (cut : Cut) : Prop where
  blank : ∀ gap ∈ cut.gaps, ∀ c ∈ gap.toList, Text.isBlank c = true
  separated : ∀ part ∈ cut.parts.dropLast, part.2 ≠ ""
  open_end : ∀ part, cut.parts.getLast? = some part → quotes part.1 % 2 = 1 → part.2 = ""

/-- The cuts that count. -/
structure Proper (cut : Cut) : Prop extends Spaced cut where
  solid : AreSolid cut.tokens

/-- The `text` of a cut without tokens is the blanks at its front. -/
theorem text_nil (lead : String) : text ⟨lead, []⟩ = lead := by
  simp [text]

/-- The `text` of a cut begins with its lead and its first token. -/
theorem text_cons (lead token gap : String) (parts : List (String × String)) :
    text ⟨lead, (token, gap) :: parts⟩ = lead ++ (token ++ text ⟨gap, parts⟩) := by
  simp only [text, List.map_cons, String.join_cons, String.append_assoc]

/-- A cut without tokens is `Spaced` if it is blank. -/
theorem spaced_nil_iff : Spaced ⟨lead, []⟩ ↔ ∀ c ∈ lead.toList, Text.isBlank c = true := by
  constructor
  · intro h
    exact h.blank lead List.mem_cons_self
  · intro h
    exact ⟨by simpa [gaps] using h, by simp, by simp⟩

/-- `Spaced`, one token at a time: the gap after it leads the cut of what is left. -/
theorem spaced_cons_iff : Spaced ⟨lead, (token, gap) :: parts⟩ ↔
    (∀ c ∈ lead.toList, Text.isBlank c = true) ∧ (parts ≠ [] → gap ≠ "") ∧
      (parts = [] → quotes token % 2 = 1 → gap = "") ∧ Spaced ⟨gap, parts⟩ := by
  constructor
  · rintro ⟨hblank, hseparated, hopen⟩
    obtain ⟨hlead, hgaps⟩ := List.forall_mem_cons.1 hblank
    obtain ⟨hgap, hmore⟩ := forall_mem_dropLast_cons.1 hseparated
    obtain ⟨hodd, hlast⟩ := forall_getLast?_cons.1 hopen
    exact ⟨hlead, hgap, hodd, hgaps, hmore, hlast⟩
  · rintro ⟨hlead, hgap, hodd, hgaps, hmore, hlast⟩
    exact ⟨List.forall_mem_cons.2 ⟨hlead, hgaps⟩, forall_mem_dropLast_cons.2 ⟨hgap, hmore⟩,
      forall_getLast?_cons.2 ⟨hodd, hlast⟩⟩

/-- The cut of a text with one more blank in front. -/
def blankBefore (c : Char) (cut : Cut) : Cut :=
  { cut with lead := String.singleton c ++ cut.lead }

/-- The cut of a text with a token in front, whose gap is what the text begins with. -/
def tokenBefore (token : String) (cut : Cut) : Cut :=
  ⟨"", (token, cut.lead) :: cut.parts⟩

/-- `blankBefore` puts a blank in front of the text. -/
theorem text_blankBefore (c : Char) (cut : Cut) :
    (cut.blankBefore c).text.toList = c :: cut.text.toList := by
  simp [blankBefore, text]

/-- `tokenBefore` puts a token in front of the text. -/
theorem text_tokenBefore (token : String) (cut : Cut) :
    (cut.tokenBefore token).text.toList = token.toList ++ cut.text.toList := by
  rw [tokenBefore, text_cons, String.empty_append, String.toList_append]

/-- `Spaced` is kept by a blank in front. -/
theorem Spaced.blankBefore {cut : Cut} (h : cut.Spaced) {c : Char} (hc : Text.isBlank c = true) :
    (cut.blankBefore c).Spaced := by
  obtain ⟨hlead, hgaps⟩ := List.forall_mem_cons.1 h.blank
  refine ⟨List.forall_mem_cons.2 ⟨?_, hgaps⟩, h.separated, h.open_end⟩
  have hchars : (String.singleton c ++ cut.lead).toList = c :: cut.lead.toList := by simp
  show ∀ d ∈ (String.singleton c ++ cut.lead).toList, Text.isBlank d = true
  rw [hchars]
  exact List.forall_mem_cons.2 ⟨hc, hlead⟩

/-- `Spaced` is kept when a token is put before a gap. -/
theorem Spaced.tokenBefore {cut : Cut} (h : cut.Spaced) (hgap : cut.parts ≠ [] → cut.lead ≠ "")
    (hodd : cut.parts = [] → quotes token % 2 = 1 → cut.lead = "") :
    (cut.tokenBefore token).Spaced :=
  spaced_cons_iff.2 ⟨by simp, hgap, hodd, h⟩

end Cut

/-! ## From the scan to a cut -/

/-- What `scan` has read of a token, together with what it has not read yet, has a `Spaced` cut with
the tokens that it finds. -/
theorem exists_spaced {read : List Char} (hq : quotedAfter false read.reverse = quoted) :
    ∃ cut : Cut, cut.Spaced ∧ cut.text.toList = read.reverse ++ cs ∧
      cut.tokens.map String.toList = scan quoted read cs := by
  induction cs generalizing quoted read with
  | nil =>
    have hend : Cut.Spaced ⟨"", []⟩ := Cut.spaced_nil_iff.2 (by simp)
    by_cases hnil : read = []
    · subst hnil
      exact ⟨⟨"", []⟩, hend, by simp [Cut.text], rfl⟩
    · refine ⟨.tokenBefore (String.ofList read.reverse) ⟨"", []⟩,
        hend.tokenBefore (fun hne => absurd rfl hne) (fun _ _ => rfl), ?_, ?_⟩
      · rw [Cut.text_tokenBefore, Cut.text_nil, String.toList_ofList]
        rfl
      · simp [Cut.tokens, Cut.tokenBefore, scan, flush, hnil]
  | cons c cs ih =>
    by_cases hc : (Text.isBlank c && !quoted) = true
    · obtain ⟨hblank, hquoted⟩ := Bool.and_eq_true_iff.1 hc
      obtain rfl : quoted = false := by simpa using hquoted
      have hstart : quotedAfter false ([] : List Char).reverse = false := rfl
      obtain ⟨cut, hspaced, htext, htokens⟩ := ih hstart
      -- the blank ends the token, if there is one, and goes into the gap after it
      have hlonger := hspaced.blankBefore hblank
      have hlongerText : (cut.blankBefore c).text.toList = c :: cs := by
        rw [Cut.text_blankBefore, htext]
        rfl
      by_cases hnil : read = []
      · subst hnil
        refine ⟨cut.blankBefore c, hlonger, hlongerText, ?_⟩
        rw [scan, if_pos hc, flush, if_pos rfl, ← htokens]
        rfl
      · have heven : ¬ quotes (String.ofList read.reverse) % 2 = 1 := by
          rw [quotes, String.toList_ofList, ← quotedAfter_eq_true_iff, hq]
          exact Bool.false_ne_true
        refine ⟨(cut.blankBefore c).tokenBefore (String.ofList read.reverse),
          hlonger.tokenBefore (fun _ => by simp [Cut.blankBefore])
            (fun _ hodd => absurd hodd heven), ?_, ?_⟩
        · rw [Cut.text_tokenBefore, hlongerText, String.toList_ofList]
        · rw [scan, if_pos hc, flush, if_neg hnil, ← htokens]
          simp [Cut.tokens, Cut.tokenBefore, Cut.blankBefore]
    · have hread : quotedAfter false (c :: read).reverse = (quoted != (c == '"')) := by
        rw [List.reverse_cons, quotedAfter_append, hq]
        rfl
      obtain ⟨cut, hspaced, htext, htokens⟩ := ih hread
      refine ⟨cut, hspaced, ?_, ?_⟩
      · rw [htext, List.reverse_cons, List.append_assoc, List.singleton_append]
      · rw [htokens, scan, if_neg hc]

/-- Every text has a `Proper` cut with the tokens of `tokenize`. -/
theorem exists_proper (s : String) :
    ∃ cut : Cut, cut.Proper ∧ cut.text = s ∧ cut.tokens = tokenize s := by
  have hstart : quotedAfter false ([] : List Char).reverse = false := rfl
  obtain ⟨cut, hspaced, htext, htokens⟩ : ∃ cut : Cut, cut.Spaced ∧ cut.text.toList = s.toList ∧
      cut.tokens.map String.toList = scan false [] s.toList := exists_spaced hstart
  refine ⟨cut, ⟨hspaced, areSolid_iff.2 ?_⟩, String.toList_inj.1 htext,
    (tokenize_eq_iff.2 htokens.symm).symm⟩
  rw [htokens]
  exact areTokens_scan trivial rfl

/-! ## From a cut to the scan -/

/-- `scan` passes over blanks between tokens. -/
theorem scan_blank_append (h : ∀ c ∈ cs, Text.isBlank c = true) :
    scan false [] (cs ++ ds) = scan false [] ds := by
  induction cs with
  | nil => rfl
  | cons c cs ih =>
    obtain ⟨hc, hrest⟩ := List.forall_mem_cons.1 h
    rw [List.cons_append, scan, if_pos (by rw [hc]; rfl), flush, if_pos rfl, ih hrest]

/-- `scan` ends a token where the text does, or at a blank that no quote encloses. -/
theorem scan_of_token_end {word : List Char} (hne : word ≠ [])
    (hend : ∀ c, ds.head? = some c → Text.isBlank c = true ∧ quoted = false) :
    scan quoted word.reverse ds = word :: scan false [] ds := by
  have hread : word.reverse ≠ [] := mt List.reverse_eq_nil_iff.1 hne
  cases ds with
  | nil => simp [scan, flush, hne]
  | cons c ds =>
    obtain ⟨hc, hquoted⟩ := hend c rfl
    have hbreak : (Text.isBlank c && !quoted) = true := by rw [hc, hquoted]; rfl
    have hskip : scan false [] ([c] ++ ds) = scan false [] ds :=
      scan_blank_append (by simpa using hc)
    rw [List.singleton_append] at hskip
    rw [hskip, scan, if_pos hbreak, flush, if_neg hread, List.reverse_reverse]

namespace Cut

/-- `scan` finds the tokens of a `Proper` cut. -/
theorem Proper.scan_text {cut : Cut} (h : cut.Proper) :
    scan false [] cut.text.toList = cut.tokens.map String.toList := by
  obtain ⟨lead, parts⟩ := cut
  induction parts generalizing lead with
  | nil =>
    have hblank := spaced_nil_iff.1 h.toSpaced
    rw [text_nil, ← List.append_nil lead.toList, scan_blank_append hblank]
    rfl
  | cons part parts ih =>
    obtain ⟨token, gap⟩ := part
    obtain ⟨hlead, hgap, hodd, hspaced⟩ := spaced_cons_iff.1 h.toSpaced
    obtain ⟨hsolid, heven, hrest⟩ := areSolid_cons_iff.1 h.solid
    obtain ⟨hne, hunbroken⟩ := isSolid_iff.1 hsolid
    -- the token ends where it does: after it comes a blank outside quotes, or nothing
    have hend : ∀ c, (text ⟨gap, parts⟩).toList.head? = some c →
        Text.isBlank c = true ∧ quotedAfter false token.toList = false := by
      intro c hc
      by_cases hempty : gap = ""
      · -- nothing but the last token has no gap after it
        have hnil : parts = [] := Classical.byContradiction fun hmore => hgap hmore hempty
        rw [hnil, text_nil, hempty] at hc
        cases hc
      · obtain ⟨d, rest, hd⟩ := List.exists_cons_of_ne_nil (mt String.toList_eq_nil_iff.1 hempty)
        have hfirst : d = c := by
          rw [text, String.toList_append, hd] at hc
          simpa using hc
        refine ⟨(List.forall_mem_cons.1 hspaced.blank).1 c (by rw [hd, hfirst]; simp), ?_⟩
        rw [quotedAfter_eq_false_iff]
        by_cases hnil : parts = []
        · have hpair := mt (hodd hnil) hempty
          unfold quotes at hpair
          omega
        · exact heven (mt List.map_eq_nil_iff.1 hnil)
    rw [text_cons, String.toList_append, String.toList_append, scan_blank_append hlead,
      scan_append hunbroken, List.append_nil, scan_of_token_end hne hend, ih gap ⟨hspaced, hrest⟩]
    rfl

/-- `tokenize` gives the tokens of a `Proper` cut. -/
theorem Proper.tokenize_text {cut : Cut} (h : cut.Proper) : tokenize cut.text = cut.tokens :=
  tokenize_eq_iff.2 h.scan_text

/-! ## A text has one proper cut -/

/-- The lead of a `Proper` cut goes up to the first character that is not blank. -/
theorem Proper.lead_eq {cut : Cut} (h : cut.Proper) :
    cut.lead.toList = cut.text.toList.takeWhile Text.isBlank := by
  obtain ⟨lead, parts⟩ := cut
  have hlead := (List.forall_mem_cons.1 h.blank).1
  have hstop : ∀ rest : List Char, rest.takeWhile Text.isBlank = [] →
      (lead.toList ++ rest).takeWhile Text.isBlank = lead.toList := by
    intro rest hrest
    rw [List.takeWhile_append_of_pos hlead, hrest, List.append_nil]
  cases parts with
  | nil =>
    rw [text_nil, ← List.append_nil lead.toList]
    simpa using (hstop [] rfl).symm
  | cons part parts =>
    obtain ⟨token, gap⟩ := part
    obtain ⟨⟨c, rest, hc, hblank⟩, -⟩ := (areSolid_cons_iff.1 h.solid).1
    rw [text_cons, String.toList_append, String.toList_append, hc, hstop]
    rw [List.cons_append, List.takeWhile_cons_of_neg (by rw [hblank]; decide)]

/-- A text has one `Proper` cut. -/
theorem Proper.eq_of_text_eq {cut other : Cut} (h : cut.Proper) (ho : other.Proper)
    (htext : other.text = cut.text) : other = cut := by
  have htokens : other.tokens = cut.tokens := by
    rw [← ho.tokenize_text, ← h.tokenize_text, htext]
  obtain ⟨lead, parts⟩ := cut
  obtain ⟨lead', parts'⟩ := other
  induction parts generalizing lead lead' parts' with
  | nil =>
    obtain rfl : parts' = [] := List.map_eq_nil_iff.1 htokens
    rw [text_nil, text_nil] at htext
    rw [htext]
  | cons part parts ih =>
    -- the tokens are equal, so it is enough that the gaps before them are, one after the other
    have hlead : lead' = lead := by
      apply String.toList_inj.1
      rw [ho.lead_eq, h.lead_eq, htext]
    obtain ⟨token, gap⟩ := part
    obtain ⟨⟨_, gap'⟩, parts', rfl, rfl, hmore⟩ := List.map_eq_cons_iff.1 htokens
    have hrest : Proper ⟨gap, parts⟩ :=
      ⟨(spaced_cons_iff.1 h.toSpaced).2.2.2, (areSolid_cons_iff.1 h.solid).2.2⟩
    have hrest' : Proper ⟨gap', parts'⟩ :=
      ⟨(spaced_cons_iff.1 ho.toSpaced).2.2.2, (areSolid_cons_iff.1 ho.solid).2.2⟩
    have htail : text ⟨gap', parts'⟩ = text ⟨gap, parts⟩ := by
      rw [text_cons, text_cons, hlead] at htext
      exact String.append_right_inj _ |>.1 (String.append_right_inj _ |>.1 htext)
    have hsame := ih gap hrest gap' parts' hrest' htail hmore
    rw [Cut.mk.injEq] at hsame
    rw [hlead, hsame.1, hsame.2]

end Cut

/-! ## What the tokens of a text are -/

/-- `tokenize` finds words again that are written with single spaces between them, exactly if they
are solid (`AreSolid`). -/
theorem tokenize_intercalate_iff : tokenize (" ".intercalate words) = words ↔ AreSolid words := by
  constructor
  · intro h
    obtain ⟨cut, hproper, -, htokens⟩ := exists_proper (" ".intercalate words)
    rw [← h, ← htokens]
    exact hproper.solid
  · intro h
    rw [tokenize_eq_iff, String.toList_intercalate]
    exact scan_intercalate (areSolid_iff.1 h)

/-- **Tokenizing is exact.** Every text is that of one `Cut` that is `Proper`, and `tokenize` gives
the tokens of this cut. Words are the tokens of their own spaced text exactly if they are solid
(`AreSolid`). So the tokens of any text are those of the text in which they are spaced by single
blanks. -/
theorem tokenize_exact (s : String) :
    (∃ cut : Cut, cut.Proper ∧ cut.text = s ∧ cut.tokens = tokenize s ∧
      ∀ other : Cut, other.Proper → other.text = s → other = cut) ∧
    (∀ words, AreSolid words ↔ tokenize (" ".intercalate words) = words) ∧
    tokenize (" ".intercalate (tokenize s)) = tokenize s := by
  obtain ⟨cut, hproper, htext, htokens⟩ := exists_proper s
  refine ⟨⟨cut, hproper, htext, htokens, fun other ho hs => ?_⟩,
    fun words => tokenize_intercalate_iff.symm, ?_⟩
  · exact hproper.eq_of_text_eq ho (hs.trans htext.symm)
  · rw [tokenize_intercalate_iff, ← htokens]
    exact hproper.solid

/-- The blank in the second token is enclosed, and the one at the end is behind a quote that is
never closed. -/
theorem tokenize_exact_open_quote :
    (∀ other : Cut, other.Proper → other.text = " PRINT \"a b\"c  \"d " →
      other = ⟨" ", [("PRINT", " "), ("\"a b\"c", "  "), ("\"d ", "")]⟩) ∧
    tokenize "PRINT \"a b\"c \"d " = ["PRINT", "\"a b\"c", "\"d "] := by
  have hsolid : AreSolid ["PRINT", "\"a b\"c", "\"d "] :=
    tokenize_intercalate_iff.1 (tokenize_eq_iff.2 (by decide))
  obtain ⟨⟨cut, -, -, -, hunique⟩, hjoined, -⟩ := tokenize_exact " PRINT \"a b\"c  \"d "
  have hcut := hunique ⟨" ", [("PRINT", " "), ("\"a b\"c", "  "), ("\"d ", "")]⟩
    ⟨⟨by simp [Cut.gaps, Text.isBlank], by decide, by decide⟩, hsolid⟩ (by decide)
  exact ⟨fun other ho hs => (hunique other ho hs).trans hcut.symm, (hjoined _).1 hsolid⟩

end Line

end Sketch
