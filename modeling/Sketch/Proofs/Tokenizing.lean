import Sketch.Line

/-!
# Cutting a text into tokens

A blank ends a token unless it stands between quotes. Characters without such a blank belong to one
token (`Unbroken`), and the scan takes them at once (`scan_append`). So the tokens of a text are
found again when they are written one after the other with spaces between them (`scan_intercalate`),
and any list of tokens is that of a line (`exists_tokens_eq`).
-/

namespace Sketch

/-- `dropEndWhile` drops nothing if the last element stays. -/
theorem Text.dropEndWhile_eq_self {α : Type} {p : α → Bool} {l : List α}
    (h : ∀ a, l.getLast? = some a → p a = false) : dropEndWhile p l = l := by
  rcases List.eq_nil_or_concat l with rfl | ⟨init, a, rfl⟩
  · rfl
  · rw [List.concat_eq_append] at h ⊢
    rw [dropEndWhile_append_singleton, h a (by simp)]
    rfl

namespace Line

variable {quoted : Bool} {token cs ds : List Char} {tokens : List (List Char)}

/-- Whether a quote is open after these characters. -/
def quotedAfter (quoted : Bool) (cs : List Char) : Bool :=
  cs.foldl (fun quoted c => quoted != (c == '"')) quoted

/-- None of the characters is a blank outside of quotes. -/
def Unbroken : (quoted : Bool) → List Char → Prop
  | _, [] => True
  | quoted, c :: cs => (Text.isBlank c && !quoted) = false ∧ Unbroken (quoted != (c == '"')) cs

/-- `quotedAfter` over two parts. -/
theorem quotedAfter_append :
    quotedAfter quoted (cs ++ ds) = quotedAfter (quotedAfter quoted cs) ds :=
  List.foldl_append

/-- `Unbroken`, part by part. -/
theorem unbroken_append :
    Unbroken quoted (cs ++ ds) ↔ Unbroken quoted cs ∧ Unbroken (quotedAfter quoted cs) ds := by
  induction cs generalizing quoted with
  | nil => simp [Unbroken, quotedAfter]
  | cons c cs ih =>
    rw [List.cons_append, Unbroken, Unbroken, ih, and_assoc]
    rfl

/-- `quotedAfter` is unchanged by characters without quotes. -/
theorem quotedAfter_of_not_mem (h : '"' ∉ cs) : quotedAfter quoted cs = quoted := by
  induction cs generalizing quoted with
  | nil => rfl
  | cons c cs ih =>
    rw [List.mem_cons, not_or] at h
    have hc : (c == '"') = false := beq_false_of_ne fun heq => h.1 heq.symm
    rw [quotedAfter, List.foldl_cons, hc, Bool.bne_false]
    exact ih h.2

/-- Characters without blanks and quotes are `Unbroken` anywhere. -/
theorem unbroken_of_plain (hq : '"' ∉ cs) (hb : ∀ c ∈ cs, Text.isBlank c = false) :
    Unbroken quoted cs := by
  induction cs generalizing quoted with
  | nil => trivial
  | cons c cs ih =>
    rw [List.mem_cons, not_or] at hq
    rw [List.forall_mem_cons] at hb
    exact ⟨by rw [hb.1]; rfl, ih hq.2 hb.2⟩

/-- `scan` takes `Unbroken` characters at once. -/
theorem scan_append (h : Unbroken quoted cs) :
    scan quoted token (cs ++ ds) = scan (quotedAfter quoted cs) (cs.reverse ++ token) ds := by
  induction cs generalizing quoted token with
  | nil => rfl
  | cons c cs ih =>
    obtain ⟨hc, hrest⟩ := h
    rw [List.cons_append, scan, hc, if_neg (by decide), ih hrest, List.reverse_cons,
      List.append_assoc]
    rfl

/-! ## What tokens are like -/

/-- The characters of a token. -/
structure IsToken (cs : List Char) : Prop where
  ne_nil : cs ≠ []
  unbroken : Unbroken false cs

/-- The tokens of one text: in all but the last one every quote is closed. -/
inductive AreTokens : List (List Char) → Prop where
  | nil : AreTokens []
  | last {token : List Char} (ht : IsToken token) : AreTokens [token]
  | cons {token : List Char} {tokens : List (List Char)} (ht : IsToken token)
      (hclosed : quotedAfter false token = false) (hrest : AreTokens tokens) :
      AreTokens (token :: tokens)

/-- `AreTokens`, one token at a time. -/
theorem areTokens_cons_iff : AreTokens (token :: tokens) ↔
    IsToken token ∧ (tokens ≠ [] → quotedAfter false token = false) ∧ AreTokens tokens := by
  constructor
  · intro h
    cases h with
    | last ht => exact ⟨ht, fun hne => absurd rfl hne, .nil⟩
    | cons ht hclosed hrest => exact ⟨ht, fun _ => hclosed, hrest⟩
  · rintro ⟨ht, hclosed, hrest⟩
    by_cases hnil : tokens = []
    · rw [hnil]
      exact .last ht
    · exact .cons ht (hclosed hnil) hrest

/-- What `scan` finds are tokens, whatever was read of the present one. -/
theorem areTokens_scan (hu : Unbroken false token.reverse)
    (hq : quotedAfter false token.reverse = quoted) : AreTokens (scan quoted token cs) := by
  have htoken : ∀ {token : List Char}, Unbroken false token.reverse → token ≠ [] →
      IsToken token.reverse :=
    fun hu hne => ⟨fun hnil => hne (List.reverse_eq_nil_iff.1 hnil), hu⟩
  -- on the characters that are left, with the token read so far in reverse
  induction cs generalizing quoted token with
  | nil =>
    rw [scan, flush]
    split
    · exact .nil
    · next hne => exact .last (htoken hu hne)
  | cons c cs ih =>
    rw [scan]
    split
    · next hc =>
      have hclosed : quoted = false := by simpa using (Bool.and_eq_true_iff.1 hc).2
      have hrest : AreTokens (scan false [] cs) := ih trivial rfl
      rw [flush]
      split
      · exact hrest
      · next hne => exact .cons (htoken hu hne) (hq.trans hclosed) hrest
    · next hc =>
      refine ih ?_ ?_
      · rw [List.reverse_cons, unbroken_append, hq]
        exact ⟨hu, Bool.eq_false_iff.2 hc, trivial⟩
      · rw [List.reverse_cons, quotedAfter_append, hq]
        rfl

/-- A blank at the end of the last token of `scan` stands in an open quote, which goes to the end of
the text. -/
theorem getLast?_of_scan {c : Char}
    (hopen : ∀ d, token.head? = some d → Text.isBlank d = true → quoted = true)
    (ht : (scan quoted token cs).getLast? = some ds) (hc : ds.getLast? = some c)
    (hblank : Text.isBlank c = true) : (token.reverse ++ cs).getLast? = some c := by
  induction cs generalizing quoted token with
  | nil =>
    rw [scan, flush] at ht
    split at ht
    · cases ht
    · cases ht
      rw [List.append_nil]
      exact hc
  | cons d cs ih =>
    rw [scan] at ht
    split at ht
    · next hd =>
      have hclosed : quoted = false := by simpa using (Bool.and_eq_true_iff.1 hd).2
      have hmore : (scan false [] cs).getLast? = some ds → cs.getLast? = some c := fun hlast =>
        ih (fun _ hnone _ => by cases hnone) hlast
      have hlast : (scan false [] cs).getLast? = some ds := by
        rw [flush] at ht
        split at ht
        · exact ht
        · cases hrest : scan false [] cs with
          | cons first rest => rw [hrest, List.getLast?_cons_cons] at ht; exact ht
          | nil =>
            -- the token before a blank ends with its own last character, outside of quotes
            rw [hrest, List.getLast?_singleton, Option.some.injEq] at ht
            rw [← ht, List.getLast?_reverse] at hc
            rw [hopen c hc hblank] at hclosed
            cases hclosed
      rw [List.getLast?_append, List.getLast?_cons, hmore hlast]
      rfl
    · next hd =>
      have hnext : ∀ e, (d :: token).head? = some e → Text.isBlank e = true →
          (quoted != (d == '"')) = true := by
        intro e he hb
        cases he
        have hquoted : quoted = true := by simpa [hb] using hd
        have hquote : (d == '"') = false := beq_false_of_ne (by rintro rfl; cases hb)
        rw [hquoted, hquote]
        rfl
      have hall := ih hnext ht
      rw [List.reverse_cons, List.append_assoc] at hall
      exact hall

/-! ## Tokens with spaces between them -/

/-- `scan` finds tokens again that are written with spaces between them. -/
theorem scan_intercalate (h : AreTokens tokens) :
    scan false [] ([' '].intercalate tokens) = tokens := by
  have hlast : ∀ {token : List Char}, IsToken token → scan false [] token = [token] := by
    intro token ht
    have hscan : scan false [] (token ++ []) = scan _ (token.reverse ++ []) [] :=
      scan_append ht.unbroken
    rw [List.append_nil, List.append_nil, scan, flush,
      if_neg fun hnil => ht.ne_nil (List.reverse_eq_nil_iff.1 hnil), List.reverse_reverse] at hscan
    exact hscan
  induction h with
  | nil => rfl
  | last ht => rw [List.intercalate_singleton, hlast ht]
  | @cons token tokens ht hclosed _ ih =>
    cases tokens with
    | nil => rw [List.intercalate_singleton, hlast ht]
    | cons next rest =>
      rw [List.intercalate_cons_cons, List.append_assoc, scan_append ht.unbroken, hclosed,
        List.append_nil, List.singleton_append, scan, if_pos (by decide), flush,
        if_neg fun hnil => ht.ne_nil (List.reverse_eq_nil_iff.1 hnil), List.reverse_reverse, ih]

/-- The last character of `intercalate` is that of the last token. -/
theorem getLast?_intercalate (h : ∀ token ∈ tokens, token ≠ []) :
    ([' '].intercalate tokens).getLast? = tokens.getLast?.bind List.getLast? := by
  induction tokens with
  | nil => rfl
  | cons token tokens ih =>
    cases tokens with
    | nil => rw [List.intercalate_singleton]; rfl
    | cons next rest =>
      rw [List.forall_mem_cons] at h
      have hrest := ih h.2
      have hsome : ([' '].intercalate (next :: rest)).getLast?.isSome = true := by
        rw [hrest, List.getLast?_eq_some_getLast (List.cons_ne_nil next rest),
          Option.bind_some, List.getLast?_isSome]
        exact h.2 _ (List.getLast_mem _)
      rw [List.intercalate_cons_cons, List.getLast?_append, Option.or_of_isSome hsome, hrest,
        List.getLast?_cons_cons]

/-- Each of `AreTokens` is a token. -/
theorem AreTokens.isToken (h : AreTokens tokens) : ∀ token ∈ tokens, IsToken token := by
  induction h with
  | nil => simp
  | last ht => simpa using ht
  | cons ht _ _ ih => exact List.forall_mem_cons.2 ⟨ht, ih⟩

/-- The last of these tokens does not end with a line break. -/
def EndsInLine (tokens : List (List Char)) : Prop :=
  ∀ token, tokens.getLast? = some token → ∀ c, token.getLast? = some c → isBreak c = false

/-- `EndsInLine`, one token at a time. -/
theorem endsInLine_cons_iff : EndsInLine (token :: tokens) ↔
    (tokens = [] → ∀ c, token.getLast? = some c → isBreak c = false) ∧ EndsInLine tokens := by
  cases tokens with
  | nil => simp [EndsInLine]
  | cons next rest => simp [EndsInLine, List.getLast?_cons_cons]

/-- The tokens of the line in which tokens are written with spaces between them (`AreTokens`,
`EndsInLine`). -/
theorem tokens_ofText_intercalate {words : List String}
    (h : AreTokens (words.map String.toList)) (hend : EndsInLine (words.map String.toList)) :
    (ofText (" ".intercalate words)).tokens = words := by
  have hchars : (" ".intercalate words).toList = [' '].intercalate (words.map String.toList) :=
    String.toList_intercalate
  have hbreaks : dropBreaks (" ".intercalate words) = " ".intercalate words := by
    rw [dropBreaks, Text.dropEndWhile_eq_self, String.ofList_toList]
    intro c hc
    rw [hchars, getLast?_intercalate fun token ht => (h.isToken token ht).ne_nil,
      Option.bind_eq_some_iff] at hc
    obtain ⟨token, htoken, hc⟩ := hc
    exact hend token htoken c hc
  rw [tokens_eq, text_ofText, hbreaks, tokenize, hchars, scan_intercalate h, List.map_map]
  exact (List.map_congr_left fun word _ => String.ofList_toList).trans (List.map_id words)

/-- Tokens with which a line can end (`EndsInLine`) are those of a line. -/
theorem exists_tokens_eq {words : List String} (h : AreTokens (words.map String.toList))
    (hend : EndsInLine (words.map String.toList)) : ∃ line : Line, line.tokens = words :=
  ⟨_, tokens_ofText_intercalate h hend⟩

/-- `tokenize` is `scan` on characters. -/
theorem map_toList_tokenize (s : String) :
    (tokenize s).map String.toList = scan false [] s.toList := by
  rw [tokenize, List.map_map]
  exact (List.map_congr_left fun _ _ => String.toList_ofList).trans (List.map_id _)

/-- The tokens of a line are what `scan` finds in its text. -/
theorem map_toList_tokens (line : Line) :
    line.tokens.map String.toList = scan false [] line.text.toList := by
  rw [line.tokens_eq, map_toList_tokenize]

/-- The tokens of a line are in `AreTokens`. -/
theorem areTokens (line : Line) : AreTokens (line.tokens.map String.toList) := by
  rw [map_toList_tokens]
  exact areTokens_scan trivial rfl

/-- A break is a blank. -/
theorem isBlank_of_isBreak {c : Char} (h : isBreak c = true) : Text.isBlank c = true := by
  unfold isBreak at h
  rcases Bool.or_eq_true_iff.1 h with h | h
  · rw [beq_iff_eq.1 h]
    decide
  · rw [beq_iff_eq.1 h]
    decide

/-- The tokens of a line are in `EndsInLine`. -/
theorem endsInLine (line : Line) : EndsInLine (line.tokens.map String.toList) := by
  intro token htoken c hc
  rw [map_toList_tokens] at htoken
  refine Bool.eq_false_iff.2 fun hbreak => ?_
  have hlast := getLast?_of_scan (fun _ hnone _ => by cases hnone) htoken hc
    (isBlank_of_isBreak hbreak)
  rw [List.reverse_nil, List.nil_append] at hlast
  -- then the text would end with a line break
  obtain ⟨init, hinit⟩ := List.getLast?_eq_some_iff.1 hlast
  have hdrop := congrArg String.toList line.dropBreaks_eq
  rw [dropBreaks, String.toList_ofList, hinit, Text.dropEndWhile_append_singleton,
    if_pos hbreak] at hdrop
  obtain ⟨dropped, hsplit, -⟩ := Text.dropEndWhile_isPrefix isBreak init
  have hlength := congrArg List.length hsplit
  rw [hdrop, List.length_append, List.length_append, List.length_singleton] at hlength
  omega

/-! ## Words without blanks and quotes -/

/-- Characters that are a token by themselves and leave no quote open. -/
structure IsWord (cs : List Char) : Prop where
  ne_nil : cs ≠ []
  not_quote : '"' ∉ cs
  not_blank : ∀ c ∈ cs, Text.isBlank c = false

/-- A word is a token. -/
theorem IsWord.isToken (h : IsWord cs) : IsToken cs :=
  ⟨h.ne_nil, unbroken_of_plain h.not_quote h.not_blank⟩

/-- After a word no quote is open (`quotedAfter`). -/
theorem IsWord.quotedAfter_eq (h : IsWord cs) : quotedAfter false cs = false :=
  quotedAfter_of_not_mem h.not_quote

/-- A word does not end with a line break. -/
theorem IsWord.isBreak_eq_false (h : IsWord cs) {c : Char} (hc : cs.getLast? = some c) :
    isBreak c = false := by
  refine Bool.eq_false_iff.2 fun hbreak => ?_
  have hblank := h.not_blank c (List.mem_of_getLast? hc)
  rw [isBlank_of_isBreak hbreak] at hblank
  cases hblank

/-- The tokens of words with spaces between them are the words (`IsWord`). -/
theorem tokens_ofText_words {words : List String} (h : ∀ word ∈ words, IsWord word.toList) :
    (ofText (" ".intercalate words)).tokens = words := by
  refine tokens_ofText_intercalate ?_ ?_
  · induction words with
    | nil => exact .nil
    | cons word words ih =>
      rw [List.forall_mem_cons] at h
      exact .cons h.1.isToken h.1.quotedAfter_eq (ih h.2)
  · intro token htoken c hc
    obtain ⟨word, hword, rfl⟩ := List.mem_map.1 (List.mem_of_getLast? htoken)
    exact (h word hword).isBreak_eq_false hc

end Line

end Sketch
