import Sketch.Proofs.Assignments
import Sketch.Proofs.Replay

/-!
# Headers and calls as they are written

A header and a call are a name with a list in brackets. Main statement: `Engine.signatures_exact`,
such a line is read exactly when its token is the name, an opening bracket, the items with commas
between them and a closing bracket, character by character, and the items are what they have to be.

Reading is more generous than that: it takes blanks from around the items. But a token has a blank
only between quotes, and a quote would end up in the name or in an item, where nothing that is
named, bound or a literal has one (`Bracketed.eq_text_of_guarded`).

`Bracketed.cut?` reads the same list by offsets in bytes, where a piece can be cut at a wrong place.
It never is (`Bracketed.cut?_eq`): the marks at which the list is cut are one byte long, and every
offset lies before or after one of them.
-/

namespace Sketch

/-! ## Cutting by bytes -/

namespace Text

/-- `slice?` finds what stands between two texts between their offsets. -/
theorem slice?_append (before inner after : String) :
    slice? (before ++ inner ++ after) before.utf8ByteSize
      (before.utf8ByteSize + inner.utf8ByteSize) = some inner := by
  have hlo : String.Pos.Raw.IsValid (before ++ inner ++ after) ⟨before.utf8ByteSize⟩ :=
    String.Pos.Raw.isValid_iff_exists_append.2 ⟨before, inner ++ after, String.append_assoc, rfl⟩
  have hhi : String.Pos.Raw.IsValid (before ++ inner ++ after)
      ⟨before.utf8ByteSize + inner.utf8ByteSize⟩ :=
    String.Pos.Raw.isValid_iff_exists_append.2
      ⟨before ++ inner, after, rfl, by rw [← String.utf8ByteSize_append]; rfl⟩
  rw [slice?, dif_pos ⟨Nat.le_add_right _ _, hlo, hhi⟩, Option.some.injEq, ← String.toByteArray_inj]
  have hbytes : (before ++ inner ++ after).toByteArray =
      before.toByteArray ++ (inner.toByteArray ++ after.toByteArray) := by
    rw [String.append_assoc, String.toByteArray_append, String.toByteArray_append]
  show (before ++ inner ++ after).toByteArray.extract (before.toByteArray.size + 0)
    (before.toByteArray.size + inner.toByteArray.size) = inner.toByteArray
  rw [hbytes, ByteArray.extract_append_size_add, ByteArray.extract_append_eq_left rfl]

/-- `offset?` finds no character that is not there. -/
theorem offset?_eq_none {c : Char} {cs : List Char} (h : c ∉ cs) : offset? c cs = none := by
  induction cs with
  | nil => rfl
  | cons d ds ih =>
    rw [List.mem_cons, not_or] at h
    rw [offset?, if_neg (Ne.symm h.1), ih h.2]
    rfl

/-- `offset?` is the number of bytes before the character. -/
theorem offset?_append {c : Char} {cs ds : List Char} (h : c ∉ cs) :
    offset? c (cs ++ c :: ds) = some (String.ofList cs).utf8ByteSize := by
  induction cs with
  | nil => exact if_pos rfl
  | cons d cs ih =>
    rw [List.mem_cons, not_or] at h
    rw [List.cons_append, offset?, if_neg (Ne.symm h.1), ih h.2, String.ofList_cons,
      String.utf8ByteSize_append, String.utf8ByteSize_singleton]
    rfl

/-- What stands in one of the pieces stands in `intercalate`. -/
theorem mem_intercalate_of_mem {sep c : Char} {piece : List Char} {pieces : List (List Char)}
    (hpiece : piece ∈ pieces) (hc : c ∈ piece) : c ∈ [sep].intercalate pieces := by
  induction pieces with
  | nil => cases hpiece
  | cons first rest ih =>
    cases rest with
    | nil =>
      rw [List.mem_singleton] at hpiece
      rw [List.intercalate_singleton]
      exact hpiece ▸ hc
    | cons next rest =>
      rw [List.intercalate_cons_cons, List.mem_append]
      rcases List.mem_cons.1 hpiece with rfl | hrest
      · exact .inl (List.mem_append_left _ hc)
      · exact .inr (ih hrest)

end Text

namespace Bracketed

variable {s : String} {b : Bracketed} {c : Char}

/-- `parse?` reads no text without an opening bracket or without a closing bracket at its end. -/
theorem parse?_eq_none (h : '(' ∉ s.toList ∨ s.toList.getLast? ≠ some ')') : parse? s = none := by
  refine Option.eq_none_iff_forall_ne_some.2 fun b hb => ?_
  obtain ⟨inner, hs, -⟩ := parse?_eq_some hb
  rcases h with h | h
  · exact h (by rw [hs]; simp)
  · refine h ?_
    rw [hs, ← List.cons_append, ← List.append_assoc]
    exact List.getLast?_concat

/-- `cut?` gives the head and what stands between the brackets. -/
theorem cut?_of_brackets {head inner : String} (hhead : '(' ∉ head.toList) :
    cut? (head ++ "(" ++ inner ++ ")") =
      some (if inner.toList.any Command.isBracket then none
        else some ⟨head, itemsOf inner.toList⟩) := by
  have hchars : (head ++ "(" ++ inner ++ ")").toList =
      head.toList ++ '(' :: (inner.toList ++ [')']) := by simp
  -- each slice begins and ends at a character: the sizes of the parts add up to the offsets
  have hstart : Text.offset? '(' (head ++ "(" ++ inner ++ ")").toList =
      some head.utf8ByteSize := by
    rw [hchars, Text.offset?_append hhead, String.ofList_toList]
  have hlast : (head ++ "(" ++ inner ++ ")").toList.getLast? = some ')' := by
    rw [hchars, ← List.cons_append, ← List.append_assoc]
    exact List.getLast?_concat
  have hopen : (head ++ "(").utf8ByteSize = head.utf8ByteSize + 1 := String.utf8ByteSize_append
  have hfinish : (head ++ "(" ++ inner ++ ")").utf8ByteSize - 1 =
      head.utf8ByteSize + 1 + inner.utf8ByteSize := by
    rw [String.utf8ByteSize_append, String.utf8ByteSize_append, hopen]
    exact Nat.add_sub_cancel _ 1
  have hinner : Text.slice? (head ++ "(" ++ inner ++ ")") (head.utf8ByteSize + 1)
      (head.utf8ByteSize + 1 + inner.utf8ByteSize) = some inner := by
    rw [← hopen]
    exact Text.slice?_append (head ++ "(") inner ")"
  have hfront : Text.slice? (head ++ "(" ++ inner ++ ")") 0 head.utf8ByteSize = some head := by
    have hslice := Text.slice?_append "" head ("(" ++ inner ++ ")")
    rwa [String.empty_append, String.utf8ByteSize_empty, Nat.zero_add, ← String.append_assoc,
      ← String.append_assoc] at hslice
  rw [cut?, hstart]
  simp only [hlast, hfinish, hinner, hfront, Nat.le_add_right, and_self, if_true]
  by_cases hany : inner.toList.any Command.isBracket = true
  · rw [if_pos hany]
    exact if_pos hany
  · rw [if_neg hany]
    exact if_neg hany

/-- `parse?` gives the head and what stands between the brackets, too. -/
theorem parse?_of_brackets {head inner : String} (hhead : '(' ∉ head.toList) :
    parse? (head ++ "(" ++ inner ++ ")") =
      if inner.toList.any Command.isBracket then none
      else some ⟨head, itemsOf inner.toList⟩ := by
  have htext : head ++ "(" ++ inner ++ ")" = text ⟨head, [inner]⟩ ++ "" :=
    String.toList_inj.1 (by rw [toList_text_append]; simp [between])
  have hbetween : between [inner] = inner.toList := by simp [between]
  rw [htext, parse?_text_append hhead, hbetween]
  by_cases hany : inner.toList.any Command.isBracket = true
  · obtain ⟨c, hc, hbracket⟩ := List.any_eq_true.1 hany
    rw [if_pos hany, if_neg]
    rintro ⟨-, hopen, hclose⟩
    rcases Bool.or_eq_true_iff.1 hbracket with heq | heq
    · exact hopen (beq_iff_eq.1 heq ▸ hc)
    · exact hclose (beq_iff_eq.1 heq ▸ hc)
  · rw [Bool.not_eq_true, List.any_eq_false] at hany
    have hnone : ¬ inner.toList.any Command.isBracket = true := by simpa using hany
    rw [if_neg hnone, if_pos ⟨rfl, fun hc => hany _ hc rfl, fun hc => hany _ hc rfl⟩]

/-- What has an opening bracket and ends with a closing one has a head and something between the
first bracket and the last character. -/
theorem exists_brackets (hopen : '(' ∈ s.toList) (hlast : s.toList.getLast? = some ')') :
    ∃ head inner : String, '(' ∉ head.toList ∧ s = head ++ "(" ++ inner ++ ")" := by
  obtain ⟨pre, post, hs, hpre⟩ := List.eq_append_cons_of_mem hopen
  rcases List.eq_nil_or_concat post with rfl | ⟨inner, d, rfl⟩
  · -- the opening bracket would be the last character
    rw [hs, List.getLast?_concat] at hlast
    cases hlast
  · rw [List.concat_eq_append] at hs
    rw [hs, ← List.cons_append, ← List.append_assoc, List.getLast?_concat,
      Option.some.injEq] at hlast
    subst hlast
    refine ⟨String.ofList pre, String.ofList inner, by rwa [String.toList_ofList], ?_⟩
    exact String.toList_inj.1 (by rw [hs]; simp)

/-- **No piece is cut at a wrong place.** `cut?`, which reads by offsets in bytes, always has a
result, and it is that of `parse?`, which reads by characters. -/
theorem cut?_eq (s : String) : cut? s = some (parse? s) := by
  by_cases hopen : '(' ∈ s.toList
  · by_cases hlast : s.toList.getLast? = some ')'
    · obtain ⟨head, inner, hhead, rfl⟩ := exists_brackets hopen hlast
      rw [cut?_of_brackets hhead, parse?_of_brackets hhead]
    · rw [parse?_eq_none (.inr hlast), cut?]
      cases Text.offset? '(' s.toList with
      | none => rfl
      | some start => exact if_neg fun h => hlast h.1
  · rw [parse?_eq_none (.inl hopen), cut?, Text.offset?_eq_none hopen]

/-! ## Written character by character -/

/-- The characters of the `text` of a list. -/
theorem toList_text (b : Bracketed) :
    b.text.toList = b.head.toList ++ '(' :: (between b.items ++ [')']) := by
  have hchars := toList_text_append b.head b.items ""
  rwa [String.append_empty] at hchars

/-- A list `Mentions` every character of its text but the marks. -/
theorem mentions_of_mem_text (hc : c ∈ b.text.toList) (hmark : c ∉ callMarks) : b.Mentions c := by
  simp only [callMarks, List.mem_cons, List.not_mem_nil, or_false, not_or] at hmark
  rw [toList_text, List.mem_append, List.mem_cons, List.mem_append, List.mem_singleton] at hc
  rcases hc with hc | hc | hc | hc
  · exact .inl hc
  · exact absurd hc hmark.1
  · rcases Text.mem_intercalate hc with hc | ⟨piece, hpiece, hc⟩
    · exact absurd hc hmark.2.1
    · obtain ⟨item, hitem, rfl⟩ := List.mem_map.1 hpiece
      exact .inr ⟨item, hitem, hc⟩
  · exact absurd hc hmark.2.2

/-- What a list `Mentions` is in its text. -/
theorem mem_text_of_mentions (h : b.Mentions c) : c ∈ b.text.toList := by
  rw [toList_text, List.mem_append, List.mem_cons, List.mem_append]
  rcases h with hc | ⟨item, hitem, hc⟩
  · exact .inl hc
  · exact .inr (.inr (.inl (Text.mem_intercalate_of_mem (List.mem_map_of_mem hitem) hc)))

/-- Where there are no blanks, what `parse?` reads is the `text` of the list. -/
theorem eq_text_of_not_blank (hp : parse? s = some b)
    (h : ∀ c ∈ s.toList, Text.isBlank c = false) : s = b.text := by
  obtain ⟨inner, hs, hitems⟩ := parse?_eq_some hp
  have hinner : ∀ c ∈ inner, Text.isBlank c = false := fun c hc => h c (by rw [hs]; simp [hc])
  have hpieces : ∀ piece ∈ Text.splitChars ',' inner, Text.trimChars piece = piece := by
    intro piece hpiece
    refine Text.trimChars_eq_self fun c hc => hinner c ?_
    exact (Text.exists_mem_splitChars_iff.1 ⟨piece, hpiece, hc⟩).1
  have hbetween : between b.items = inner := by
    rw [hitems, itemsOf, Text.trimChars_eq_self hinner]
    by_cases hnil : inner = []
    · rw [if_pos hnil, hnil]
      rfl
    · rw [if_neg hnil, between, List.map_map]
      refine (congrArg _ ?_).trans (Text.intercalate_splitChars ',' inner)
      refine (List.map_congr_left fun piece hpiece => ?_).trans (List.map_id _)
      exact String.toList_ofList.trans (hpieces piece hpiece)
  exact String.toList_inj.1 (by rw [hs, toList_text, hbetween])

/-- What `parse?` reads from a `Guarded` token is the `text` of the list, unless it `Mentions` a
quote. -/
theorem eq_text_of_guarded (hp : parse? s = some b) (hg : Line.Guarded s.toList)
    (hq : ¬ b.Mentions '"') : s = b.text :=
  eq_text_of_not_blank hp (hg fun hmem => hq (mentions_of_mem hp hmem (by decide) (by decide)))

/-- Free names in the brackets of a `Guarded` token are `Usable`. -/
theorem usable_of_guarded (hg : Line.Guarded b.text.toList) (hhead : Name.isFree b.head = true)
    (hitems : ∀ item ∈ b.items, Name.isFree item = true) :
    Name.Usable b.head ∧ ∀ item ∈ b.items, Name.Usable item := by
  have hblank := hg fun hmem =>
    not_mentions_quote hhead hitems (mentions_of_mem_text hmem (by decide))
  refine ⟨Name.usable_iff.2 ⟨hhead, fun c hc => ?_⟩, fun item hitem =>
    Name.usable_iff.2 ⟨hitems item hitem, fun c hc => ?_⟩⟩
  · exact hblank c (mem_text_of_mentions (.inl hc))
  · exact hblank c (mem_text_of_mentions (.inr ⟨item, hitem, hc⟩))

end Bracketed

/-! ## Headers -/

namespace Store

variable {store : Store} {line : Line} {cursor : Address} {name token : String}
  {parameters : List String} {method : Method} {values : List Number}

/-- `readHeader` reads a line exactly if its second token is written as a header. -/
theorem readHeader_line_iff :
    store.readHeader line.tokens cursor = .ok ⟨name, parameters⟩ ↔
      ∃ first, line.tokens = [first, Bracketed.text ⟨name, parameters⟩] ∧
        Name.isFree name = true ∧ (∀ parameter ∈ parameters, Name.isFree parameter = true) ∧
        parameters.Nodup ∧
        ∀ method, store.methods.find? name = some method → method.start = cursor := by
  rw [readHeader_eq_ok_iff]
  constructor
  · rintro ⟨⟨first, word, htokens, hp⟩, hname, hparameters, hundefined⟩
    have hhead : Name.isFree name = true := Name.check_eq_ok_iff.1 hname
    have hitems : ∀ parameter ∈ parameters, Name.isFree parameter = true :=
      isFree_of_checkParameters hparameters
    have hword : word = Bracketed.text ⟨name, parameters⟩ :=
      Bracketed.eq_text_of_guarded hp (line.guarded_of_mem_tokens (by rw [htokens]; simp))
        (Bracketed.not_mentions_quote hhead hitems)
    exact ⟨first, hword ▸ htokens, hhead, hitems, (nodup_of_checkParameters hparameters).1,
      checkUndefined_eq_ok_iff.1 hundefined⟩
  · rintro ⟨first, htokens, hhead, hitems, hnodup, hundefined⟩
    obtain ⟨husable, hothers⟩ := Bracketed.usable_of_guarded (b := ⟨name, parameters⟩)
      (line.guarded_of_mem_tokens (by rw [htokens]; simp)) hhead hitems
    exact ⟨⟨first, _, htokens, Bracketed.parse?_text husable.isAtom fun item hitem =>
        (hothers item hitem).isAtom⟩,
      Name.check_eq_ok_iff.2 hhead, checkParameters_eq_ok hitems hnodup (by simp),
      checkUndefined_eq_ok_iff.2 hundefined⟩

/-! ## Calls -/

/-- `resolve` gives the number that a token `Denotes`, and no name is a literal. -/
theorem Scoped.resolve_eq_ok_iff (h : store.Scoped) {n : Number} :
    store.resolve token = .ok n ↔ store.Denotes token n := by
  refine ⟨denotes_of_resolve, fun hd => ?_⟩
  cases hd with
  | literal hp => simp [resolve, hp]
  | bound hl => simp [resolve, (h.usable_of_lookup? hl).not_literal, hl]

/-- Arguments that `Denotes` relates to numbers are atoms. -/
theorem Scoped.isAtom_of_mem (h : store.Scoped) {arguments : List String}
    (hd : List.Forall₂ store.Denotes arguments values) :
    ∀ argument ∈ arguments, IsAtom argument.toList := by
  induction hd with
  | nil => simp
  | cons hn _ ih => exact List.forall_mem_cons.2 ⟨h.isAtom_of_denotes hn, ih⟩

/-- `classify` finds a call only in a single token. -/
theorem exists_token_of_classify {tokens : List String}
    (h : store.classify tokens = .ok .call) : ∃ token, tokens = [token] := by
  have hshape : Command.hasCallShape tokens = true := by
    unfold classify Command.classify at h
    split at h
    · cases h
    · next first rest =>
      split at h
      · cases h
      · split at h
        · next hshape => exact hshape
        · unfold Command.ofWord at h
          split at h
          · cases h
          · split at h <;> cases h
  unfold Command.hasCallShape at hshape
  split at hshape
  · exact ⟨_, rfl⟩
  · cases hshape

/-- `findCall` reads a line exactly if its token is written as a call. -/
theorem Scoped.findCall_line_iff (h : store.Scoped)
    (hk : store.classify line.tokens = .ok .call) :
    store.findCall line.tokens = .ok ⟨name, method, values⟩ ↔
      ∃ arguments, line.tokens = [Bracketed.text ⟨name, arguments⟩] ∧
        store.methods.find? name = some method ∧
        arguments.length = method.parameters.length ∧
        List.Forall₂ store.Denotes arguments values := by
  have hvalues : ∀ {arguments}, arguments.mapM store.resolve = .ok values ↔
      List.Forall₂ store.Denotes arguments values := by
    intro arguments
    simp only [mapM_eq_ok_iff, h.resolve_eq_ok_iff]
  rw [findCall_eq_ok_iff]
  constructor
  · rintro ⟨⟨head, arguments⟩, found, hp, hm, hlength, hfound, hinvocation⟩
    obtain ⟨rfl, -, rfl⟩ := (Invocation.mk.injEq ..).mp hinvocation
    obtain ⟨token, htoken⟩ := exists_token_of_classify hk
    have hd := hvalues.1 hfound
    rw [htoken] at hp
    -- a token has a blank only between quotes, and without one trimming its parts changes nothing
    have hquote : ¬ (Bracketed.mk name arguments).Mentions '"' := by
      rintro (hc | ⟨argument, hmem, hc⟩)
      · exact (h.methods.entries name method hm).name.isAtom.not_quote hc
      · exact (h.isAtom_of_mem hd argument hmem).not_quote hc
    have hwritten : token = Bracketed.text ⟨name, arguments⟩ :=
      Bracketed.eq_text_of_guarded hp (line.guarded_of_mem_tokens (by rw [htoken]; simp)) hquote
    exact ⟨arguments, hwritten ▸ htoken, hm, hlength, hd⟩
  · rintro ⟨arguments, htoken, hm, hlength, hd⟩
    refine ⟨⟨name, arguments⟩, values, ?_, hm, hlength, hvalues.2 hd, rfl⟩
    rw [htoken]
    exact Bracketed.parse?_text (h.methods.entries name method hm).name.isAtom (h.isAtom_of_mem hd)

end Store

namespace Engine

variable {engine : Engine}

/-- **Headers and calls are read as they are written.** In every `Reachable` engine and at every
address, `readHeader` gives a name and parameters exactly if the line has two tokens and the second
is the name with the parameters in brackets, all of them free names, none listed twice, and no other
line has defined the name. On a call, `findCall` gives a method and values exactly if the only token
is the name of the method with as many arguments in brackets as there are parameters, and each
argument `Denotes` its value. `readCall` passes what `findCall` finds. And `cut?` never cuts a token
inside a character or out of range. -/
theorem signatures_exact (h : Reachable (fun _ => True) engine) (line : Line) (cursor : Address) :
    (∀ name parameters, engine.store.readHeader line.tokens cursor = .ok ⟨name, parameters⟩ ↔
      ∃ first, line.tokens = [first, name ++ "(" ++ ",".intercalate parameters ++ ")"] ∧
        Name.isFree name = true ∧ (∀ parameter ∈ parameters, Name.isFree parameter = true) ∧
        parameters.Nodup ∧
        ∀ method, engine.store.methods.find? name = some method → method.start = cursor) ∧
    (engine.store.classify line.tokens = .ok .call → ∀ name method values,
      engine.store.findCall line.tokens = .ok ⟨name, method, values⟩ ↔
        ∃ arguments, line.tokens = [name ++ "(" ++ ",".intercalate arguments ++ ")"] ∧
          engine.store.methods.find? name = some method ∧
          arguments.length = method.parameters.length ∧
          List.Forall₂ engine.store.Denotes arguments values) ∧
    (∀ name values, engine.store.readCall line.tokens = .ok ⟨name, values⟩ ↔
      ∃ method, engine.store.findCall line.tokens = .ok ⟨name, method, values⟩) ∧
    ∀ token, Bracketed.cut? token = some (Bracketed.parse? token) :=
  ⟨fun _ _ => Store.readHeader_line_iff, fun hk _ _ _ => h.scoped.findCall_line_iff hk,
    fun _ _ => Store.readCall_eq_ok_iff_findCall, Bracketed.cut?_eq⟩

/-- A method whose name has letters of two bytes, and a variable. -/
def sizes : Program :=
  .parse "METHOD Größe(n,m)\nENDMETHOD\nk = 9\n"

/-- A call of that method with a literal and the variable, and the header of another one. -/
theorem signatures_exact_sizes : ∃ engine : Engine, Reachable (fun _ => True) engine ∧
    engine.store.classify (Line.ofText " Größe(+007,k)").tokens = .ok .call ∧
    engine.store.findCall (Line.ofText " Größe(+007,k)").tokens =
      .ok ⟨"Größe", ⟨["n", "m"], 0, some 1⟩, [7, 9]⟩ ∧
    engine.store.readCall (Line.ofText " Größe(+007,k)").tokens = .ok ⟨"Größe", [7, 9]⟩ ∧
    engine.store.readHeader (Line.ofText "METHOD Maß(größe)").tokens 5 = .ok ⟨"Maß", ["größe"]⟩ ∧
    Bracketed.cut? "Größe(+007,k)" = some (some ⟨"Größe", ["+007", "k"]⟩) := by
  have hrun : (Engine.run sizes 9 .initial).map (fun outcome =>
      (outcome.engine.store.methods.find? "Größe", outcome.engine.store.methods.find? "Maß",
        outcome.engine.store.vars.lookup? "k",
        (outcome.engine.store.classify (Line.ofText " Größe(+007,k)").tokens).toOption)) =
      some (some ⟨["n", "m"], 0, some 1⟩, none, some 9, some .call) := by
    decide +kernel
  obtain ⟨outcome, houtcome, hend⟩ := Option.map_eq_some_iff.1 hrun
  simp only [Prod.mk.injEq] at hend
  obtain ⟨hknown, hnew, hk, hcall⟩ := hend
  have hreach : Reachable (fun _ => True) outcome.engine :=
    Reachable.initial.run houtcome fun _ _ => trivial
  have hclass := toOption_eq_some_iff.1 hcall
  obtain ⟨-, hcalls, hreads, hcuts⟩ := signatures_exact hreach (.ofText " Größe(+007,k)") 5
  obtain ⟨hheaders, -⟩ := signatures_exact hreach (.ofText "METHOD Maß(größe)") 5
  have hfound := (hcalls hclass "Größe" ⟨["n", "m"], 0, some 1⟩ [7, 9]).2 ⟨["+007", "k"],
    by decide +kernel, hknown, rfl, .cons (.literal (by decide +kernel)) (.cons (.bound hk) .nil)⟩
  refine ⟨outcome.engine, hreach, hclass, hfound, (hreads _ _).2 ⟨_, hfound⟩,
    (hheaders _ _).2 ?_, ?_⟩
  · refine ⟨"METHOD", by decide +kernel, by decide +kernel, by decide +kernel, by simp, ?_⟩
    rw [hnew]
    exact nofun
  · rw [hcuts]
    decide +kernel

end Engine

end Sketch
