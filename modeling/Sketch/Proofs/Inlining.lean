import Sketch.Proofs.Brackets
import Sketch.Proofs.Classification

/-!
# Values in place of variables

A line may have the value of a variable in place of its name, among its arguments or in the brackets
of a call. Main statement: `Engine.inlining_irrelevant`, which says that such a line exists and does
the same.

The names of variables and the texts of numbers are atoms: they have no blanks, quotes, brackets or
commas. So tokens and pieces are cut at the same places whichever of them is written (`CutAlike`),
and what is left is that a name and the text of its value stand for the same number.
-/

namespace Sketch

/-! ## Writing values for variables -/

namespace Variables

/-- A token stays, or it is a variable and its value is written for it. -/
inductive Inlines (vars : Variables) : String → String → Prop where
  | keeps (token : String) : Inlines vars token token
  | writes {name : String} {value : Number} (h : vars.lookup? name = some value) :
      Inlines vars name (Number.text value)

/-- The same for an argument of a call, which may have blanks around it. -/
inductive InlinesPiece (vars : Variables) : String → String → Prop where
  | keeps (piece : String) : InlinesPiece vars piece piece
  | writes {name : String} {value : Number} {before after : String}
      (h : vars.lookup? name = some value)
      (hbefore : ∀ c ∈ before.toList, Text.isBlank c = true)
      (hafter : ∀ c ∈ after.toList, Text.isBlank c = true) :
      InlinesPiece vars (before ++ name ++ after) (before ++ Number.text value ++ after)

/-- Tokens of a line in which values are written for some variables: among the arguments of its
first token, or between the commas in the first brackets of a call. -/
inductive InlinesTokens (vars : Variables) : List String → List String → Prop where
  | blank : InlinesTokens vars [] []
  | arguments (first : String) {xs ys : List String} (h : List.Forall₂ vars.Inlines xs ys) :
      InlinesTokens vars (first :: xs) (first :: ys)
  | call {head rest : String} {xs ys : List String}
      (hhead : ∀ c ∈ head.toList, Command.isBracket c = false)
      (hcommas : ∀ piece ∈ xs, ',' ∉ piece.toList)
      (h : List.Forall₂ vars.InlinesPiece xs ys) :
      InlinesTokens vars [Bracketed.text ⟨head, xs⟩ ++ rest] [Bracketed.text ⟨head, ys⟩ ++ rest]

end Variables

/-! ## Atoms -/

/-- A digit is no blank. -/
theorem Text.isBlank_of_isDigit {c : Char} (h : c.isDigit = true) : isBlank c = false := by
  have hrange := Char.isDigit_iff_toNat.1 h
  have hzero : '0'.toNat = 48 := rfl
  have hnine : '9'.toNat = 57 := rfl
  simp only [isBlank, Bool.or_eq_false_iff, Bool.and_eq_false_iff, beq_eq_false_iff_ne,
    decide_eq_false_iff_not]
  omega

/-- The marks at which calls are cut. -/
def callMarks : List Char := ['(', ',', ')']

/-- A word without the marks at which calls are cut. -/
structure IsAtom (cs : List Char) : Prop extends Line.IsWord cs where
  not_mark : ∀ c ∈ cs, c ∉ callMarks

/-- A `Usable` name is an atom. -/
theorem Name.Usable.isAtom {name : String} (h : Usable name) : IsAtom name.toList where
  ne_nil := mt String.toList_eq_nil_iff.1 h.ne_empty
  not_quote := fun hmem => h.not_reserved _ hmem (by decide)
  not_blank := h.not_blank
  not_mark := fun c hc hmark =>
    h.not_reserved c hc ((by decide : callMarks ⊆ reserved) hmark)

/-- A literal is an atom. -/
theorem Number.isAtom_of_isLiteral {s : String} (h : isLiteral s = true) : IsAtom s.toList := by
  have hchar : ∀ c ∈ s.toList, Text.isBlank c = false ∧ c ∉ '"' :: callMarks := by
    intro c hc
    rcases char_of_isLiteral h hc with hdigit | rfl | rfl
    · refine ⟨Text.isBlank_of_isDigit hdigit, fun hmem => ?_⟩
      have hnone : ∀ c ∈ '"' :: callMarks, c.isDigit = false := by simp [callMarks]
      rw [hnone c hmem] at hdigit
      cases hdigit
    · decide
    · decide
  refine ⟨⟨?_, ?_, fun c hc => (hchar c hc).1⟩, ?_⟩
  · intro hnil
    simp [isLiteral, parse?, hnil, readInt?, magnitude?] at h
  · intro hmem
    exact (hchar _ hmem).2 List.mem_cons_self
  · intro c hc hmark
    exact (hchar c hc).2 (List.mem_cons_of_mem _ hmark)

/-- The `text` of a number is an atom. -/
theorem Number.isAtom_text (n : Number) : IsAtom (text n).toList :=
  isAtom_of_isLiteral (isLiteral_text n)

/-- Characters that can stand for others: quotes and blanks leave a token open or end it in the same
way, and a call is cut at the same marks. -/
structure CutAlike (cs ds : List Char) : Prop where
  quotedAfter_eq : ∀ quoted, Line.quotedAfter quoted ds = Line.quotedAfter quoted cs
  unbroken : ∀ quoted, Line.Unbroken quoted cs → Line.Unbroken quoted ds
  mark_iff : ∀ c ∈ callMarks, c ∈ ds ↔ c ∈ cs
  blank_eq : ds.all Text.isBlank = cs.all Text.isBlank

namespace CutAlike

variable {as bs cs ds : List Char}

/-- `CutAlike` is reflexive. -/
theorem refl (cs : List Char) : CutAlike cs cs :=
  ⟨fun _ => rfl, fun _ h => h, fun _ _ => Iff.rfl, rfl⟩

/-- `CutAlike` is kept by concatenation. -/
theorem append (h : CutAlike as bs) (h' : CutAlike cs ds) : CutAlike (as ++ cs) (bs ++ ds) where
  quotedAfter_eq quoted := by
    rw [Line.quotedAfter_append, Line.quotedAfter_append, h.quotedAfter_eq, h'.quotedAfter_eq]
  unbroken quoted hu := by
    rw [Line.unbroken_append] at hu ⊢
    rw [h.quotedAfter_eq]
    exact ⟨h.unbroken _ hu.1, h'.unbroken _ hu.2⟩
  mark_iff c hc := by
    rw [List.mem_append, List.mem_append]
    exact or_congr (h.mark_iff c hc) (h'.mark_iff c hc)
  blank_eq := by
    rw [List.all_append, List.all_append, h.blank_eq, h'.blank_eq]

/-- Atoms are `CutAlike`. -/
theorem of_isAtom (hc : IsAtom cs) (hd : IsAtom ds) : CutAlike cs ds := by
  have hsome : ∀ {cs : List Char}, IsAtom cs → cs.all Text.isBlank = false := by
    intro cs h
    obtain ⟨c, hc⟩ := List.exists_mem_of_ne_nil cs h.ne_nil
    exact List.all_eq_false.2 ⟨c, hc, by simp [h.not_blank c hc]⟩
  refine ⟨fun quoted => ?_, fun quoted _ => ?_, fun c hmark => ?_, ?_⟩
  · rw [Line.quotedAfter_of_not_mem hc.not_quote, Line.quotedAfter_of_not_mem hd.not_quote]
  · exact Line.unbroken_of_plain hd.not_quote hd.not_blank
  · exact iff_of_false (fun h => hd.not_mark c h hmark) fun h => hc.not_mark c h hmark
  · rw [hsome hd, hsome hc]

/-- What stands between the brackets is `CutAlike` if the pieces are. -/
theorem between {xs ys : List String}
    (h : List.Forall₂ (fun x y : String => CutAlike x.toList y.toList) xs ys) :
    CutAlike (Bracketed.between xs) (Bracketed.between ys) := by
  induction h with
  | nil => exact refl _
  | cons hx hrest ih =>
    cases hrest with
    | nil => simpa [Bracketed.between] using hx
    | cons _ _ => simpa [Bracketed.between] using hx.append ((refl [',']).append ih)

end CutAlike

/-! ## What is written stands for the same -/

/-- `mapM` gives the same on lists whose items do. -/
theorem mapM_congr {ε α β : Type} {f : α → Except ε β} {xs ys : List α}
    (h : List.Forall₂ (fun x y => f y = f x) xs ys) : ys.mapM f = xs.mapM f := by
  induction h with
  | nil => rfl
  | cons hx _ ih => rw [List.mapM_cons, List.mapM_cons, hx, ih]

/-- Inlining keeps whether there are tokens. -/
theorem Variables.InlinesTokens.isEmpty_eq {vars : Variables} {tokens others : List String}
    (h : vars.InlinesTokens tokens others) : others.isEmpty = tokens.isEmpty := by
  cases h with
  | blank => rfl
  | arguments => rfl
  | call => rfl

namespace Store.Scoped

variable {store : Store} {x y : String} {xs ys : List String}

/-- A name that `lookup?` finds in a `Scoped` store is `Usable`. -/
theorem usable_of_lookup? (h : store.Scoped) {name : String} {value : Number}
    (hl : store.vars.lookup? name = some value) : Name.Usable name := by
  unfold Variables.lookup? at hl
  split at hl
  · next bound hbound =>
    obtain ⟨scope, htop, hmem⟩ := Option.bind_eq_some_iff.1 hbound
    obtain ⟨scopes, hscopes⟩ := Stack.top?_eq_some_iff.1 htop
    have hin : scope ∈ store.vars.scopes.entries := by
      rw [hscopes]
      exact List.mem_cons_self
    exact h.usable_of_mem_scope hin (Std.ExtTreeMap.mem_iff_isSome_getElem?.2 (by rw [hmem]; rfl))
  · exact h.globals name (Std.ExtTreeMap.mem_iff_isSome_getElem?.2 (by rw [hl]; rfl))

/-- `resolve` gives the same on a variable and on the text of its value. -/
theorem resolve_eq (h : store.Scoped) (hi : store.vars.Inlines x y) :
    store.resolve y = store.resolve x := by
  cases hi with
  | keeps => rfl
  | writes hl => simp only [resolve, Number.parse?_text, (h.usable_of_lookup? hl).not_literal, hl]

/-- `substituteToken` gives the same on a variable and on the text of its value. -/
theorem substituteToken_eq (h : store.Scoped) (hi : store.vars.Inlines x y) :
    store.substituteToken y = store.substituteToken x := by
  cases hi with
  | keeps => rfl
  | @writes value hl =>
    have hname := h.usable_of_lookup? hl
    have hliteral : Number.isLiteral x = false := by simp [Number.isLiteral, hname.not_literal]
    have hreserved : Name.hasReserved x = false :=
      Name.not_hasReserved_of_isFree (Name.usable_iff.1 hname).1
    simp [substituteToken, hliteral, hreserved, Number.isLiteral_text, resolve, hname.not_literal,
      hl, Except.map]

/-- The equals sign is never written for a variable, nor is it one. -/
theorem beq_equals_eq (h : store.Scoped) (hi : store.vars.Inlines x y) :
    (y == "=") = (x == "=") := by
  cases hi with
  | keeps => rfl
  | @writes value hl =>
    have hname : x ≠ "=" := by
      rintro rfl
      exact (h.usable_of_lookup? hl).not_reserved '=' (by decide) (by decide)
    have htext : Number.text value ≠ "=" := by
      intro heq
      have hlit := Number.isLiteral_text value
      rw [heq] at hlit
      revert hlit
      decide
    rw [beq_false_of_ne hname, beq_false_of_ne htext]

/-- A piece and what is written for it are `CutAlike`. -/
theorem cutAlike (h : store.Scoped) (hi : store.vars.InlinesPiece x y) :
    CutAlike x.toList y.toList := by
  cases hi with
  | keeps => exact .refl _
  | @writes name value before after hl hbefore hafter =>
    simp only [String.toList_append]
    exact ((CutAlike.refl _).append
      (.of_isAtom (h.usable_of_lookup? hl).isAtom (Number.isAtom_text value))).append (.refl _)

/-- `InlinesPiece` is `Inlines` without the blanks around it. -/
theorem inlines_trim (h : store.Scoped) (hi : store.vars.InlinesPiece x y) :
    store.vars.Inlines (Text.trim x) (Text.trim y) := by
  cases hi with
  | keeps => exact .keeps _
  | @writes name value before after hl hbefore hafter =>
    have htrim : ∀ {word : String}, IsAtom word.toList →
        Text.trim (before ++ word ++ after) = word := by
      intro word hword
      rw [Text.trim, String.toList_append, String.toList_append,
        Text.trimChars_padded hbefore hafter hword.ne_nil hword.not_blank, String.ofList_toList]
    rw [htrim (h.usable_of_lookup? hl).isAtom, htrim (Number.isAtom_text value)]
    exact .writes hl

/-! ## Calls -/

variable {head rest : String}

/-- What stands between the brackets and what is written for it are `CutAlike`. -/
theorem between_cutAlike (h : store.Scoped) (hi : List.Forall₂ store.vars.InlinesPiece xs ys) :
    CutAlike (Bracketed.between xs) (Bracketed.between ys) :=
  .between (hi.imp fun _ _ => h.cutAlike)

/-- What `InlinesPiece` writes for pieces has no comma. -/
theorem not_comma (h : store.Scoped) (hi : List.Forall₂ store.vars.InlinesPiece xs ys)
    (hcommas : ∀ piece ∈ xs, ',' ∉ piece.toList) : ∀ piece ∈ ys, ',' ∉ piece.toList := by
  induction hi with
  | nil => exact hcommas
  | cons hx _ ih =>
    rw [List.forall_mem_cons] at hcommas ⊢
    exact ⟨mt ((h.cutAlike hx).mark_iff ',' (by decide)).1 hcommas.1, ih hcommas.2⟩

/-- `readCall` gives the same on both calls. -/
theorem readCall_eq (h : store.Scoped) (hhead : ∀ c ∈ head.toList, Command.isBracket c = false)
    (hcommas : ∀ piece ∈ xs, ',' ∉ piece.toList)
    (hi : List.Forall₂ store.vars.InlinesPiece xs ys) :
    store.readCall [Bracketed.text ⟨head, ys⟩ ++ rest] =
      store.readCall [Bracketed.text ⟨head, xs⟩ ++ rest] := by
  have hopen : '(' ∉ head.toList := fun hmem => by cases hhead _ hmem
  have hcut := h.between_cutAlike hi
  have hitems : List.Forall₂ store.vars.Inlines (xs.map Text.trim) (ys.map Text.trim) := by
    rw [List.forall₂_map_left_iff, List.forall₂_map_right_iff]
    exact hi.imp fun _ _ => h.inlines_trim
  have hvalues : (ys.map Text.trim).mapM store.resolve = (xs.map Text.trim).mapM store.resolve :=
    mapM_congr (hitems.imp fun _ _ => h.resolve_eq)
  simp only [readCall, List.head?_cons, Option.bind_some, Bracketed.parse?_text_append hopen,
    Bracketed.itemsOf_between hcommas, Bracketed.itemsOf_between (h.not_comma hi hcommas),
    hcut.blank_eq, hcut.mark_iff '(' (by decide), hcut.mark_iff ')' (by decide)]
  by_cases hread : rest = "" ∧ '(' ∉ Bracketed.between xs ∧ ')' ∉ Bracketed.between xs
  · by_cases hblank : (Bracketed.between xs).all Text.isBlank = true
    · simp only [if_pos hblank]
    · simp only [if_pos hread, if_neg hblank, hvalues, ← hitems.length_eq]
  · simp only [if_neg hread]

/-- `classify` takes the token of a call for a call, whatever stands in its brackets. -/
theorem classify_text (h : store.Scoped) (hhead : ∀ c ∈ head.toList, Command.isBracket c = false) :
    store.classify [Bracketed.text ⟨head, xs⟩ ++ rest] = .ok .call := by
  have hchars := Bracketed.toList_text_append head xs rest
  have hbound : store.vars.contains (Bracketed.text ⟨head, xs⟩ ++ rest) = false := by
    refine Bool.eq_false_iff.2 fun hcontains => ?_
    obtain ⟨value, hl⟩ := Option.isSome_iff_exists.1 hcontains
    exact (h.usable_of_lookup? hl).not_reserved '(' (by rw [hchars]; simp) (by decide)
  have hshape : Command.hasCallShape [Bracketed.text ⟨head, xs⟩ ++ rest] = true := by
    have hfirst : head.toList.find? Command.isBracket = none := by
      simpa [List.find?_eq_none] using hhead
    rw [Command.hasCallShape, hchars, List.find?_append, hfirst]
    simp [Command.isBracket]
  rw [classify, Command.classify, hbound, if_neg (by simp [Command.hasAssignmentShape]),
    if_pos hshape]

/-! ## Executing the line -/

variable {tokens others : List String} {line other : Line} {cursor : Address}

/-- `Inlines` keeps whether a line has the shape of an assignment. -/
theorem hasAssignmentShape_eq (h : store.Scoped) (hi : List.Forall₂ store.vars.Inlines xs ys)
    (first : String) :
    Command.hasAssignmentShape (first :: ys) = Command.hasAssignmentShape (first :: xs) := by
  cases hi with
  | nil => rfl
  | cons hequals hi =>
    cases hi with
    | nil => rfl
    | cons _ hi =>
      simp only [Command.hasAssignmentShape, h.beq_equals_eq hequals, hi.length_eq]

/-- `classify` gives the same on both lines. -/
theorem classify_eq (h : store.Scoped) (hi : store.vars.InlinesTokens tokens others) :
    store.classify others = store.classify tokens := by
  cases hi with
  | blank => rfl
  | arguments first hi =>
    have hcall : ∀ {xs ys : List String}, xs.length = ys.length →
        Command.hasCallShape (first :: ys) = Command.hasCallShape (first :: xs) := by
      intro xs ys hlength
      match xs, ys with
      | [], [] => rfl
      | _ :: _, _ :: _ => rfl
    simp only [classify, Command.classify, h.hasAssignmentShape_eq hi, hcall hi.length_eq]
  | call hhead hcommas hi => rw [h.classify_text hhead, h.classify_text hhead]

/-- `interpret` gives the same on both lines, unless the arguments are words of their own. -/
theorem interpret_eq (h : store.Scoped) (hi : List.Forall₂ store.vars.Inlines xs ys)
    {first : String} (hwords : ∀ command, store.classify (first :: xs) = .ok command →
      command.substitutes = true) :
    store.interpret (first :: ys) = store.interpret (first :: xs) := by
  have hsubstituted : ys.mapM store.substituteToken = xs.mapM store.substituteToken :=
    mapM_congr (hi.imp fun _ _ => h.substituteToken_eq)
  rw [interpret, interpret, h.classify_eq (.arguments first hi)]
  cases hc : store.classify (first :: xs) with
  | error fault => rfl
  | ok command =>
    have hsub :
        store.substitute command (first :: ys) = store.substitute command (first :: xs) := by
      simp only [substitute, hwords command hc, hsubstituted, if_true]
    show (do let tokens ← store.substitute command (first :: ys); .ok (command, tokens)) =
      (do let tokens ← store.substitute command (first :: xs); Except.ok (command, tokens))
    rw [hsub]

/-- `interpret` leaves the token of a call as it is. -/
theorem interpret_text (h : store.Scoped)
    (hhead : ∀ c ∈ head.toList, Command.isBracket c = false) :
    store.interpret [Bracketed.text ⟨head, xs⟩ ++ rest] =
      .ok (.call, [Bracketed.text ⟨head, xs⟩ ++ rest]) := by
  rw [interpret, h.classify_text hhead]
  rfl

/-- `interpret` and `perform` do the same on both lines. -/
theorem perform_eq (h : store.Scoped) (hi : store.vars.InlinesTokens tokens others)
    (hwords : ∀ command, store.classify tokens = .ok command → command.substitutes = true)
    (cursor : Address) :
    (do let (command, tokens) ← Action.inspect (·.interpret others)
        perform command tokens : Move (Option Instruction)) ⟨store, cursor⟩ =
      (do let (command, tokens) ← Action.inspect (·.interpret tokens)
          perform command tokens : Move (Option Instruction)) ⟨store, cursor⟩ := by
  cases hi with
  | blank => rfl
  | arguments first hi =>
    exact Action.bind_congr (Move.lift_congr (Action.inspect_congr (h.interpret_eq hi hwords)))
  | @call head rest xs ys hhead hcommas hi =>
    rw [Action.bind_of_ok (Move.lift_of_ok
        (Action.inspect_eq_ok_iff.2 ⟨h.interpret_text hhead, rfl⟩)),
      Action.bind_of_ok (Move.lift_of_ok
        (Action.inspect_eq_ok_iff.2 ⟨h.interpret_text hhead, rfl⟩))]
    -- the tokens of the two calls differ, but not what is read from them
    have hfound : store.findCall [Bracketed.text ⟨head, ys⟩ ++ rest] =
        store.findCall [Bracketed.text ⟨head, xs⟩ ++ rest] := by
      rw [findCall, findCall, h.readCall_eq hhead hcommas hi]
    have hcall : Store.call [Bracketed.text ⟨head, ys⟩ ++ rest] ⟨store, cursor⟩ =
        Store.call [Bracketed.text ⟨head, xs⟩ ++ rest] ⟨store, cursor⟩ :=
      Action.bind_congr (Move.lift_congr (Action.inspect_congr hfound))
    exact Action.bind_congr hcall

/-- `execute` does the same on both lines, at every cursor. -/
theorem execute_eq (h : store.Scoped) (hcolor : line.keyword? ≠ some (.draws .color))
    (hfill : line.keyword? ≠ some (.draws .fill))
    (hi : store.vars.InlinesTokens line.tokens other.tokens) (cursor : Address) :
    execute other ⟨store, cursor⟩ = execute line ⟨store, cursor⟩ := by
  have hempty : other.isEmpty = line.isEmpty := hi.isEmpty_eq
  have hwords : ∀ command, store.classify line.tokens = .ok command →
      command.substitutes = true := by
    intro command hc
    match command with
    | .assignment | .call | .keyword (.opens _) | .keyword (.closes _) => rfl
    | .keyword (.draws tool) =>
      have hkeyword := h.named.classify_line_iff.1 hc
      cases tool
      case color => exact absurd hkeyword hcolor
      case fill => exact absurd hkeyword hfill
      all_goals rfl
  cases hl : line.isEmpty with
  | true => rw [execute, execute, if_pos hl, if_pos (hempty.trans hl)]
  | false =>
    cases hs : store.flow.suspended with
    | true =>
      rw [execute_of_suspended hl hs, execute_of_suspended (hempty.trans hl) hs]
      exact Action.bind_congr (by simp only [skip, Action.get_bind, h.classify_eq hi])
    | false =>
      rw [execute_of_running hl hs, execute_of_running (hempty.trans hl) hs]
      exact h.perform_eq hi hwords cursor

/-! ## The line is there -/

/-- `AreTokens` is kept when texts of numbers are written for tokens. -/
theorem areTokens_inlined {vars : Variables} (hi : List.Forall₂ vars.Inlines xs ys)
    (ht : Line.AreTokens (xs.map String.toList)) (hend : Line.EndsInLine (xs.map String.toList)) :
    Line.AreTokens (ys.map String.toList) ∧ Line.EndsInLine (ys.map String.toList) := by
  induction hi with
  | nil => exact ⟨ht, hend⟩
  | @cons x y xs ys hx hi ih =>
    rw [List.map_cons, Line.areTokens_cons_iff] at ht
    rw [List.map_cons, Line.endsInLine_cons_iff] at hend
    obtain ⟨hrest, hrestEnd⟩ := ih ht.2.2 hend.2
    have hlast : ys.map String.toList = [] ↔ xs.map String.toList = [] := by
      rw [List.map_eq_nil_iff, List.map_eq_nil_iff, ← List.length_eq_zero_iff,
        ← List.length_eq_zero_iff, hi.length_eq]
    rw [List.map_cons, Line.areTokens_cons_iff, Line.endsInLine_cons_iff]
    cases hx with
    | keeps =>
      exact ⟨⟨ht.1, fun hne => ht.2.1 (mt hlast.2 hne), hrest⟩, fun hnil => hend.1 (hlast.1 hnil),
        hrestEnd⟩
    | @writes value =>
      have hword := (Number.isAtom_text value).toIsWord
      exact ⟨⟨hword.isToken, fun _ => hword.quotedAfter_eq, hrest⟩,
        fun _ c hc => hword.isBreak_eq_false hc, hrestEnd⟩

/-- `AreTokens` is kept when atoms are written in the brackets of a call. -/
theorem areTokens_text (h : store.Scoped) (hi : List.Forall₂ store.vars.InlinesPiece xs ys)
    (ht : Line.AreTokens [(Bracketed.text ⟨head, xs⟩ ++ rest).toList])
    (hend : Line.EndsInLine [(Bracketed.text ⟨head, xs⟩ ++ rest).toList]) :
    Line.AreTokens [(Bracketed.text ⟨head, ys⟩ ++ rest).toList] ∧
      Line.EndsInLine [(Bracketed.text ⟨head, ys⟩ ++ rest).toList] := by
  have hcut : CutAlike (Bracketed.text ⟨head, xs⟩ ++ rest).toList
      (Bracketed.text ⟨head, ys⟩ ++ rest).toList := by
    rw [Bracketed.toList_text_append, Bracketed.toList_text_append]
    exact (CutAlike.refl _).append ((CutAlike.refl ['(']).append
      ((h.between_cutAlike hi).append (.refl _)))
  have hsame : (Bracketed.text ⟨head, ys⟩ ++ rest).toList.getLast? =
      (Bracketed.text ⟨head, xs⟩ ++ rest).toList.getLast? := by
    rw [Bracketed.toList_text_append, Bracketed.toList_text_append]
    simp [List.getLast?_append, List.getLast?_cons]
  rw [Line.areTokens_cons_iff] at ht ⊢
  rw [Line.endsInLine_cons_iff] at hend ⊢
  rw [hsame]
  refine ⟨⟨⟨?_, hcut.unbroken false ht.1.unbroken⟩, fun hne => absurd rfl hne, .nil⟩, hend⟩
  rw [Bracketed.toList_text_append]
  simp

/-- `InlinesTokens` gives the tokens of a line. -/
theorem exists_line (h : store.Scoped) (hi : store.vars.InlinesTokens line.tokens others) :
    ∃ other : Line, other.tokens = others := by
  have ht := line.areTokens
  have hend := line.endsInLine
  generalize line.tokens = tokens at hi ht hend
  cases hi with
  | blank => exact Line.exists_tokens_eq ht hend
  | arguments first hi =>
    obtain ⟨ht, hend⟩ := areTokens_inlined (hi.cons (.keeps first)) ht hend
    exact Line.exists_tokens_eq ht hend
  | call hhead hcommas hi =>
    obtain ⟨ht, hend⟩ := h.areTokens_text hi ht hend
    exact Line.exists_tokens_eq ht hend

end Store.Scoped

namespace Engine

/-- **A value may stand for its variable.** In every `Reachable` engine, take a line that does not
set the color or the filling, and write the decimal values for some of the variables among its
arguments (`InlinesTokens`). There is a line with these tokens, and `execute` does the same on every
such line, at any address. -/
theorem inlining_irrelevant {engine : Engine} (h : Reachable (fun _ => True) engine) {line : Line}
    {tokens : List String} (hcolor : line.keyword? ≠ some (.draws .color))
    (hfill : line.keyword? ≠ some (.draws .fill))
    (hi : engine.store.vars.InlinesTokens line.tokens tokens) :
    (∃ other : Line, other.tokens = tokens) ∧
      ∀ other : Line, other.tokens = tokens → ∀ cursor : Address,
        execute other cursor engine = execute line cursor engine := by
  refine ⟨h.scoped.exists_line hi, ?_⟩
  intro other hother cursor
  subst hother
  rw [execute, execute, h.scoped.execute_eq hcolor hfill hi cursor]

/-- A call with the least number for a parameter that hides a global, stopped by a division. -/
def hidden : Program :=
  .parse "x = 7\nMETHOD f(x,y)\nz = y / 0\nENDMETHOD\nf(-2147483648,5)\n"

/-- The least number in place of the parameter, in a product that is too great and in a call. -/
theorem inlining_irrelevant_hidden : ∃ engine : Engine, Reachable (fun _ => True) engine ∧
    engine.store.vars.globals["x"]? = some 7 ∧
      engine.store.vars.InlinesTokens (Line.ofText "y = x * x").tokens
        ["y", "=", "-2147483648", "*", "x"] ∧
      error? (execute (.ofText "y = x * x") 3 engine) = some (Fault.overflow.stop 3) ∧
      execute (.ofText "y = -2147483648 * x") 3 engine = execute (.ofText "y = x * x") 3 engine ∧
      engine.store.vars.InlinesTokens (Line.ofText "f(x,x)").tokens ["f(x,-2147483648)"] ∧
      (value? (execute (.ofText "f(x,x)") 9 engine)).map Prod.fst = some 1 ∧
      execute (.ofText "f(x,-2147483648)") 9 engine = execute (.ofText "f(x,x)") 9 engine := by
  have hrun : (run hidden 20 .initial).map (fun outcome =>
      (outcome.engine.store.vars.globals["x"]?, outcome.engine.store.vars.lookup? "x",
        error? (execute (.ofText "y = x * x") 3 outcome.engine),
        (value? (execute (.ofText "f(x,x)") 9 outcome.engine)).map Prod.fst)) =
      some (some 7, some (-2147483648), some (Fault.overflow.stop 3), some 1) := by
    decide +kernel
  obtain ⟨outcome, houtcome, hend⟩ := Option.map_eq_some_iff.1 hrun
  simp only [Prod.mk.injEq] at hend
  obtain ⟨hglobal, hlookup, hproduct, hcall⟩ := hend
  have hreach : Reachable (fun _ => True) outcome.engine :=
    Reachable.initial.run houtcome fun _ _ => trivial
  have hname := Variables.Inlines.writes hlookup
  have hpiece := @Variables.InlinesPiece.writes _ _ _ "" "" hlookup (by simp) (by simp)
  rw [show Number.text (-2147483648) = "-2147483648" by decide +kernel] at hname hpiece
  have harguments : outcome.engine.store.vars.InlinesTokens (Line.ofText "y = x * x").tokens
      ["y", "=", "-2147483648", "*", "x"] := by
    rw [show (Line.ofText "y = x * x").tokens = ["y", "=", "x", "*", "x"] by decide +kernel]
    exact .arguments "y" (.cons (.keeps _) (.cons hname (.cons (.keeps _) (.cons (.keeps _) .nil))))
  have hbrackets : outcome.engine.store.vars.InlinesTokens (Line.ofText "f(x,x)").tokens
      ["f(x,-2147483648)"] :=
    @Variables.InlinesTokens.call _ "f" "" ["x", "x"] ["x", "-2147483648"]
      (by simp [Command.isBracket]) (by simp) (.cons (.keeps "x") (.cons hpiece .nil))
  exact ⟨outcome.engine, hreach, hglobal, harguments, hproduct,
    (inlining_irrelevant hreach (by decide +kernel) (by decide +kernel) harguments).2 _
      (by decide +kernel) 3,
    hbrackets, hcall,
    (inlining_irrelevant hreach (by decide +kernel) (by decide +kernel) hbrackets).2 _
      (by decide +kernel) 9⟩

end Engine

end Sketch
