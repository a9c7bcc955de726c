import Sketch.Host.Session
import Sketch.Proofs.Inlining
import Sketch.Proofs.Validation

/-!
# The listing of the variables as a program

The global variables and the methods of an engine are listed as lines of a program. With a closing
line after each header the listing is a program (`Session.replay`). Main statement:
`Engine.replay_listing`, in every engine that can be reached this program passes the check,
runs to its end, and makes the same variables and the same methods again.

Each entry of the listing is written in words (`Line.IsWord`), so it is read back as it was written.
What an entry does to the dry run and what it does to a run is the same (`Store.Establishes`); the
whole listing is one entry after another, and the bounds allow each since they allowed all together.
-/

namespace Sketch

/-! ## What is written is read back -/

/-- A character of `intercalate` is a separator or stands in one of the pieces. -/
theorem Text.mem_intercalate {sep c : Char} {pieces : List (List Char)}
    (h : c ∈ [sep].intercalate pieces) : c = sep ∨ ∃ piece ∈ pieces, c ∈ piece := by
  induction pieces with
  | nil => cases h
  | cons piece pieces ih =>
    cases pieces with
    | nil =>
      rw [List.intercalate_singleton] at h
      exact .inr ⟨piece, List.mem_cons_self, h⟩
    | cons next rest =>
      rw [List.intercalate_cons_cons, List.append_assoc, List.singleton_append, List.mem_append,
        List.mem_cons] at h
      rcases h with h | h | h
      · exact .inr ⟨piece, List.mem_cons_self, h⟩
      · exact .inl h
      · rcases ih h with hc | ⟨other, hmem, hc⟩
        · exact .inl hc
        · exact .inr ⟨other, List.mem_cons_of_mem piece hmem, hc⟩

/-- What `IsWord` has neither blanks nor quotes. -/
theorem Line.isWord_iff {cs : List Char} :
    IsWord cs ↔ cs ≠ [] ∧ ∀ c ∈ cs, Text.isBlank c = false ∧ c ≠ '"' := by
  constructor
  · intro h
    refine ⟨h.ne_nil, fun c hc => ⟨h.not_blank c hc, ?_⟩⟩
    rintro rfl
    exact h.not_quote hc
  · rintro ⟨hne, h⟩
    exact ⟨hne, fun hmem => (h _ hmem).2 rfl, fun c hc => (h c hc).1⟩

/-- `trim` changes no atom. -/
theorem IsAtom.trim_eq {s : String} (h : IsAtom s.toList) : Text.trim s = s := by
  rw [Text.trim, Text.trimChars_eq_self h.not_blank, String.ofList_toList]

namespace Bracketed

variable {head : String} {items : List String}

/-- `itemsOf` gives the atoms between brackets back. -/
theorem itemsOf_between_of_isAtom (h : ∀ item ∈ items, IsAtom item.toList) :
    itemsOf (between items) = items := by
  rw [itemsOf_between fun item hmem hc => (h item hmem).not_mark _ hc (by decide)]
  cases items with
  | nil => rfl
  | cons item rest =>
    obtain ⟨c, cs, hs⟩ := List.exists_cons_of_ne_nil (h item List.mem_cons_self).ne_nil
    have hc : Text.isBlank c = false :=
      (h item List.mem_cons_self).not_blank c (hs ▸ List.mem_cons_self)
    have hstart : ∃ more, between (item :: rest) = c :: more := by
      cases rest <;> simp [between, List.intercalate_cons_cons, hs]
    obtain ⟨more, hmore⟩ := hstart
    have hfull : ¬ (between (item :: rest)).all Text.isBlank = true := by
      rw [hmore, List.all_cons, hc]
      simp
    rw [if_neg hfull]
    exact (List.map_congr_left fun other hmem => (h other hmem).trim_eq).trans (List.map_id _)

/-- `parse?` reads the `text` of a list of atoms back. -/
theorem parse?_text (hhead : IsAtom head.toList) (h : ∀ item ∈ items, IsAtom item.toList) :
    parse? (text ⟨head, items⟩) = some ⟨head, items⟩ := by
  have hbracket : ∀ c ∈ ['(', ')'], c ∉ between items := by
    intro c hc hmem
    rcases Text.mem_intercalate hmem with rfl | ⟨piece, hpiece, hmem⟩
    · revert hc
      decide
    · obtain ⟨item, hitem, rfl⟩ := List.mem_map.1 hpiece
      exact (h item hitem).not_mark c hmem ((by decide : ['(', ')'] ⊆ callMarks) hc)
  have hopens : '(' ∉ head.toList := fun hmem => hhead.not_mark '(' hmem (by decide)
  have hread : parse? (text ⟨head, items⟩ ++ "") = some ⟨head, itemsOf (between items)⟩ := by
    rw [parse?_text_append hopens, if_pos ⟨rfl, hbracket '(' (by simp), hbracket ')' (by simp)⟩]
  rwa [String.append_empty, itemsOf_between_of_isAtom h] at hread

/-- The `text` of a list of atoms is one word. -/
theorem isWord_text (hhead : IsAtom head.toList) (h : ∀ item ∈ items, IsAtom item.toList) :
    Line.IsWord (text ⟨head, items⟩).toList := by
  have hchars : (text ⟨head, items⟩ ++ "").toList =
      head.toList ++ '(' :: (between items ++ [')']) :=
    toList_text_append head items ""
  rw [String.append_empty] at hchars
  have hbetween : ∀ c ∈ between items, Text.isBlank c = false ∧ c ≠ '"' := by
    intro c hmem
    rcases Text.mem_intercalate hmem with rfl | ⟨piece, hpiece, hmem⟩
    · decide
    · obtain ⟨item, hitem, rfl⟩ := List.mem_map.1 hpiece
      exact (Line.isWord_iff.1 (h item hitem).toIsWord).2 c hmem
  refine Line.isWord_iff.2 ⟨by rw [hchars]; simp, ?_⟩
  rw [hchars]
  simp only [List.forall_mem_append, List.forall_mem_cons]
  exact ⟨(Line.isWord_iff.1 hhead.toIsWord).2, by decide, hbetween, by decide, by simp⟩

end Bracketed

/-! ## The lines of the listing -/

namespace Store.Scoped

variable {store : Store}

/-- The variables of the `listing` have `Usable` names. -/
theorem usable_of_mem_listing (h : store.Scoped) {entry : String × Number}
    (hmem : entry ∈ store.vars.listing) : Name.Usable entry.1 := by
  have hentry : store.vars.globals[entry.1]? = some entry.2 :=
    Std.ExtTreeMap.mem_toList_iff_getElem?_eq_some.1 hmem
  refine h.globals entry.1 (Std.ExtTreeMap.mem_iff_isSome_getElem?.2 ?_)
  rw [hentry]
  rfl

/-- The methods that are listed are `Proper`. -/
theorem proper_of_mem_listing (h : store.Scoped) {entry : String × Method}
    (hmem : entry ∈ store.methods.listing) : entry.2.Proper entry.1 :=
  h.methods.entries entry.1 entry.2 (Std.ExtTreeMap.mem_toList_iff_getElem?_eq_some.1 hmem)

end Store.Scoped

/-- The text is that of a line with these words, with spaces between them. -/
structure Line.Writes (s : String) (words : List String) : Prop where
  eq : s = " ".intercalate words
  isWord : ∀ word ∈ words, IsWord word.toList

namespace Line.Writes

variable {s : String} {words : List String}

/-- The tokens of a line that `Writes` words are these words. -/
theorem tokens_eq (h : Writes s words) : (ofText s).tokens = words := by
  rw [h.eq]
  exact tokens_ofText_words h.isWord

/-- A line that `Writes` words has no line feed. -/
theorem not_break (h : Writes s words) : '\n' ∉ s.toList := by
  intro hmem
  rw [h.eq, String.toList_intercalate] at hmem
  rcases Text.mem_intercalate hmem with heq | ⟨piece, hpiece, hmem⟩
  · revert heq
    decide
  · obtain ⟨word, hword, rfl⟩ := List.mem_map.1 hpiece
    have hblank := (h.isWord word hword).not_blank _ hmem
    revert hblank
    decide

end Line.Writes

namespace Session

open Line

/-- The line of a global variable. -/
def binding (entry : String × Number) : String :=
  entry.1 ++ " = " ++ Number.text entry.2

/-- The line of a method. -/
def header (entry : String × Method) : String :=
  "METHOD " ++ Bracketed.text ⟨entry.1, entry.2.parameters⟩

/-- The answer to `VARS` is a line for each global and then one for each method. -/
theorem vars_eq (store : Store) :
    vars store = store.vars.listing.map binding ++ store.methods.listing.map header := rfl

/-- The `binding` of a global `Writes` its name, the equals sign and its value. -/
theorem writes_binding {entry : String × Number} (h : Name.Usable entry.1) :
    Writes (binding entry) [entry.1, "=", Number.text entry.2] := by
  refine ⟨String.toList_inj.1 (by simp [binding]), ?_⟩
  simp only [List.forall_mem_cons]
  exact ⟨h.isAtom.toIsWord, Line.isWord_iff.2 (by simp [Text.isBlank]),
    (Number.isAtom_text _).toIsWord, by simp⟩

/-- The `header` of a method `Writes` its keyword and its signature. -/
theorem writes_header {entry : String × Method} (h : entry.2.Proper entry.1) :
    Writes (header entry) ["METHOD", Bracketed.text ⟨entry.1, entry.2.parameters⟩] := by
  refine ⟨String.toList_inj.1 (by simp [header]), ?_⟩
  simp only [List.forall_mem_cons]
  exact ⟨Line.isWord_iff.2 (by simp [Text.isBlank]),
    Bracketed.isWord_text h.name.isAtom fun item hmem => (h.parameters item hmem).isAtom, by simp⟩

/-- The closing line is one word. -/
theorem writes_closer : Writes "ENDMETHOD" ["ENDMETHOD"] :=
  ⟨by decide, by simpa using Line.isWord_iff.2 (by simp [Text.isBlank])⟩

/-- `lines` inverts `printed` on lines without line feeds. -/
theorem lines_printed {lines : List String} (h : ∀ line ∈ lines, '\n' ∉ line.toList) :
    Text.lines (printed lines) = lines := by
  have hsplit : Text.splitChars '\n' (printed lines).toList = lines.map String.toList ++ [[]] := by
    induction lines with
    | nil => rfl
    | cons line lines ih =>
      rw [List.forall_mem_cons] at h
      have hfirst : (printed (line :: lines)).toList =
          line.toList ++ '\n' :: (printed lines).toList := by
        simp [printed]
      rw [hfirst, Text.splitChars_append h.1, ih h.2, List.map_cons, List.cons_append]
  rw [Text.lines, hsplit, Text.dropEmptyEnd, if_pos (by simp), List.dropLast_concat, List.map_map]
  exact (List.map_congr_left fun line _ => String.ofList_toList).trans (List.map_id _)

/-- The lines with a closing line after each header of a method. -/
def closeHeaders (lines : List String) : List String :=
  lines.flatMap fun line =>
    if (ofText line).tokens.head? = some "METHOD" then [line, "ENDMETHOD"] else [line]

/-- The program that makes the variables and the methods of a store: their listing, with each method
closed. -/
def replay (store : Store) : Program :=
  .parse (printed (closeHeaders (vars store)))

/-- `closeHeaders` closes each method of the listing: no variable has the name of the keyword. -/
theorem closeHeaders_vars {store : Store} (h : store.Scoped) :
    closeHeaders (vars store) = store.vars.listing.map binding ++
      store.methods.listing.flatMap fun entry => [header entry, "ENDMETHOD"] := by
  have hbindings : closeHeaders (store.vars.listing.map binding) =
      store.vars.listing.map binding := by
    rw [closeHeaders, List.flatMap_map, List.map_eq_flatMap]
    refine List.flatMap_congr fun entry hmem => if_neg ?_
    have husable := h.usable_of_mem_listing hmem
    rw [(writes_binding husable).tokens_eq, List.head?_cons, Option.some.injEq]
    exact husable.ne_keyword (.opens .method)
  have hheaders : closeHeaders (store.methods.listing.map header) =
      store.methods.listing.flatMap fun entry => [header entry, "ENDMETHOD"] := by
    rw [closeHeaders, List.flatMap_map]
    refine List.flatMap_congr fun entry hmem => if_pos ?_
    rw [(writes_header (h.proper_of_mem_listing hmem)).tokens_eq, List.head?_cons]
  rw [vars_eq, closeHeaders, List.flatMap_append]
  exact congrArg₂ (· ++ ·) hbindings hheaders

end Session

/-! ## What the entries of the listing do -/

namespace Store

open Sketch.Action

variable {store between after : Store} {lines more : List Line} {a : Address} {line : Line}
  {tokens : List String} {command : Command} {name : String}

/-- The store with these variables and methods and with nothing open. -/
def idle (globals : Scope) (methods : Methods) : Store :=
  ⟨⟨globals, .empty⟩, methods, .empty⟩

/-- The lines take one store to another: in the dry run, and in every run of a program in which they
stand. -/
structure Establishes (lines : List Line) (a : Address) (store after : Store) : Prop where
  declares : declareAll lines a store = .ok after
  leads : ∀ program canvas, program.Holds a lines →
    Engine.Leads program lines.length a ⟨store, canvas⟩ (a + UInt64.ofNat lines.length)
      ⟨after, canvas⟩

namespace Establishes

/-- `Establishes` holds of no lines. -/
theorem nil : Establishes [] a store store where
  declares := rfl
  leads program canvas _ := by
    have hstays : a + UInt64.ofNat ([] : List Line).length = a := UInt64.add_zero a
    rw [hstays]
    exact .refl

/-- `Establishes` is kept by putting lines after lines. -/
theorem append (h : Establishes lines a store between)
    (hm : Establishes more (a + UInt64.ofNat lines.length) between after) :
    Establishes (lines ++ more) a store after where
  declares := by
    rw [declareAll_append, h.declares]
    exact hm.declares
  leads program canvas hheld := by
    obtain ⟨hlines, hmore⟩ := Program.holds_append.1 hheld
    rw [List.length_append, UInt64.ofNat_add, ← UInt64.add_assoc]
    exact (h.leads program canvas hlines).trans (hm.leads program canvas hmore)

/-- A program whose lines are in `Establishes` passes `check` and runs to its end. -/
theorem run {program : Program} (h : Establishes program.lines.toList 0 .empty after)
    (hsize : program.size < UInt64.size) :
    program.check = .ok () ∧
      Engine.run program (program.size + 1) .initial = some (.ok () ⟨after, .blank⟩) := by
  constructor
  · rw [Program.check, h.declares]
    rfl
  · have hleads := h.leads program .blank (Program.holds_lines hsize) 1
    rw [UInt64.zero_add] at hleads
    exact hleads.trans (Engine.runFrom_size hsize _)

end Establishes

/-! ### Variables -/

/-- `interpret` reads the line of a variable as it is written. -/
theorem interpret_binding (h : Name.isFree name = true) (value : Number) (store : Store) :
    store.interpret [name, "=", Number.text value] =
        .ok (.assignment, [name, "=", Number.text value]) ∧
      Assignment.parse [name, "=", Number.text value] = .ok ⟨name, value, none⟩ := by
  have hclass : store.classify [name, "=", Number.text value] = .ok .assignment := by
    simp [classify, Command.classify, Command.hasAssignmentShape, (Bool.and_eq_true_iff.1 h).1]
  have hequals : store.substituteToken "=" = .ok "=" := by
    simp [substituteToken, Name.hasReserved, Name.reserved]
  have hvalue : store.substituteToken (Number.text value) = .ok (Number.text value) := by
    simp [substituteToken, Number.isLiteral_text]
  have hargs : ["=", Number.text value].mapM store.substituteToken = .ok ["=", Number.text value] :=
    mapM_eq_ok_iff.2 (.cons hequals (.cons hvalue .nil))
  refine ⟨interpret_eq_ok_iff.2 ⟨hclass, ?_⟩, Assignment.parse_eq_ok_iff.2 ⟨_, [], rfl, h, ?_, rfl⟩⟩
  · simp [substitute, Command.substitutes, hargs, Except.map]
  · simp [Number.read, Number.parse?_text]

/-- The line of a variable `Establishes` it. -/
theorem establishes_binding {globals : Scope} {value : Number} (methods : Methods)
    (htokens : line.tokens = [name, "=", Number.text value]) (hname : Name.isFree name = true)
    (hroom : globals.size < globalBound.size) (a : Address) :
    Establishes [line] a (idle globals methods) (idle (globals.insert name value) methods) := by
  have hempty : line.isEmpty = false := by simp [Line.isEmpty, htokens]
  obtain ⟨hi, hp⟩ := interpret_binding hname value (idle globals methods)
  rw [← htokens] at hi
  have hv : (idle globals methods).vars.store name value =
      .ok ⟨globals.insert name value, .empty⟩ := by
    have hfits : (globals.contains name || decide (globals.size < globalBound.size)) = true := by
      rw [decide_eq_true hroom, Bool.or_true]
    exact if_pos hfits
  constructor
  · have hdeclare : declare line a (idle globals methods) =
        .ok () (idle (globals.insert name value) methods) := by
      rw [declare, if_neg (by simp [hempty]), bind_of_ok (inspect_eq_ok_iff.2 ⟨hi, rfl⟩)]
      show declareVariable line.tokens (idle globals methods) = _
      rw [htokens, declareVariable, bind_of_ok (check_eq_ok_iff.2 ⟨hp, rfl⟩)]
      exact bind_eq_ok_iff.2 ⟨value, _, inspect_eq_ok_iff.2 ⟨rfl, rfl⟩,
        onVariables_eq_ok_iff.2 ⟨_, hv, rfl⟩⟩
    rw [declareAll, hdeclare]
    rfl
  · intro program canvas hheld
    exact .of_executes hheld.1 (.performs hempty rfl hi (.assigns (htokens ▸ hp) rfl hv))

/-- The lines of variables are in `Establishes` with all of them. -/
theorem establishes_bindings {globals : Scope} (methods : Methods)
    {entries : List (String × Number)} (hnames : ∀ entry ∈ entries, Name.Usable entry.1)
    (hroom : globals.size + entries.length ≤ globalBound.size) (a : Address) :
    Establishes ((entries.map Session.binding).map .ofText) a (idle globals methods)
      (idle (globals.insertMany entries) methods) := by
  induction entries generalizing globals a with
  | nil =>
    rw [Std.ExtTreeMap.insertMany_nil]
    exact .nil
  | cons entry entries ih =>
    obtain ⟨hname, hrest⟩ := List.forall_mem_cons.1 hnames
    rw [List.length_cons] at hroom
    have hspace : globals.size < globalBound.size := by omega
    have hfits : (globals.insert entry.1 entry.2).size + entries.length ≤ globalBound.size := by
      have hsize : (globals.insert entry.1 entry.2).size ≤ globals.size + 1 :=
        Std.ExtTreeMap.size_insert_le
      omega
    have hfirst := establishes_binding methods (Session.writes_binding hname).tokens_eq
      (Name.usable_iff.1 hname).1 hspace a
    rw [Std.ExtTreeMap.insertMany_cons]
    exact hfirst.append (ih hrest hfits _)

/-! ### Methods -/

/-- `checkParameters` accepts free names that are not listed twice. -/
theorem checkParameters_eq_ok {seen parameters : List String}
    (hfree : ∀ parameter ∈ parameters, Name.isFree parameter = true) (hnodup : parameters.Nodup)
    (hnew : ∀ parameter ∈ parameters, parameter ∉ seen) :
    checkParameters seen parameters = .ok () := by
  induction parameters generalizing seen with
  | nil => rfl
  | cons name rest ih =>
    obtain ⟨hname, hrest⟩ := List.forall_mem_cons.1 hfree
    obtain ⟨hunseen, hothers⟩ := List.forall_mem_cons.1 hnew
    obtain ⟨hfirst, hnodup⟩ := List.nodup_cons.1 hnodup
    rw [checkParameters, Name.check_eq_ok_iff.2 hname]
    have hcontains : ¬ seen.contains name = true := mt List.contains_iff_mem.1 hunseen
    refine (if_neg hcontains).trans (ih hrest hnodup ?_)
    intro parameter hmem
    rw [List.mem_cons, not_or]
    refine ⟨?_, hothers parameter hmem⟩
    rintro rfl
    exact hfirst hmem

/-- `readHeader` reads the header of a `Proper` method as it is written. -/
theorem readHeader_text {method : Method} (hp : method.Proper name)
    (hnew : store.methods.find? name = none) (a : Address) :
    store.readHeader ["METHOD", Bracketed.text ⟨name, method.parameters⟩] a =
      .ok ⟨name, method.parameters⟩ := by
  have hread : Bracketed.parse? (Bracketed.text ⟨name, method.parameters⟩) =
      some ⟨name, method.parameters⟩ :=
    Bracketed.parse?_text hp.name.isAtom fun item hmem => (hp.parameters item hmem).isAtom
  refine readHeader_eq_ok_iff.2 ⟨⟨_, _, rfl, hread⟩, ?_, ?_, ?_⟩
  · exact Name.check_eq_ok_iff.2 (Name.usable_iff.1 hp.name).1
  · exact checkParameters_eq_ok (fun item hmem => (Name.usable_iff.1 (hp.parameters item hmem)).1)
      hp.nodup (by simp)
  · refine checkUndefined_eq_ok_iff.2 fun other hother => ?_
    rw [hnew] at hother
    cases hother

/-- `interpret` reads a header and does not substitute its signature. -/
theorem interpret_header (h : store.Named) (b : Bracketed) :
    store.interpret ["METHOD", b.text] = .ok (.keyword (.opens .method), ["METHOD", b.text]) := by
  have hclass : store.classify ["METHOD", b.text] = .ok (.keyword (.opens .method)) :=
    h.classify_eq_keyword_iff.2 rfl
  have hbracket : Name.hasReserved b.text = true := by
    simp [Name.hasReserved, Bracketed.text, Name.reserved]
  have hargs : [b.text].mapM store.substituteToken = .ok [b.text] :=
    mapM_eq_ok_iff.2 (.cons (by simp [substituteToken, hbracket]) .nil)
  refine interpret_eq_ok_iff.2 ⟨hclass, ?_⟩
  simp [substitute, Command.substitutes, Keyword.substitutes, hargs, Except.map]

/-- `interpret` reads a closing line. -/
theorem interpret_closer (h : store.Named) :
    store.interpret ["ENDMETHOD"] = .ok (.keyword (.closes .method), ["ENDMETHOD"]) :=
  interpret_eq_ok_iff.2 ⟨h.classify_eq_keyword_iff.2 rfl, rfl⟩

section Definition

variable {opener closer : Line} {globals : Scope} {methods entered : Methods} {method : Method}
  (hopener : opener.tokens = ["METHOD", Bracketed.text ⟨name, method.parameters⟩])
  (hcloser : closer.tokens = ["ENDMETHOD"]) (hnamed : (idle globals methods).Named)
  (hp : method.Proper name) (hnew : methods.find? name = none)
  (hinsert : methods.insert name ⟨method.parameters, a, none⟩ = .ok entered)

include hopener hcloser hnamed hp hnew hinsert

/-- `declareAll` of a definition: the header opens a scope for the parameters, and the closing line
closes it. -/
theorem declareAll_definition : declareAll [opener, closer] a (idle globals methods) =
    .ok (idle globals (entered.close name (a + 1))) := by
  -- the store between the two lines
  let scope := Scope.ofBindings (method.parameters.map fun parameter => (parameter, 1))
  let inside : Store :=
    { idle globals entered with
      vars.scopes := Stack.empty.cons scope
      flow.definitions := Stack.empty.cons name }
  have hfree : ∀ parameter ∈ method.parameters, Name.isFree parameter = true :=
    fun parameter hmem => (Name.usable_iff.1 (hp.parameters parameter hmem)).1
  have hentered : entered.Named := by
    refine Methods.Named.insert hnamed.methods ?_ hinsert
    exact hfree
  have hinside : inside.Named :=
    ⟨hnamed.vars.enter fun parameter hmem => hfree parameter (mem_parameters_of_mem_presumed hmem),
      hentered⟩
  have hscopes : 0 < scopeBound.size := by decide
  have hdefinitions : 0 < definitionBound.size := by decide
  have hfirst : declare opener a (idle globals methods) = .ok () inside := by
    have hi := interpret_header hnamed ⟨name, method.parameters⟩
    rw [← hopener] at hi
    rw [declare, if_neg (by simp [Line.isEmpty, hopener]),
      bind_of_ok (inspect_eq_ok_iff.2 ⟨hi, rfl⟩)]
    show declareMethod opener.tokens a (idle globals methods) = _
    rw [hopener]
    refine bind_eq_ok_iff.2 ⟨_, _, inspect_eq_ok_iff.2 ⟨readHeader_text hp hnew a, rfl⟩, ?_⟩
    refine bind_eq_ok_iff.2 ⟨(), _, onMethods_eq_ok_iff.2 ⟨entered, hinsert, rfl⟩, ?_⟩
    refine bind_eq_ok_iff.2 ⟨(), _,
      onVariables_eq_ok_iff.2 ⟨_, Variables.enter_eq_ok_iff.2 ⟨hscopes, rfl⟩, rfl⟩, ?_⟩
    exact onFlow_eq_ok_iff.2 ⟨_, Flow.beginDefinition_eq_ok_iff.2 ⟨hdefinitions, rfl⟩, rfl⟩
  have hsecond : declare closer (a + 1) inside =
      .ok () (idle globals (entered.close name (a + 1))) := by
    have hi := interpret_closer hinside
    rw [← hcloser] at hi
    rw [declare, if_neg (by simp [Line.isEmpty, hcloser]),
      bind_of_ok (inspect_eq_ok_iff.2 ⟨hi, rfl⟩)]
    show declareEnd closer.tokens (a + 1) inside = _
    rw [hcloser]
    rfl
  rw [declareAll, hfirst]
  show declareAll [closer] (a + 1) inside = _
  rw [declareAll, hsecond]
  rfl

/-- A run `Leads` past a definition, which is skipped from its header to its closing line. -/
theorem leads_definition {program : Program} {canvas : Canvas}
    (hheld : program.Holds a [opener, closer]) :
    Engine.Leads program 2 a ⟨idle globals methods, canvas⟩ (a + 2)
      ⟨idle globals (entered.close name (a + 1)), canvas⟩ := by
  -- here a frame stands for the definition, and no scope is opened
  let inside : Store :=
    { idle globals entered with
      flow.frames := Stack.empty.cons ⟨.method, .skipping⟩
      flow.definitions := Stack.empty.cons name }
  have hframes : 0 < frameBound.size := by decide
  have hdefinitions : 0 < definitionBound.size := by decide
  have hfirst : Executes opener a (idle globals methods) ⟨a, none⟩ inside := by
    have hi := interpret_header hnamed ⟨name, method.parameters⟩
    have hr : register methods ⟨name, method.parameters⟩ a = .ok entered := by
      rw [register, hnew]
      exact hinsert
    exact .performs (by simp [Line.isEmpty, hopener]) rfl (hopener ▸ hi)
      (.defines (readHeader_text hp hnew a) hr hframes hdefinitions)
  have hsecond : Executes closer (a + 1) inside ⟨a + 1, none⟩
      (idle globals (entered.close name (a + 1))) := by
    have hc : inside.classify closer.tokens = .ok (.keyword (.closes .method)) := by
      rw [hcloser]
      exact (hnamed.step hfirst).classify_eq_keyword_iff.2 rfl
    refine .skips (by simp [Line.isEmpty, hcloser]) rfl
      (.endsDefinition hc rfl (.stays ?_))
    show none ≠ some (⟨.method, .executing⟩ : Frame)
    simp
  obtain ⟨hheader, hend, -⟩ := hheld
  have hnext : a + 2 = a + 1 + 1 := by rw [UInt64.add_assoc]; rfl
  rw [hnext]
  exact .trans (.of_executes hheader hfirst) (.of_executes hend hsecond)

end Definition

end Store

namespace Methods

variable {methods entered : Methods} {name : String}

/-- The parameters of the method of a name. -/
def parameters? (methods : Methods) (name : String) : Option (List String) :=
  (methods.find? name).map Method.parameters

/-- `parameters?` after a definition: the table has one method more. -/
theorem parameters?_close_insert {entry : Method}
    (hinsert : methods.insert name entry = .ok entered) (finish : Address) (other : String) :
    (entered.close name finish).parameters? other =
      if name = other then some entry.parameters else methods.parameters? other := by
  rw [parameters?, find?_close, Option.map_map, find?_insert hinsert]
  by_cases ho : name = other
  · simp [ho]
  · simp [ho, parameters?, Function.comp_def]

/-- A definition adds at most one entry to the table. -/
theorem size_close_insert {entry : Method} (hinsert : methods.insert name entry = .ok entered)
    (finish : Address) : (entered.close name finish).size ≤ methods.size + 1 := by
  rw [size_close]
  unfold insert at hinsert
  split at hinsert
  · cases hinsert
    exact Std.ExtTreeMap.size_insert_le
  · cases hinsert

end Methods

namespace Store

/-- The lines of methods are in `Establishes` with a table of all of them. -/
theorem establishes_definitions {globals : Scope} {methods : Methods}
    {entries : List (String × Method)} (hnamed : (idle globals methods).Named)
    (hproper : ∀ entry ∈ entries, entry.2.Proper entry.1)
    (hdistinct : entries.Pairwise fun entry other => entry.1 ≠ other.1)
    (hnew : ∀ entry ∈ entries, methods.parameters? entry.1 = none)
    (hroom : methods.size + entries.length ≤ methodBound.size) (a : Address) :
    ∃ after : Methods,
      Establishes ((entries.flatMap fun entry => [Session.header entry, "ENDMETHOD"]).map .ofText) a
        (idle globals methods) (idle globals after) ∧
      ∀ name parameters, after.parameters? name = some parameters ↔
        (∃ entry ∈ entries, entry.1 = name ∧ entry.2.parameters = parameters) ∨
          methods.parameters? name = some parameters := by
  -- what is known of the table is only which parameters it gives to which name
  induction entries generalizing methods a with
  | nil => exact ⟨methods, .nil, by simp⟩
  | cons entry entries ih =>
    obtain ⟨hp, hrest⟩ := List.forall_mem_cons.1 hproper
    obtain ⟨hfirst, hothers⟩ := List.forall_mem_cons.1 hnew
    obtain ⟨hdiffers, hdistinct⟩ := List.pairwise_cons.1 hdistinct
    rw [List.length_cons] at hroom
    have hnone : methods.find? entry.1 = none := Option.map_eq_none_iff.1 hfirst
    have hspace : methods.size < methodBound.size := by omega
    obtain ⟨entered, hinsert⟩ : ∃ entered,
        methods.insert entry.1 ⟨entry.2.parameters, a, none⟩ = .ok entered := ⟨_, if_pos hspace⟩
    have htable := Methods.parameters?_close_insert hinsert (a + 1)
    have hsize := Methods.size_close_insert hinsert (a + 1)
    have hopener := (Session.writes_header hp).tokens_eq
    have hcloser := Session.writes_closer.tokens_eq
    have hdefinition : Establishes [.ofText (Session.header entry), .ofText "ENDMETHOD"] a
        (idle globals methods) (idle globals (entered.close entry.1 (a + 1))) :=
      ⟨declareAll_definition hopener hcloser hnamed hp hnone hinsert, fun _ _ hheld =>
        leads_definition hopener hcloser hnamed hp hnone hinsert hheld⟩
    have hnext : (idle globals (entered.close entry.1 (a + 1))).Named := by
      refine ⟨hnamed.vars, (Methods.Named.insert hnamed.methods ?_ hinsert).close _ _⟩
      exact fun parameter hmem => (Name.usable_iff.1 (hp.parameters parameter hmem)).1
    have hothers' : ∀ other ∈ entries,
        (entered.close entry.1 (a + 1)).parameters? other.1 = none := by
      intro other hmem
      rw [htable, if_neg (hdiffers other hmem)]
      exact hothers other hmem
    obtain ⟨after, hmore, hafter⟩ := ih hnext hrest hdistinct hothers' (by omega) (a + 2)
    refine ⟨after, hdefinition.append hmore, fun name parameters => ?_⟩
    rw [hafter, htable]
    by_cases hname : entry.1 = name
    · subst hname
      simp [hfirst, or_comm]
    · simp [hname]

/-! ## The whole listing -/

namespace Scoped

variable {store : Store}

/-- The lines of `replay`, none of which is broken in two. -/
theorem lines_replay (h : store.Scoped) : (Session.replay store).lines.toList =
    (store.vars.listing.map Session.binding).map .ofText ++
      (store.methods.listing.flatMap fun entry => [Session.header entry, "ENDMETHOD"]).map
        .ofText := by
  have hwhole : ∀ line ∈ Session.closeHeaders (Session.vars store), '\n' ∉ line.toList := by
    rw [Session.closeHeaders_vars h, List.forall_mem_append]
    constructor
    · intro line hmem
      obtain ⟨entry, hentry, rfl⟩ := List.mem_map.1 hmem
      exact (Session.writes_binding (h.usable_of_mem_listing hentry)).not_break
    · intro line hmem
      obtain ⟨entry, hentry, hline⟩ := List.mem_flatMap.1 hmem
      rw [List.mem_pair] at hline
      rcases hline with rfl | rfl
      · exact (Session.writes_header (h.proper_of_mem_listing hentry)).not_break
      · exact Session.writes_closer.not_break
  rw [Session.replay, Program.parse, Session.lines_printed hwhole, Session.closeHeaders_vars h,
    List.map_append]

/-- The bounds of the tables bound the length of `replay`. -/
theorem size_replay (h : store.Scoped) : (Session.replay store).size < UInt64.size := by
  have hvars : store.vars.listing.length ≤ 65535 := by
    rw [Variables.listing, Std.ExtTreeMap.length_toList]
    exact h.globals_le
  have hmethods : store.methods.listing.length ≤ 65535 := by
    rw [Methods.listing, Std.ExtTreeMap.length_toList]
    exact h.methods.size_le
  have hlength : (Session.replay store).lines.toList.length =
      store.vars.listing.length + store.methods.listing.length * 2 := by
    rw [h.lines_replay]
    simp
  rw [Array.length_toList] at hlength
  show (Session.replay store).lines.size < 18446744073709551616
  omega

/-- Inserting the `listing` gives the globals back. -/
theorem insertMany_listing (vars : Variables) :
    (∅ : Scope).insertMany vars.listing = vars.globals := by
  rw [← Std.ExtTreeMap.ofList_eq_insertMany_empty]
  apply Std.ExtTreeMap.ext_getElem?
  intro name
  cases hname : vars.globals[name]? with
  | some value =>
    exact Std.ExtTreeMap.getElem?_ofList_of_mem Std.ReflCmp.compare_self
      Std.ExtTreeMap.distinct_keys_toList
      (Std.ExtTreeMap.mem_toList_iff_getElem?_eq_some.2 hname)
  | none =>
    apply Std.ExtTreeMap.getElem?_ofList_of_contains_eq_false
    rw [← Bool.not_eq_true, List.contains_iff_mem, List.mem_map]
    rintro ⟨⟨_, value⟩, hmem, rfl⟩
    rw [Std.ExtTreeMap.mem_toList_iff_getElem?_eq_some.1 hmem] at hname
    cases hname

/-- The lines of the globals are in `Establishes` with them. -/
theorem establishes_variables (h : store.Scoped) :
    Establishes ((store.vars.listing.map Session.binding).map .ofText) 0 .empty
      (idle store.vars.globals .empty) := by
  have hroom : (∅ : Scope).size + store.vars.listing.length ≤ globalBound.size := by
    rw [Std.ExtTreeMap.size_empty, Nat.zero_add, Variables.listing, Std.ExtTreeMap.length_toList]
    exact h.globals_le
  have hestablishes := establishes_bindings .empty
    (fun _ hmem => h.usable_of_mem_listing hmem) hroom 0
  rw [insertMany_listing] at hestablishes
  exact hestablishes

/-- The lines of the methods are in `Establishes` with a table of the same names and parameters. -/
theorem establishes_methods (h : store.Scoped) (a : Address) : ∃ methods : Methods,
    Establishes ((store.methods.listing.flatMap fun entry =>
        [Session.header entry, "ENDMETHOD"]).map .ofText) a
      (idle store.vars.globals .empty) (idle store.vars.globals methods) ∧
      ∀ name, methods.parameters? name = store.methods.parameters? name := by
  have hnamed : (idle store.vars.globals .empty).Named := by
    refine ⟨⟨fun name hmem => (Name.usable_iff.1 (h.globals name hmem)).1, ?_⟩, Named.empty.methods⟩
    intro scope hmem
    cases hmem
  have hdistinct : store.methods.listing.Pairwise fun entry other => entry.1 ≠ other.1 :=
    Std.ExtTreeMap.distinct_keys_toList.imp fun hne heq => hne (Std.compare_eq_iff_eq.2 heq)
  have hempty : ∀ name, Methods.empty.parameters? name = none := by
    simp [Methods.parameters?, Methods.find?, Methods.empty]
  have hroom : Methods.empty.size + store.methods.listing.length ≤ methodBound.size := by
    rw [Methods.listing, Std.ExtTreeMap.length_toList]
    exact Nat.le_trans (Nat.le_of_eq (Nat.zero_add _)) h.methods.size_le
  obtain ⟨methods, hestablishes, hparameters⟩ := establishes_definitions hnamed
    (fun entry hmem => h.proper_of_mem_listing hmem) hdistinct (fun entry _ => hempty entry.1)
    hroom a
  refine ⟨methods, hestablishes, fun name => Option.ext fun parameters => ?_⟩
  rw [hparameters, hempty, Methods.parameters?, Option.map_eq_some_iff]
  constructor
  · rintro (⟨⟨_, method⟩, hmem, rfl, hsame⟩ | hnone)
    · exact ⟨method, Std.ExtTreeMap.mem_toList_iff_getElem?_eq_some.1 hmem, hsame⟩
    · cases hnone
  · rintro ⟨method, hmethod, hsame⟩
    have hmem := Std.ExtTreeMap.mem_toList_iff_getElem?_eq_some.2 hmethod
    exact .inl ⟨(name, method), hmem, rfl, hsame⟩

end Scoped

end Store

namespace Engine

/-- **The listing can be replayed.** In every `Reachable` engine, the listing of the globals and
methods, with each method closed after its header, is a program that passes `check` and runs to its
end. It leaves a new engine with the same globals and with methods of the same names and parameters.
-/
theorem replay_listing {tolerated : Fault → Prop} {engine : Engine}
    (h : Reachable tolerated engine) :
    (Session.replay engine.store).check = .ok () ∧
      ∃ fuel after, run (Session.replay engine.store) fuel .initial = some (.ok () after) ∧
        after.store.vars.globals = engine.store.vars.globals ∧
        ∀ name, after.store.methods.parameters? name = engine.store.methods.parameters? name := by
  have hscoped := h.scoped
  obtain ⟨methods, hmethods, hparameters⟩ := hscoped.establishes_methods
    (0 + UInt64.ofNat ((engine.store.vars.listing.map Session.binding).map Line.ofText).length)
  have hlines := hscoped.establishes_variables.append hmethods
  rw [← hscoped.lines_replay] at hlines
  obtain ⟨hcheck, hrun⟩ := hlines.run hscoped.size_replay
  exact ⟨hcheck, _, _, hrun, rfl, hparameters⟩

/-- A run that fails in a call, after a variable and two methods have been made. -/
theorem replay_listing_interrupted_call : ∃ engine : Engine, Reachable (fun _ => True) engine ∧
    engine.store.flow.calls.height = 1 ∧
    Session.vars engine.store = ["x = -2147483648", "METHOD f(b,a)", "METHOD g()"] ∧
    (Session.replay engine.store).check = .ok () ∧
      ∃ fuel after, run (Session.replay engine.store) fuel .initial = some (.ok () after) ∧
        after.store.vars.globals = engine.store.vars.globals ∧
        ∀ name, after.store.methods.parameters? name = engine.store.methods.parameters? name := by
  let program := Program.parse
    "x = -2147483648\nMETHOD g()\nENDMETHOD\nMETHOD f(b,a)\nb = a / 0\nENDMETHOD\nf(1,2)\n"
  have hrun : (run program 40 .initial).map (fun outcome =>
      (outcome.engine.store.flow.calls.height, Session.vars outcome.engine.store)) =
      some (1, ["x = -2147483648", "METHOD f(b,a)", "METHOD g()"]) := by
    decide +kernel
  obtain ⟨failed, hfailed, hstate⟩ := Option.map_eq_some_iff.1 hrun
  obtain ⟨hheight, hvars⟩ := Prod.mk.inj hstate
  have hr : Reachable (fun _ => True) failed.engine :=
    Reachable.runFrom (.start .initial) hfailed fun _ _ => trivial
  exact ⟨failed.engine, hr, hheight, hvars, replay_listing hr⟩

end Engine

end Sketch
