import Sketch.Proofs.Steps

/-!
# Names and literals

What the variables can do to a line. Every bound name is free for use as a name (`Store.Named`), so
that a variable at the head of a line never takes the place of a keyword or of a call
(`Store.Named.classify_cases`). The text of a number is a literal for it (`Number.parse?_text`).
-/

namespace Sketch

/-! ## Literals -/

namespace Number

/-- `magnitude?` reads the decimal digits of a number as that number. -/
theorem magnitude?_toDigits (n : Nat) : magnitude? (Nat.toDigits 10 n) = some n := by
  have hd : (Nat.toDigits 10 n).all Char.isDigit = true :=
    List.all_eq_true.2 fun c hc => Nat.isDigit_of_mem_toDigits (by decide) (by decide) hc
  rw [magnitude?, if_pos ⟨Nat.toDigits_ne_nil, hd⟩,
    Nat.ofDigitChars_toDigits (by decide) (by decide)]

/-- `readInt?` reads digits without a sign as they stand. -/
theorem readInt?_toDigits (n : Nat) : readInt? (Nat.toDigits 10 n) = some (n : Int) := by
  have hdigit : ∀ {c : Char}, c ∈ Nat.toDigits 10 n → c.isDigit = true := fun hc =>
    Nat.isDigit_of_mem_toDigits (by decide) (by decide) hc
  unfold readInt?
  split
  · next rest h => exact absurd (hdigit (h ▸ List.mem_cons_self)) (by decide)
  · next rest h => exact absurd (hdigit (h ▸ List.mem_cons_self)) (by decide)
  · simp [magnitude?_toDigits]

/-- `parse?` reads the `text` of a number as that number. -/
theorem parse?_text (n : Number) : parse? (text n) = some n := by
  have hread : readInt? (text n).toList = some n.toInt := by
    show readInt? (Int.repr n.toInt).toList = some n.toInt
    cases n.toInt with
    | ofNat m => simpa [Int.repr] using readInt?_toDigits m
    | negSucc m =>
      simp [Int.repr, readInt?, magnitude?_toDigits]
      omega
  rw [parse?, hread, Option.bind_some, ofInt?_toInt]

/-- The `text` of a number is a literal. -/
theorem isLiteral_text (n : Number) : isLiteral (text n) = true := by
  simp [isLiteral, parse?_text]

/-- A literal is a word that `Number.read` accepts. -/
theorem isLiteral_iff_read {s : String} : isLiteral s = true ↔ ∃ n, read s = .ok n := by
  unfold isLiteral read
  cases parse? s <;> simp

/-- Digits and a sign are all that a literal is made of. -/
theorem char_of_isLiteral {s : String} {c : Char} (h : isLiteral s = true) (hc : c ∈ s.toList) :
    c.isDigit = true ∨ c = '+' ∨ c = '-' := by
  have hdigits : ∀ {digits : List Char}, (magnitude? digits).isSome = true → c ∈ digits →
      c.isDigit = true := by
    intro digits hm hmem
    unfold magnitude? at hm
    split at hm
    · next hall => exact List.all_eq_true.1 hall.2 c hmem
    · cases hm
  have hread : (readInt? s.toList).isSome = true := by
    unfold isLiteral parse? at h
    cases hr : readInt? s.toList with
    | none => simp [hr] at h
    | some z => rfl
  -- a plus sign, a minus sign or no sign
  unfold readInt? at hread
  split at hread
  · next digits hs =>
    rw [hs, List.mem_cons] at hc
    rcases hc with rfl | hc
    · exact .inr (.inl rfl)
    · exact .inl (hdigits (by simpa using hread) hc)
  · next digits hs =>
    rw [hs, List.mem_cons] at hc
    rcases hc with rfl | hc
    · exact .inr (.inr rfl)
    · exact .inl (hdigits (by simpa using hread) hc)
  · exact .inl (hdigits (by simpa using hread) hc)

end Number

/-! ## Free names -/

namespace Name

/-- `Name.check` accepts the free names. -/
theorem check_eq_ok_iff {word : String} : Name.check word = .ok () ↔ isFree word = true := by
  unfold Name.check isFree
  cases isName word <;> cases Keyword.ofText? word <;> simp

/-- A free name has no `reserved` character. -/
theorem not_hasReserved_of_isFree {word : String} (h : isFree word = true) :
    hasReserved word = false := by
  simp only [isFree, isName, Bool.and_eq_true] at h
  obtain ⟨h, -⟩ := h
  split at h
  · cases h
  · simpa using (Bool.and_eq_true_iff.1 h).2

/-- A free name is no keyword. -/
theorem ofText?_of_isFree {word : String} (h : isFree word = true) :
    Keyword.ofText? word = none := by
  simpa using (Bool.and_eq_true_iff.1 h).2

end Name

namespace Command

/-- What the tokens of a line ask for if no name is bound. -/
def ofTokens (tokens : List String) : Except Fault Command :=
  classify (fun _ => false) tokens

/-- A free name has no brackets, so it has not the shape of a call (`hasCallShape`). -/
theorem hasCallShape_of_isFree {first : String} (h : Name.isFree first = true)
    (rest : List String) : hasCallShape (first :: rest) = false := by
  cases rest with
  | cons _ _ => rfl
  | nil =>
    have hnone := Name.not_hasReserved_of_isFree h
    rw [hasCallShape, Bool.and_eq_false_iff]
    refine .inl (beq_eq_false_iff_ne.2 fun hfind => ?_)
    have hmem := List.mem_of_find?_eq_some hfind
    have : Name.hasReserved first = true := List.any_eq_true.2 ⟨'(', hmem, by decide⟩
    rw [hnone] at this
    cases this

/-- `ofTokens` takes a line that begins with a free name for an assignment or for no command. -/
theorem ofTokens_of_isFree {first : String} (h : Name.isFree first = true) (rest : List String) :
    ofTokens (first :: rest) = .ok .assignment ∨
      ∃ fault, ofTokens (first :: rest) = .error fault := by
  unfold ofTokens classify
  by_cases hshape : hasAssignmentShape (first :: rest) = true
  · simp [hshape]
  · have hword : ∃ fault, ofWord first = .error fault := by
      unfold ofWord
      rw [Name.ofText?_of_isFree h]
      dsimp only
      split
      · exact ⟨_, rfl⟩
      · exact ⟨_, rfl⟩
    refine .inr ?_
    simpa [hshape, hasCallShape_of_isFree h] using hword

end Command

/-! ## Stores whose names are free -/

/-- Every bound name is free for use as a name. -/
structure Variables.Named (vars : Variables) : Prop where
  globals : ∀ name ∈ vars.globals, Name.isFree name = true
  scopes : ∀ scope ∈ vars.scopes.entries, ∀ name ∈ scope, Name.isFree name = true

/-- The parameters of every method are free for use as names. -/
def Methods.Named (methods : Methods) : Prop :=
  ∀ name method, methods.find? name = some method →
    ∀ parameter ∈ method.parameters, Name.isFree parameter = true

namespace Variables.Named

variable {vars after : Variables} {scope : Scope}

/-- There are no names where nothing is bound. -/
theorem empty : Variables.empty.Named :=
  ⟨fun name h => by simp [Variables.empty] at h, fun scope h => by simp [Variables.empty] at h⟩

/-- A name that `Named` variables bind is free. -/
theorem isFree_of_contains (h : vars.Named) {name : String} (hc : vars.contains name = true) :
    Name.isFree name = true := by
  unfold contains lookup? at hc
  split at hc
  · next value hv =>
    obtain ⟨scope, htop, hs⟩ := Option.bind_eq_some_iff.1 hv
    have hmem : scope ∈ vars.scopes.entries := by
      obtain ⟨rest, hrest⟩ := Stack.top?_eq_some_iff.1 htop
      simp [hrest]
    exact h.scopes scope hmem name (Std.ExtTreeMap.mem_iff_isSome_getElem?.2 (by rw [hs]; rfl))
  · exact h.globals name (Std.ExtTreeMap.mem_iff_isSome_getElem?.2 hc)

/-- `Variables.Named` is kept when a free name is given a value. -/
theorem store (h : vars.Named) {name : String} {value : Number} (hn : Name.isFree name = true)
    (hv : vars.store name value = .ok after) : after.Named := by
  have hinsert : ∀ {scope : Scope}, (∀ name ∈ scope, Name.isFree name = true) →
      ∀ other ∈ scope.insert name value, Name.isFree other = true := by
    intro scope hs other hmem
    rcases Std.ExtTreeMap.mem_insert.1 hmem with heq | hmem
    · exact Std.compare_eq_iff_eq.1 heq ▸ hn
    · exact hs other hmem
  rcases store_cases hv with ⟨scope, scopes, hs, -, rfl⟩ | ⟨-, -, rfl⟩
  · refine ⟨h.globals, ?_⟩
    have hscopes := h.scopes
    simp only [hs, Stack.entries_cons, List.mem_cons, forall_eq_or_imp] at hscopes ⊢
    exact ⟨hinsert hscopes.1, hscopes.2⟩
  · exact ⟨hinsert h.globals, h.scopes⟩

/-- `Variables.Named` is kept when a scope of free names is opened. -/
theorem enter (h : vars.Named) (hs : ∀ name ∈ scope, Name.isFree name = true) :
    Named { vars with scopes := vars.scopes.cons scope } := by
  refine ⟨h.globals, ?_⟩
  simp only [Stack.entries_cons, List.mem_cons, forall_eq_or_imp]
  exact ⟨hs, h.scopes⟩

/-- `Variables.Named` is kept when a scope is closed. -/
theorem leave (h : vars.Named) {scopes : Stack Scope} (hs : vars.scopes = scopes.cons scope) :
    Named { vars with scopes } := by
  refine ⟨h.globals, ?_⟩
  have hscopes := h.scopes
  simp only [hs, Stack.entries_cons, List.mem_cons, forall_eq_or_imp] at hscopes
  exact hscopes.2

end Variables.Named

namespace Methods

variable {methods after : Methods} {name : String} {method : Method}

/-- `Methods.insert` changes the entry under its name and no other. -/
theorem find?_insert {entry : Method} (h : methods.insert name entry = .ok after) (other : String) :
    after.find? other = if name = other then some entry else methods.find? other := by
  unfold insert at h
  split at h
  · cases h
    simp only [find?, Std.ExtTreeMap.getElem?_insert, Std.compare_eq_iff_eq]
  · cases h

/-- `Methods.close` records the closing line of one method and changes nothing else. -/
theorem find?_close (finish : Address) (other : String) :
    (methods.close name finish).find? other =
      (methods.find? other).map fun method =>
        if name = other then { method with finish := some finish } else method := by
  unfold close find?
  split
  · next method hm =>
    simp only [Std.ExtTreeMap.getElem?_insert, Std.compare_eq_iff_eq]
    by_cases ho : name = other
    · subst ho
      simp [hm]
    · simp [ho]
  · next hm =>
    by_cases ho : name = other
    · subst ho
      simp [hm]
    · simp [ho]

/-- `Methods.Named` is kept when a method with free parameters is put in. -/
theorem Named.insert (h : methods.Named) {entry : Method}
    (hp : ∀ parameter ∈ entry.parameters, Name.isFree parameter = true)
    (hi : methods.insert name entry = .ok after) : after.Named := by
  intro other method hm
  rw [find?_insert hi] at hm
  split at hm
  · cases hm
    exact hp
  · exact h other method hm

/-- `Methods.Named` is kept when the end of a method is noted. -/
theorem Named.close (h : methods.Named) (name : String) (finish : Address) :
    (methods.close name finish).Named := by
  intro other method hm
  rw [find?_close] at hm
  obtain ⟨old, hold, rfl⟩ := Option.map_eq_some_iff.1 hm
  have := h other old hold
  split <;> exact this

end Methods

namespace Assignment

/-- `Assignment.parse` reads a free name, the equals sign, a literal and perhaps an operation. -/
theorem parse_eq_ok_iff {tokens : List String} {assignment : Assignment} :
    parse tokens = .ok assignment ↔
      ∃ value rest, tokens = assignment.name :: "=" :: value :: rest ∧
        Name.isFree assignment.name = true ∧ Number.read value = .ok assignment.value ∧
        parseOperation rest = .ok assignment.operation := by
  unfold parse
  split
  · next name equals value rest =>
    simp only [bind_ok_iff]
    constructor
    · rintro ⟨_, hname, h⟩
      split at h
      · next heq =>
        obtain ⟨a, ha, h⟩ := bind_ok_iff.1 h
        obtain ⟨operation, ho, h⟩ := bind_ok_iff.1 h
        cases h
        exact ⟨value, rest, by rw [heq], Name.check_eq_ok_iff.1 hname, ha, ho⟩
      · cases h
    · rintro ⟨_, _, heq, hname, ha, ho⟩
      simp only [List.cons.injEq] at heq
      obtain ⟨rfl, rfl, rfl, rfl⟩ := heq
      refine ⟨(), Name.check_eq_ok_iff.2 hname, ?_⟩
      rw [if_pos rfl]
      exact bind_ok_iff.2 ⟨_, ha, bind_ok_iff.2 ⟨_, ho, rfl⟩⟩
  · next hne =>
    refine ⟨nofun, ?_⟩
    rintro ⟨value, rest, rfl, -⟩
    exact absurd rfl (hne _ _ _ _)

end Assignment

namespace Store

variable {store after : Store} {tokens : List String} {cursor next : Address}

/-- `checkParameters` accepts free names only. -/
theorem isFree_of_checkParameters {seen parameters : List String}
    (h : checkParameters seen parameters = .ok ()) :
    ∀ parameter ∈ parameters, Name.isFree parameter = true := by
  induction parameters generalizing seen with
  | nil => simp
  | cons name rest ih =>
    rw [checkParameters] at h
    obtain ⟨_, hname, h⟩ := bind_ok_iff.1 h
    split at h
    · cases h
    · intro parameter hmem
      rcases List.mem_cons.1 hmem with rfl | hmem
      · exact Name.check_eq_ok_iff.1 hname
      · exact ih h parameter hmem

/-- `interpret` succeeds exactly if `classify` and `substitute` do. -/
theorem interpret_eq_ok_iff {command : Command} {substituted : List String} :
    store.interpret tokens = .ok (command, substituted) ↔
      store.classify tokens = .ok command ∧ store.substitute command tokens = .ok substituted := by
  unfold interpret
  simp only [bind_ok_iff]
  constructor
  · rintro ⟨_, hc, _, hs, h⟩
    cases h
    exact ⟨hc, hs⟩
  · rintro ⟨hc, hs⟩
    exact ⟨command, hc, substituted, hs, rfl⟩

/-- `checkUndefined` accepts a name that is new or has been defined at this address. -/
theorem checkUndefined_eq_ok_iff {methods : Methods} {name : String} :
    checkUndefined methods name cursor = .ok () ↔
      ∀ method, methods.find? name = some method → method.start = cursor := by
  unfold checkUndefined
  cases hm : methods.find? name with
  | none => simp
  | some method => simp

/-- `readHeader` reads a keyword and a bracketed list of free names under a free name that no other
line defines. -/
theorem readHeader_eq_ok_iff {signature : Bracketed} :
    store.readHeader tokens cursor = .ok signature ↔
      (∃ first word, tokens = [first, word] ∧ Bracketed.parse? word = some signature) ∧
        Name.check signature.head = .ok () ∧ checkParameters [] signature.items = .ok () ∧
        checkUndefined store.methods signature.head cursor = .ok () := by
  unfold readHeader
  split
  · next first word =>
    cases hp : Bracketed.parse? word with
    | none => simp [hp]
    | some found =>
      simp only [bind_ok_iff]
      constructor
      · rintro ⟨_, hname, _, hparams, _, hundef, h⟩
        cases h
        exact ⟨⟨first, word, rfl, hp⟩, hname, hparams, hundef⟩
      · rintro ⟨⟨first', word', heq, hp'⟩, hname, hparams, hundef⟩
        cases heq
        rw [hp, Option.some.injEq] at hp'
        subst hp'
        exact ⟨(), hname, (), hparams, (), hundef, rfl⟩
  · next hne =>
    refine ⟨nofun, ?_⟩
    rintro ⟨⟨first, word, heq, -⟩, -⟩
    exact absurd heq (hne first word)

/-- `register` finds the method in the table with its own address, or inserts it. -/
theorem register_cases {signature : Bracketed} {methods : Methods}
    (hr : store.readHeader tokens cursor = .ok signature)
    (hm : register store.methods signature cursor = .ok methods) :
    (∃ method, store.methods.find? signature.head = some method ∧ method.start = cursor ∧
        methods = store.methods) ∨
      store.methods.find? signature.head = none ∧
        store.methods.insert signature.head ⟨signature.items, cursor, none⟩ = .ok methods := by
  obtain ⟨-, -, -, hundefined⟩ := readHeader_eq_ok_iff.1 hr
  unfold register at hm
  split at hm
  · next method hfind =>
    cases hm
    exact .inl ⟨method, hfind, checkUndefined_eq_ok_iff.1 hundefined method hfind, rfl⟩
  · next hnew => exact .inr ⟨hnew, hm⟩

/-- `findCall` succeeds exactly if the call names a method of the table and gives a number for each
of its parameters. -/
theorem findCall_eq_ok_iff {invocation : Invocation} :
    store.findCall tokens = .ok invocation ↔
      ∃ call values, tokens.head?.bind Bracketed.parse? = some call ∧
        store.methods.find? call.head = some invocation.method ∧
        call.items.length = invocation.method.parameters.length ∧
        call.items.mapM store.resolve = .ok values ∧
        invocation = ⟨call.head, invocation.method, values⟩ := by
  constructor
  · intro h
    obtain ⟨request, hread, -⟩ := bind_ok_iff.1 h
    obtain ⟨method, hfound, hcall⟩ := exists_findCall_of_readCall hread
    rw [h, Except.ok.injEq] at hcall
    obtain ⟨call, found, values, hp, hm, hlength, hv, rfl⟩ := readCall_eq_ok_iff.1 hread
    obtain rfl : found = method := Option.some.inj (hm.symm.trans hfound)
    subst hcall
    exact ⟨call, values, hp, hm, hlength, hv, rfl⟩
  · rintro ⟨call, values, hp, hm, hlength, hv, hinvocation⟩
    have hread := readCall_eq_ok_iff.2 ⟨call, _, values, hp, hm, hlength, hv, rfl⟩
    obtain ⟨method, hfound, hcall⟩ := exists_findCall_of_readCall hread
    obtain rfl : method = invocation.method := Option.some.inj (hfound.symm.trans hm)
    rw [hcall, hinvocation]

/-- What the `scope` of a call binds are parameters. -/
theorem mem_parameters_of_mem_scope {invocation : Invocation} {name : String}
    (h : name ∈ invocation.scope) : name ∈ invocation.method.parameters := by
  rw [Invocation.scope, Scope.ofBindings, Std.ExtTreeMap.mem_ofList, List.contains_iff_mem,
    List.mem_map] at h
  obtain ⟨⟨parameter, value⟩, hmem, rfl⟩ := h
  exact (List.of_mem_zip hmem).1

/-- Variables and parameters are free names. -/
structure Named (store : Store) : Prop where
  vars : store.vars.Named
  methods : store.methods.Named

/-- In a `Named` store, `classify` differs from `ofTokens` only on lines that are no command for the
latter. -/
theorem Named.classify_cases (h : store.Named) (tokens : List String) :
    store.classify tokens = Command.ofTokens tokens ∨
      store.classify tokens = .ok .assignment ∧
        ∃ fault, Command.ofTokens tokens = .error fault := by
  cases tokens with
  | nil => exact .inl rfl
  | cons first rest =>
    cases hc : store.vars.contains first with
    | false => exact .inl (by simp [classify, Command.ofTokens, Command.classify, hc])
    | true =>
      have hassign : store.classify (first :: rest) = .ok .assignment := by
        simp [classify, Command.classify, hc]
      rcases Command.ofTokens_of_isFree (h.vars.isFree_of_contains hc) rest with ho | ho
      · exact .inl (hassign.trans ho.symm)
      · exact .inr ⟨hassign, ho⟩

/-- In a `Named` store, the variables have no say in whether a line has a keyword. -/
theorem Named.classify_eq_keyword_iff (h : store.Named) {keyword : Keyword} :
    store.classify tokens = .ok (.keyword keyword) ↔
      Command.ofTokens tokens = .ok (.keyword keyword) := by
  rcases h.classify_cases tokens with heq | ⟨heq, fault, ho⟩
  · rw [heq]
  · simp [heq, ho]

namespace Named

/-- The names of the empty store are free. -/
theorem empty : Store.empty.Named :=
  ⟨.empty, fun name method hm => by simp [Store.empty, Methods.empty, Methods.find?] at hm⟩

/-- `Store.Named` is kept when the end of a definition is noted. -/
theorem closed (h : store.Named) (cursor : Address) : (store.closed cursor).Named := by
  unfold Store.closed
  split
  · exact ⟨h.vars, h.methods.close _ cursor⟩
  · exact h

/-- `Store.Named` is kept by the return from a call. -/
theorem leaves (h : store.Named) (hl : Leaves cursor store next after) : after.Named := by
  cases hl with
  | stays _ => exact h
  | returns _ _ hs => exact ⟨h.vars.leave hs, h.methods⟩

/-- In a `Named` store, the names that a call binds are free. -/
theorem scope (h : store.Named) {invocation : Invocation}
    (hr : store.findCall tokens = .ok invocation) :
    ∀ name ∈ invocation.scope, Name.isFree name = true := by
  obtain ⟨call, values, -, hm, -⟩ := findCall_eq_ok_iff.1 hr
  exact fun name hmem => h.methods _ _ hm name (mem_parameters_of_mem_scope hmem)

/-- `Methods.Named` is kept when a method is registered whose header was read. -/
theorem register (h : store.methods.Named) {signature : Bracketed} {methods : Methods}
    (hr : store.readHeader tokens cursor = .ok signature)
    (hm : Store.register store.methods signature cursor = .ok methods) : methods.Named := by
  obtain ⟨-, -, hparams, -⟩ := readHeader_eq_ok_iff.1 hr
  rcases register_cases hr hm with ⟨_, -, -, rfl⟩ | ⟨-, hinsert⟩
  · exact h
  · exact h.insert (isFree_of_checkParameters hparams) hinsert

/-- `Store.Named` is kept by every command that succeeds. -/
theorem performs {command : Command} {step : Step} (h : store.Named)
    (he : Performs cursor store command tokens step after) : after.Named := by
  cases he with
  | assigns hp _ hv =>
    obtain ⟨_, _, -, hfree, -⟩ := Assignment.parse_eq_ok_iff.1 hp
    exact ⟨h.vars.store hfree hv, h.methods⟩
  | calls hr _ _ _ => exact ⟨h.vars.enter (h.scope hr), h.methods⟩
  | defines hr hm _ _ => exact ⟨h.vars, Named.register h.methods hr hm⟩
  | closesMethod _ hl => exact h.leaves hl
  | branches _ _ => exact ⟨h.vars, h.methods⟩
  | loops _ _ _ => exact ⟨h.vars, h.methods⟩
  | closesNothing _ _ _ => exact h
  | closesBranch _ _ => exact ⟨h.vars, h.methods⟩
  | closesLoop _ _ _ => exact ⟨h.vars, h.methods⟩
  | draws _ => exact h

/-- `Named` is kept by `Executes`. -/
theorem step {line : Line} {result : Step} (h : store.Named)
    (he : Executes line cursor store result after) : after.Named := by
  cases he with
  | blank _ => exact h
  | performs _ _ _ he => exact h.performs he
  | skips _ _ he =>
    cases he with
    | ignores _ _ => exact h
    | nests _ _ => exact ⟨h.vars, h.methods⟩
    | closes _ _ _ => exact ⟨h.vars, h.methods⟩
    | endsLoop _ _ _ => exact ⟨h.vars, h.methods⟩
    | @endsDefinition frames _ _ _ _ hl =>
      have hbelow : Named { store with flow.frames := frames } := ⟨h.vars, h.methods⟩
      exact (hbelow.closed cursor).leaves hl

end Named

end Store

end Sketch
