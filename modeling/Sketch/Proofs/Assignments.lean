import Sketch.Proofs.Inlining

/-!
# Assignments of operations

What a line `n = a + b` does, from its tokens to the bindings of all scopes. Main statement:
`Engine.assignment_exact`. It needs a name without blanks: a free name may have blanks other than
the space, and then the line falls into other tokens (`Engine.assignment_can_miss_name`).

The result is said without the arithmetic of the machine: `Computes` gives the exact integer, a
quotient by the rest that it leaves. What is stored is said by where a name is bound
(`Variables.binding?`): among the globals, or in one of the scopes counted from the oldest call, of
which one binding changes and no other.
-/

namespace Sketch

/-! ## Exact results -/

/-- How an operator is written. -/
def Operator.text : Operator → String
  | .add => "+"
  | .subtract => "-"
  | .multiply => "*"
  | .divide => "/"

/-- The exact result of an operation on two integers. The rest of a quotient is smaller than the
divisor and is not on the other side of zero than the dividend. -/
inductive Operator.Computes (a b : Int) : Operator → Int → Prop where
  | sum : Computes a b .add (a + b)
  | difference : Computes a b .subtract (a - b)
  | product : Computes a b .multiply (a * b)
  | quotient {q rest : Int} (heq : a = q * b + rest) (hlt : rest.natAbs < b.natAbs)
      (hpos : 0 ≤ a → 0 ≤ rest) (hneg : a ≤ 0 → rest ≤ 0) : Computes a b .divide q

namespace Operator

variable {a b z : Int} {operator : Operator}

@[simp] theorem ofText?_text (operator : Operator) : ofText? operator.text = some operator := by
  cases operator <;> rfl

/-- A quotient is determined by the rest that it leaves. -/
theorem tdiv_eq_of_rest {q rest : Int} (heq : a = q * b + rest) (hlt : rest.natAbs < b.natAbs)
    (hpos : 0 ≤ a → 0 ≤ rest) (hneg : a ≤ 0 → rest ≤ 0) : a.tdiv b = q := by
  have hb : b ≠ 0 := by
    rintro rfl
    exact Nat.not_lt_zero _ hlt
  have hsum : rest + b * q = a := by rw [heq, Int.mul_comm b q, Int.add_comm]
  rcases Int.le_total 0 a with ha | ha
  · have hrest := hpos ha
    exact ((Int.tdiv_tmod_unique ha hb).2 ⟨hsum, hrest, by omega⟩).1
  · have hrest := hneg ha
    exact ((Int.tdiv_tmod_unique' ha hb).2 ⟨hsum, by omega, hrest⟩).1

/-- Truncated division `Computes` a quotient. -/
theorem computes_tdiv (hb : b ≠ 0) : Computes a b .divide (a.tdiv b) := by
  refine .quotient (Int.tdiv_mul_add_tmod a b).symm ?_ (Int.tmod_nonneg b) ?_
  · rw [Int.natAbs_tmod]
    exact Nat.mod_lt _ (Int.natAbs_pos.2 hb)
  · intro ha
    have hrest := Int.tmod_nonneg b (Int.neg_nonneg_of_nonpos ha)
    rw [Int.neg_tmod] at hrest
    omega

/-- An operator `Computes` one exact result, unless zero divides. -/
theorem computes_iff : Computes a b operator z ↔
    (operator = .divide → b ≠ 0) ∧ operator.result a b = z := by
  constructor
  · intro h
    cases h with
    | sum => exact ⟨by rintro ⟨⟩, rfl⟩
    | difference => exact ⟨by rintro ⟨⟩, rfl⟩
    | product => exact ⟨by rintro ⟨⟩, rfl⟩
    | quotient heq hlt hpos hneg =>
      refine ⟨?_, tdiv_eq_of_rest heq hlt hpos hneg⟩
      rintro - rfl
      exact Nat.not_lt_zero _ hlt
  · rintro ⟨hb, rfl⟩
    cases operator with
    | add => exact .sum
    | subtract => exact .difference
    | multiply => exact .product
    | divide => exact computes_tdiv (hb rfl)

/-- `apply` gives the exact result if that is in the range. -/
theorem apply_of_mem_range {m n value : Number} (h : Computes m.toInt n.toInt operator z)
    (hz : value.toInt = z) : operator.apply m n = .ok value := by
  obtain ⟨hb, rfl⟩ := computes_iff.1 h
  rw [apply, if_neg fun hzero => hb hzero.1 hzero.2, Number.ofInt?_eq_some_iff.2 hz]

/-- An exact result out of the range is an `overflow`. -/
theorem apply_of_not_mem_range {m n : Number} (h : Computes m.toInt n.toInt operator z)
    (hz : z < Number.least ∨ Number.greatest < z) : operator.apply m n = .error .overflow := by
  obtain ⟨hb, rfl⟩ := computes_iff.1 h
  have hnone : Number.ofInt? (operator.result m.toInt n.toInt) = none :=
    if_neg fun hin => by omega
  rw [apply, if_neg fun hzero => hb hzero.1 hzero.2, hnone]

/-- A division by zero is `divisionByZero`. -/
theorem apply_zero {m n : Number} (hn : n = 0) : divide.apply m n = .error .divisionByZero :=
  if_pos ⟨rfl, by rw [hn]; rfl⟩

end Operator

/-! ## Bindings at all depths -/

namespace Variables

variable {vars after : Variables} {name : String} {value : Number}

/-- The value of a name at one level: among the globals, or in a scope counted from the oldest. -/
def binding? (vars : Variables) : (level : Option Nat) → (name : String) → Option Number
  | none, name => vars.globals[name]?
  | some depth, name => vars.scopes.toList[depth]?.bind (·[name]?)

/-- The level that an assignment to a name goes to: the innermost scope if it binds the name. -/
def home (vars : Variables) (name : String) : Option Nat :=
  if vars.scopes.top?.any (·.contains name) then some (vars.depth - 1) else none

/-- The `home` of a name that the innermost scope binds is that scope. -/
theorem home_of_cons {scope : Scope} {scopes : Stack Scope} (hs : vars.scopes = scopes.cons scope)
    (hc : scope.contains name = true) : vars.home name = some scopes.height := by
  simp [home, depth, hs, hc]

/-- The `home` of a name is among the globals unless the innermost scope binds it. -/
theorem home_eq_none_iff : vars.home name = none ↔
    ∀ scope, vars.scopes.top? = some scope → scope.contains name = false := by
  unfold home
  cases vars.scopes.top? with
  | none => simp
  | some scope => cases hc : scope.contains name <;> simp [hc]

/-- An entry of a scope changes under its name and no other. -/
theorem getElem?_insert_scope {scope : Scope} (other : String) :
    (scope.insert name value)[other]? = if other = name then some value else scope[other]? := by
  rw [Std.ExtTreeMap.getElem?_insert]
  by_cases heq : other = name
  · simp [heq]
  · simp [heq, Ne.symm heq]

/-- `Variables.store` changes one binding, at the `home` of the name. -/
theorem binding?_store (h : vars.store name value = .ok after) (level : Option Nat)
    (other : String) :
    after.binding? level other =
      if level = vars.home name ∧ other = name then some value else vars.binding? level other := by
  rcases store_cases h with ⟨scope, scopes, hs, hc, rfl⟩ | ⟨hc, -, rfl⟩
  · rw [home_of_cons hs hc]
    have htop : ∀ scope : Scope, (scopes.cons scope).toList = scopes.toList ++ [scope] := by
      intro scope
      simp [Stack.toList]
    have hheight : scopes.height = scopes.toList.length := by
      simp [Stack.toList, scopes.height_eq]
    cases level with
    | none => simp [binding?]
    | some depth =>
      simp only [binding?, hs, htop, hheight, Option.some.injEq]
      rcases Nat.lt_trichotomy depth scopes.toList.length with hlt | rfl | hgt
      · rw [List.getElem?_append_left hlt, List.getElem?_append_left hlt,
          if_neg fun hnew => by omega]
      · simp [getElem?_insert_scope]
      · rw [List.getElem?_eq_none (by simp; omega), List.getElem?_eq_none (by simp; omega),
          if_neg fun hnew => by omega]
  · rw [home_eq_none_iff.2 hc]
    cases level with
    | some depth => simp [binding?]
    | none => simp [binding?, getElem?_insert_scope]

end Variables

/-! ## Operands -/

/-- The number that a token stands for, as a literal or as a variable. -/
inductive Store.Denotes (store : Store) (token : String) (n : Number) : Prop where
  | literal (h : Number.parse? token = some n)
  | bound (h : store.vars.lookup? token = some n)

/-- A token `Denotes` the number that `resolve` gives. -/
theorem Store.denotes_of_resolve {store : Store} {token : String} {n : Number}
    (h : store.resolve token = .ok n) : store.Denotes token n := by
  unfold resolve at h
  split at h
  · next hp =>
    cases h
    exact .literal hp
  · split at h
    · next hl =>
      cases h
      exact .bound hl
    · cases h

namespace Store.Scoped

variable {store : Store} {name a b : String} {m n : Number}

/-- `substituteToken` gives a literal for a token that `Denotes` a number. -/
theorem exists_substituted (h : store.Scoped) {token : String} (hd : store.Denotes token n) :
    ∃ word, store.substituteToken token = .ok word ∧ Number.parse? word = some n := by
  have hstays : ∀ {word}, Number.parse? word = some n → store.substituteToken word = .ok word := by
    intro word hword
    simp [substituteToken, Number.isLiteral, hword]
  cases hd with
  | literal hn => exact ⟨token, hstays hn, hn⟩
  | bound hn =>
    have htext := Number.parse?_text n
    exact ⟨Number.text n, h.substituteToken_eq (.writes hn) ▸ hstays htext, htext⟩

/-- A token that `Denotes` a number is an atom. -/
theorem isAtom_of_denotes (h : store.Scoped) {token : String} (hd : store.Denotes token n) :
    IsAtom token.toList := by
  cases hd with
  | literal hn => exact Number.isAtom_of_isLiteral (by simp [Number.isLiteral, hn])
  | bound hn => exact (h.usable_of_lookup? hn).isAtom

/-- The parts of an assignment, with spaces between them, are the tokens of its line if and only if
there is no blank in the name. -/
theorem tokens_operation_iff (h : store.Scoped) (hname : Name.isFree name = true)
    (ha : store.Denotes a m) (hb : store.Denotes b n) (operator : Operator) :
    (Line.ofText (" ".intercalate [name, "=", a, operator.text, b])).tokens =
        [name, "=", a, operator.text, b] ↔
      ∀ c ∈ name.toList, Text.isBlank c = false := by
  refine ⟨fun ht => ?_, fun hblank => ?_⟩
  · have hmem : name ∈ (Line.ofText (" ".intercalate [name, "=", a, operator.text, b])).tokens := by
      rw [ht]
      exact List.mem_cons_self
    exact (Name.usable_of_guarded hname (Line.guarded_of_mem_tokens hmem)).not_blank
  have hatom : IsAtom name.toList := (Name.usable_iff.2 ⟨hname, hblank⟩).isAtom
  have hmark : ∀ c, c ≠ '"' → Text.isBlank c = false → Line.IsWord [c] := fun c hquote hblank =>
    ⟨List.cons_ne_nil _ _, by simpa using hquote.symm, by simpa using hblank⟩
  have hequals : Line.IsWord "=".toList := hmark '=' (by decide) (by decide)
  have hoperator : Line.IsWord operator.text.toList := by
    cases operator with
    | add => exact hmark '+' (by decide) (by decide)
    | subtract => exact hmark '-' (by decide) (by decide)
    | multiply => exact hmark '*' (by decide) (by decide)
    | divide => exact hmark '/' (by decide) (by decide)
  apply Line.tokens_ofText_words
  simp only [List.forall_mem_cons]
  exact ⟨hatom.toIsWord, hequals, (h.isAtom_of_denotes ha).toIsWord, hoperator,
    (h.isAtom_of_denotes hb).toIsWord, by simp⟩

/-- `interpret` reads an assignment of an operation as it is written. -/
theorem interpret_operation (h : store.Scoped) (hname : Name.isFree name = true)
    (ha : store.Denotes a m) (hb : store.Denotes b n) (operator : Operator) :
    ∃ tokens, store.interpret [name, "=", a, operator.text, b] = .ok (.assignment, tokens) ∧
      Assignment.parse tokens = .ok ⟨name, m, some (operator, n)⟩ := by
  obtain ⟨x, hx, hm⟩ := h.exists_substituted ha
  obtain ⟨y, hy, hn⟩ := h.exists_substituted hb
  have hshape : Command.hasAssignmentShape [name, "=", a, operator.text, b] = true := by
    simp [Command.hasAssignmentShape, (Bool.and_eq_true_iff.1 hname).1]
  have hclass : store.classify [name, "=", a, operator.text, b] = .ok .assignment := by
    simp [classify, Command.classify, hshape]
  have hequals : store.substituteToken "=" = .ok "=" := by
    simp [substituteToken, Name.hasReserved, Name.reserved]
  have hoperator : store.substituteToken operator.text = .ok operator.text := by
    cases operator <;> simp [substituteToken, Name.hasReserved, Name.reserved, Operator.text]
  have hargs : ["=", a, operator.text, b].mapM store.substituteToken =
      .ok ["=", x, operator.text, y] :=
    mapM_eq_ok_iff.2 (.cons hequals (.cons hx (.cons hoperator (.cons hy .nil))))
  refine ⟨[name, "=", x, operator.text, y], interpret_eq_ok_iff.2 ⟨hclass, ?_⟩, ?_⟩
  · simp [substitute, Command.substitutes, hargs, Except.map]
  · refine Assignment.parse_eq_ok_iff.2 ⟨x, [operator.text, y], rfl, hname, ?_, ?_⟩
    · simp [Number.read, hm]
    · simp only [Assignment.parseOperation, Operator.ofText?_text, Number.read, hn]
      rfl

end Store.Scoped

namespace Engine

variable {engine after : Engine} {name a b : String} {value : Number}

/-- The name has the value at the level that an assignment goes to, and nothing else has changed. -/
structure Stores (engine : Engine) (name : String) (value : Number) (after : Engine) : Prop where
  binding : ∀ level other, after.store.vars.binding? level other =
    if level = engine.store.vars.home name ∧ other = name then some value
    else engine.store.vars.binding? level other
  depth : after.store.vars.depth = engine.store.vars.depth
  methods : after.store.methods = engine.store.methods
  flow : after.store.flow = engine.store.flow
  canvas : after.canvas = engine.canvas

/-- `Variables.store` does what `Stores` says. -/
theorem stores_of_store {vars : Variables}
    (hv : engine.store.vars.store name value = .ok vars) :
    engine.Stores name value ⟨{ engine.store with vars }, engine.canvas⟩ where
  binding := Variables.binding?_store hv
  depth := Variables.depth_store hv
  methods := rfl
  flow := rfl
  canvas := rfl

variable {line : Line} {tokens : List String} {assignment : Assignment}

/-- If `evaluate` fails, so does `execute`, and nothing changes. -/
theorem execute_of_evaluate_error {fault : Fault} (hs : engine.store.flow.suspended = false)
    (hi : engine.store.interpret line.tokens = .ok (.assignment, tokens))
    (hp : Assignment.parse tokens = .ok assignment) (he : assignment.evaluate = .error fault)
    (cursor : Address) : execute line cursor engine = .error (fault.stop cursor) engine := by
  have hl : line.isEmpty = false := Line.isEmpty_of_classify (Store.interpret_eq_ok_iff.1 hi).1
  exact execute_eq_stop_iff.2 ⟨.performs hl hs hi (.evaluates hp he), rfl⟩

/-- If `evaluate` gives a value, `execute` fails with `full globalBound` or `Stores` it. -/
theorem execute_of_evaluate (hle : engine.store.vars.globals.size ≤ 65535)
    (hs : engine.store.flow.suspended = false)
    (hi : engine.store.interpret line.tokens = .ok (.assignment, tokens))
    (hp : Assignment.parse tokens = .ok assignment) (he : assignment.evaluate = .ok value)
    (cursor : Address) :
    (engine.store.vars.lookup? assignment.name = none ∧ engine.store.vars.globals.size = 65535 →
      execute line cursor engine = .error (Fault.stop (.full globalBound) cursor) engine) ∧
    (engine.store.vars.lookup? assignment.name ≠ none ∨ engine.store.vars.globals.size ≠ 65535 →
      ∃ after, execute line cursor engine = .ok cursor after ∧
        engine.Stores assignment.name value after) := by
  have hl : line.isEmpty = false := Line.isEmpty_of_classify (Store.interpret_eq_ok_iff.1 hi).1
  constructor
  · rintro ⟨hnew, hfull⟩
    have hv : engine.store.vars.store assignment.name value = .error (.full globalBound) :=
      Variables.store_eq_error_iff.2 ⟨rfl, hnew, Nat.le_of_eq hfull.symm⟩
    exact execute_eq_stop_iff.2 ⟨.performs hl hs hi (.stores hp he hv), rfl⟩
  · intro hroom
    cases hv : engine.store.vars.store assignment.name value with
    | error fault =>
      obtain ⟨-, hnew, hfull⟩ := Variables.store_eq_error_iff.1 hv
      rcases hroom with hold | hsize
      · exact absurd hnew hold
      · exact absurd (Nat.le_antisymm hle hfull) hsize
    | ok vars =>
      exact ⟨_, execute_of_step (.performs hl hs hi (.assigns hp he hv)), stores_of_store hv⟩

/-- **An assignment of an operation is exact.** In every `Reachable` engine that is not skipping,
take a free name and two operands that `Denotes` numbers. The text of the operation has just these
tokens if and only if the name has no blank. On every line with these tokens, at any address,
`execute` fails with `divisionByZero` if the divisor is zero, and else the operator `Computes` an
exact result. Outside the range of `Number` it fails with `overflow`. Inside, it `Stores` the result
in the innermost scope or among the globals and changes nothing else, or it fails with
`full globalBound`: only for a new global, when there are as many as there may be. The cursor stays,
and a line that fails changes nothing. -/
theorem assignment_exact (h : Reachable (fun _ => True) engine)
    (hs : engine.store.flow.suspended = false) (hname : Name.isFree name = true)
    {m n : Number} (ha : engine.store.Denotes a m) (hb : engine.store.Denotes b n)
    (operator : Operator) :
    ((Line.ofText (" ".intercalate [name, "=", a, operator.text, b])).tokens =
        [name, "=", a, operator.text, b] ↔
      ∀ c ∈ name.toList, Text.isBlank c = false) ∧
    ∀ line : Line, line.tokens = [name, "=", a, operator.text, b] → ∀ cursor : Address,
      (operator = .divide → n = 0 →
        execute line cursor engine = .error ⟨.ofFault .divisionByZero, cursor⟩ engine) ∧
      ((operator = .divide → n ≠ 0) → ∃ z, Operator.Computes m.toInt n.toInt operator z) ∧
      ∀ z, Operator.Computes m.toInt n.toInt operator z →
        (z < -2147483648 ∨ 2147483647 < z →
          execute line cursor engine = .error ⟨.ofFault .overflow, cursor⟩ engine) ∧
        (-2147483648 ≤ z ∧ z ≤ 2147483647 → ∃ value : Number, value.toInt = z ∧
          (engine.store.vars.lookup? name = none ∧ engine.store.vars.globals.size = 65535 →
            execute line cursor engine =
              .error ⟨.ofFault (.full globalBound), cursor⟩ engine) ∧
          (engine.store.vars.lookup? name ≠ none ∨ engine.store.vars.globals.size ≠ 65535 →
            ∃ after, execute line cursor engine = .ok cursor after ∧
              engine.Stores name value after)) := by
  refine ⟨h.scoped.tokens_operation_iff hname ha hb operator, fun line hline cursor => ?_⟩
  -- after substitution the operands are numbers, and the rest is arithmetic
  obtain ⟨tokens, hi, hp⟩ := h.scoped.interpret_operation hname ha hb operator
  rw [← hline] at hi
  refine ⟨?_, ?_, ?_⟩
  · rintro rfl hzero
    exact execute_of_evaluate_error hs hi hp (Operator.apply_zero hzero) cursor
  · intro hdivisor
    refine ⟨_, Operator.computes_iff.2 ⟨fun hop hzero => hdivisor hop ?_, rfl⟩⟩
    exact Int32.toInt_inj.1 hzero
  · intro z hz
    refine ⟨fun hout => ?_, fun hin => ?_⟩
    · have he := Operator.apply_of_not_mem_range hz hout
      exact execute_of_evaluate_error hs hi hp he cursor
    · have hvalue : (Int32.ofInt z).toInt = z := Number.toInt_ofInt hin.1 hin.2
      have he := Operator.apply_of_mem_range hz hvalue
      exact ⟨Int32.ofInt z, hvalue, execute_of_evaluate h.scoped.globals_le hs hi hp he cursor⟩

/-- Quotients of a parameter that hides a global: the least number has no opposite, and another
quotient goes to the parameter. -/
theorem assignment_exact_hidden : ∃ engine : Engine, Reachable (fun _ => True) engine ∧
    engine.store.flow.suspended = false ∧ engine.store.Denotes "x" (-2147483648) ∧
      engine.store.vars.globals["x"]? = some 7 ∧ engine.store.vars.home "x" = some 0 ∧
      Operator.Computes (-2147483648) (-1) .divide 2147483648 ∧
      execute (.ofText "x = x / -1") 2 engine = .error ⟨.ofFault .overflow, 2⟩ engine ∧
      Operator.Computes (-2147483648) 5 .divide (-429496729) ∧
      ∃ after, execute (.ofText "x = x / y") 2 engine = .ok 2 after ∧
        after.store.vars.binding? (some 0) "x" = some (-429496729) ∧
        after.store.vars.binding? none "x" = some 7 := by
  have hrun : (run hidden 20 .initial).map (fun outcome =>
      (outcome.engine.store.flow.suspended, outcome.engine.store.vars.lookup? "x",
        outcome.engine.store.vars.lookup? "y", outcome.engine.store.vars.globals["x"]?,
        outcome.engine.store.vars.home "x")) =
      some (false, some (-2147483648), some 5, some 7, some 0) := by
    decide +kernel
  obtain ⟨outcome, houtcome, hend⟩ := Option.map_eq_some_iff.1 hrun
  simp only [Prod.mk.injEq] at hend
  obtain ⟨hs, hx, hy, hglobal, hhome⟩ := hend
  have hreach : Reachable (fun _ => True) outcome.engine :=
    Reachable.initial.run houtcome fun _ _ => trivial
  have hname : Name.isFree "x" = true := by decide +kernel
  have hone : outcome.engine.store.Denotes "-1" (-1) := .literal (by decide +kernel)
  have hopposite : Operator.Computes (Int32.toInt (-2147483648)) (Int32.toInt (-1)) .divide
      2147483648 :=
    @Operator.Computes.quotient _ _ _ 0 (by decide) (by decide) (by decide) (by decide)
  have hfifth : Operator.Computes (Int32.toInt (-2147483648)) (Int32.toInt 5) .divide
      (-429496729) :=
    @Operator.Computes.quotient _ _ _ (-3) (by decide) (by decide) (by decide) (by decide)
  have hfails := ((assignment_exact hreach hs hname (.bound hx) hone .divide).2
    (.ofText "x = x / -1") (by decide +kernel) 2).2.2 _ hopposite
  have hstores := ((assignment_exact hreach hs hname (.bound hx) (.bound hy) .divide).2
    (.ofText "x = x / y") (by decide +kernel) 2).2.2 _ hfifth
  obtain ⟨value, hvalue, -, hroom⟩ := hstores.2 (by decide)
  obtain ⟨after, he, hafter⟩ := hroom (.inl (by simp [hx]))
  have hlevel := hafter.binding (some 0) "x"
  rw [hhome, if_pos ⟨rfl, rfl⟩] at hlevel
  have hkept := hafter.binding none "x"
  rw [hhome, if_neg fun hnew => by cases hnew.1] at hkept
  refine ⟨outcome.engine, hreach, hs, .bound hx, hglobal, hhome, hopposite, hfails.1 (by decide),
    hfifth, after, he, ?_, hkept.trans hglobal⟩
  rw [hlevel, ← Int32.ofInt_toInt value, hvalue]
  rfl

/-- A name that ends in a no-break space is free, and the assignment to it gives the value to `x`.
-/
theorem assignment_can_miss_name : ∃ (name : String) (after : Engine),
    Name.isFree name = true ∧ initial.store.flow.suspended = false ∧
      initial.store.Denotes "1" 1 ∧ initial.store.Denotes "2" 2 ∧
      execute (.ofText (" ".intercalate [name, "=", "1", Operator.add.text, "2"])) 0 initial =
        .ok 0 after ∧
      after.store.vars.lookup? name = none ∧ after.store.vars.lookup? "x" = some 3 := by
  have hends : (value? (execute
      (.ofText (" ".intercalate ["x\u00a0", "=", "1", Operator.add.text, "2"])) 0 initial)).map
        (fun result => (result.1, result.2.store.vars.lookup? "x\u00a0",
          result.2.store.vars.lookup? "x")) =
      some (0, none, some 3) := by
    decide +kernel
  obtain ⟨⟨next, after⟩, hvalue, hresult⟩ := Option.map_eq_some_iff.1 hends
  simp only [Prod.mk.injEq] at hresult
  obtain ⟨rfl, hmissed, hstored⟩ := hresult
  exact ⟨_, after, by decide +kernel, rfl, .literal (by decide +kernel),
    .literal (by decide +kernel), value?_eq_some_iff.1 hvalue, hmissed, hstored⟩

end Engine

end Sketch
