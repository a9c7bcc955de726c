import Sketch.Proofs.Iterations
import Sketch.Proofs.Tokens

/-!
# Programs without blocks

The dry run of a program records presumed values and takes every line once, and a run computes and
goes where the lines lead. Where no line opens a block or assigns the result of an operation there
is nothing to presume and nowhere else to go. Main statement: `Engine.run_eq_check`, the dry run and
the run of such a program have one result, down to the line that fails.

Step by step the two go through the same stores (`Store.Flat.agrees`), which never have a method or
an open block. So a call always fails and a stray closer does nothing.
-/

namespace Sketch

/-- The result of a run without the engine in which it ended. -/
def Outcome.result {α : Type} : Outcome α → Except Failure α
  | .ok a _ => .ok a
  | .error failure _ => .error failure

/-! ## Straight lines -/

/-- The line does not begin with a word that opens a block, and it is no assignment of an operation.
Apart from that it may be anything. -/
structure Line.IsStraight (line : Line) : Prop where
  not_opener : line.tokens.head? ∉ [some "IF", some "WHILE", some "METHOD"]
  not_operation : Command.hasAssignmentShape line.tokens = true → line.tokens.length ≠ 5

instance (line : Line) : Decidable line.IsStraight :=
  decidable_of_iff
    (line.tokens.head? ∉ [some "IF", some "WHILE", some "METHOD"] ∧
      (Command.hasAssignmentShape line.tokens = true → line.tokens.length ≠ 5))
    ⟨fun h => ⟨h.1, h.2⟩, fun h => ⟨h.not_opener, h.not_operation⟩⟩

namespace Line.IsStraight

variable {line : Line} {store : Store} {tokens : List String}

/-- A line that `IsStraight` opens no block. -/
theorem classify_ne_opener (h : line.IsStraight) (construct : Construct) :
    store.classify line.tokens ≠ .ok (.keyword (.opens construct)) := by
  intro hc
  apply h.not_opener
  rw [Command.head?_of_classify hc]
  cases construct <;> decide

/-- `parseOperation` reads an operator and an operand. -/
theorem length_of_parseOperation {words : List String} {operation : Operator × Number}
    (h : Assignment.parseOperation words = .ok (some operation)) : words.length = 2 := by
  unfold Assignment.parseOperation at h
  split at h
  · cases h
  · split at h
    · cases h
    · split at h
      · cases h
      · obtain ⟨_, -, h⟩ := bind_ok_iff.1 h
        split at h
        · next hnil => simp [List.isEmpty_iff.1 hnil]
        · cases h

/-- An assignment on a line that `IsStraight` has no operation, or there would be five tokens. -/
theorem operation_eq_none (h : line.IsStraight)
    (hi : store.interpret line.tokens = .ok (.assignment, tokens)) {assignment : Assignment}
    (hp : Assignment.parse tokens = .ok assignment) : assignment.operation = none := by
  obtain ⟨hc, hs⟩ := Store.interpret_eq_ok_iff.1 hi
  have hfive := h.not_operation (Store.hasAssignmentShape_of_parse hs hp)
  obtain ⟨value, words, htokens, -, -, hwords⟩ := Assignment.parse_eq_ok_iff.1 hp
  by_contra hsome
  obtain ⟨operation, hop⟩ := Option.ne_none_iff_exists'.1 hsome
  have hlength : words.length = 2 := length_of_parseOperation (hop ▸ hwords)
  obtain ⟨first, rest, hline⟩ : ∃ first rest, line.tokens = first :: rest :=
    List.exists_cons_of_ne_nil fun hnil => by rw [hnil] at hc; cases hc
  rw [hline] at hs
  obtain ⟨substituted, hsub, hargs⟩ := Store.forall₂_of_substitute rfl hs
  rw [htokens, List.cons.injEq] at hsub
  apply hfive
  rw [hline, List.length_cons, hargs.length_eq, ← hsub.2]
  simp [hlength]

end Line.IsStraight

namespace Store

open Sketch.Action

variable {store : Store} {line : Line} {tokens : List String} {command : Command} {a : Address}

/-- There is no method, and nothing is open. -/
structure Flat (store : Store) : Prop where
  methods : store.methods = .empty
  flow : store.flow = .empty

/-- A line does to the store what its dry run does to it: it passes and leaves the cursor where it
is, or it fails, and with the same fault. -/
inductive Agrees (line : Line) (a : Address) (store : Store) : Prop where
  | passes {drawing : Option Instruction} {vars : Variables}
      (he : Executes line a store ⟨a, drawing⟩ { store with vars })
      (hd : declare line a store = .ok () { store with vars })
  | fails {fault : Fault} (he : Fails line a store fault store)
      (hd : declare line a store = .error (.ofFault fault) store)

/-- `inspect` of `interpret` gives what `interpret` gives. -/
theorem inspect_interpret (hi : store.interpret line.tokens = .ok (command, tokens)) :
    inspect (·.interpret line.tokens) store = .ok (command, tokens) store :=
  inspect_eq_ok_iff.2 ⟨hi, rfl⟩

/-- An assignment without an operation gives its name the value that is `presumed`. -/
theorem agrees_of_assignment (hs : store.flow.suspended = false)
    (hi : store.interpret line.tokens = .ok (.assignment, tokens))
    (hop : ∀ assignment, Assignment.parse tokens = .ok assignment → assignment.operation = none) :
    Agrees line a store := by
  have hl : line.isEmpty = false := Line.isEmpty_of_classify (interpret_eq_ok_iff.1 hi).1
  have hdeclare : declare line a store = declareVariable tokens store := by
    rw [declare, if_neg (by simp [hl]), bind_of_ok (inspect_interpret hi)]
  cases hp : Assignment.parse tokens with
  | error fault =>
    refine .fails (.performs hl hs hi (.checks (map_eq_error_iff.2 hp))) ?_
    rw [hdeclare]
    exact bind_of_error (check_eq_error_iff.2 ⟨hp, rfl⟩)
  | ok assignment =>
    -- without an operation there is nothing to compute, so the presumed value is the value
    have he : assignment.evaluate = .ok assignment.value := by
      rw [Assignment.evaluate, hop assignment hp]
    have hpresumed : inspect (fun store => .ok (store.presumed assignment)) store =
        .ok assignment.value store :=
      inspect_eq_ok_iff.2 ⟨by rw [presumed, hop assignment hp], rfl⟩
    have hstore : declare line a store =
        onVariables (·.store assignment.name assignment.value) store := by
      rw [hdeclare, declareVariable, bind_of_ok (check_eq_ok_iff.2 ⟨hp, rfl⟩),
        bind_of_ok hpresumed]
    cases hv : store.vars.store assignment.name assignment.value with
    | error fault =>
      refine .fails (.performs hl hs hi (.stores hp he hv)) ?_
      rw [hstore]
      exact onVariables_eq_error_iff.2 ⟨hv, rfl⟩
    | ok vars =>
      refine .passes (.performs hl hs hi (.assigns hp he hv)) ?_
      rw [hstore]
      exact onVariables_eq_ok_iff.2 ⟨vars, hv, rfl⟩

/-- In a `Flat` store, `declare` only checks a line that neither assigns nor opens. -/
theorem Flat.declare_eq (h : store.Flat)
    (hi : store.interpret line.tokens = .ok (command, tokens)) (ha : command ≠ .assignment)
    (ho : ∀ construct, command ≠ .keyword (.opens construct)) :
    declare line a store = check (store.checkCommand command tokens) store := by
  have hl : line.isEmpty = false := Line.isEmpty_of_classify (interpret_eq_ok_iff.1 hi).1
  rw [declare, if_neg (by simp [hl]), bind_of_ok (inspect_interpret hi)]
  rcases command with _ | _ | ⟨tool | construct | construct⟩
  · exact absurd rfl ha
  · rfl
  · rfl
  · exact absurd rfl (ho construct)
  · cases construct with
    | branch => rfl
    | loop => rfl
    | method =>
      show declareEnd tokens a store = check (Keyword.checkAlone (.closes .method) tokens) store
      cases halone : Keyword.checkAlone (.closes .method) tokens with
      | error fault =>
        rw [declareEnd, bind_of_error (check_eq_error_iff.2 ⟨halone, rfl⟩)]
        rfl
      | ok _ =>
        have hnone : store.flow.endDefinition = (none, store.flow) := by rw [h.flow]; rfl
        have hend : endDefinition store = .ok none store :=
          takeFlow_eq_ok_iff.2 ⟨_, congrArg Except.ok hnone, rfl⟩
        rw [declareEnd, bind_of_ok (check_eq_ok_iff.2 ⟨halone, rfl⟩), bind_of_ok hend]
        rfl

/-- In a `Flat` store, such a line `Performs` without a change if it passes `checkCommand`. -/
theorem Flat.exists_performs (h : store.Flat) (ha : command ≠ .assignment)
    (ho : ∀ construct, command ≠ .keyword (.opens construct))
    (hk : store.checkCommand command tokens = .ok ()) :
    ∃ drawing, Performs a store command tokens ⟨a, drawing⟩ store := by
  have htop : store.flow.top? = none := by rw [h.flow]; rfl
  rcases command with _ | _ | ⟨tool | construct | construct⟩
  · exact absurd rfl ha
  · -- a call needs a method
    obtain ⟨request, hr, -⟩ := map_eq_ok_iff.1 hk
    obtain ⟨call, method, -, -, hm, -⟩ := readCall_eq_ok_iff.1 hr
    rw [h.methods] at hm
    simp [Methods.find?, Methods.empty] at hm
  · obtain ⟨instruction, hp, -⟩ := map_eq_ok_iff.1 hk
    exact ⟨some instruction, .draws hp⟩
  · exact absurd rfl (ho construct)
  · by_cases hm : construct = .method
    · subst hm
      exact ⟨none, .closesMethod hk (.stays (by simp [htop]))⟩
    · exact ⟨none, .closesNothing hk (fun mode => by simp [htop]) hm⟩

/-- In a `Flat` store, a line that `IsStraight` does what `declare` does. -/
theorem Flat.agrees (h : store.Flat) (hline : line.IsStraight) (a : Address) :
    Agrees line a store := by
  have hs : store.flow.suspended = false := by rw [h.flow]; rfl
  cases hl : line.isEmpty with
  | true =>
    refine .passes (.blank hl) ?_
    rw [declare, if_pos hl]
    rfl
  | false =>
    -- up to its check, a line goes the same way in both
    cases hi : store.interpret line.tokens with
    | error fault =>
      refine .fails (.interprets hl hs hi) ?_
      rw [declare, if_neg (by simp [hl])]
      exact bind_of_error (inspect_eq_error_iff.2 ⟨hi, rfl⟩)
    | ok p =>
      obtain ⟨command, tokens⟩ := p
      by_cases ha : command = .assignment
      · subst ha
        exact agrees_of_assignment hs hi fun assignment hp => hline.operation_eq_none hi hp
      have ho : ∀ construct, command ≠ .keyword (.opens construct) := by
        rintro construct rfl
        exact hline.classify_ne_opener construct (interpret_eq_ok_iff.1 hi).1
      have hd := h.declare_eq hi ha ho (a := a)
      cases hk : store.checkCommand command tokens with
      | error fault =>
        have hcheck : store.checkAt command tokens a = .error fault :=
          (checkAt_eq_checkCommand (ho .method)).trans hk
        refine .fails (.performs hl hs hi (.checks hcheck)) ?_
        rw [hd, hk]
        rfl
      | ok _ =>
        obtain ⟨drawing, hp⟩ := h.exists_performs ha ho hk (a := a)
        refine .passes (.performs hl hs hi hp) ?_
        rw [hd, hk]
        rfl

end Store

namespace Engine

variable {program : Program} {engine : Engine} {a : Address} {lines : List Line} {fuel : Nat}

/-- From a `Flat` store on, `runFrom` has the result of `declareAll` on the lines that are left. -/
theorem runFrom_eq_declareAll (h : engine.store.Flat) (hlines : ∀ line ∈ lines, line.IsStraight)
    (hholds : program.Holds a lines)
    (hend : program.line? (a + UInt64.ofNat lines.length) = none) (hfuel : lines.length < fuel) :
    (runFrom program fuel a engine).map Outcome.result =
      some ((Store.declareAll lines a engine.store).map fun _ => ()) := by
  -- the store stays flat, so the next line agrees as well
  induction lines generalizing a engine fuel with
  | nil =>
    obtain ⟨fuel, rfl⟩ := Nat.exists_eq_succ_of_ne_zero (Nat.ne_of_gt hfuel)
    have hnone : program.line? a = none := by simpa using hend
    simp only [runFrom, hnone]
    rfl
  | cons line lines ih =>
    obtain ⟨fuel, rfl⟩ := Nat.exists_eq_succ_of_ne_zero (Nat.ne_zero_of_lt hfuel)
    obtain ⟨hline, hrest⟩ := List.forall_mem_cons.1 hlines
    cases h.agrees hline a with
    | fails he hd =>
      have hrun : execute line a engine = .error _ engine := execute_eq_stop_iff.2 ⟨he, rfl⟩
      simp only [runFrom, hholds.1, hrun, Store.declareAll, hd]
      rfl
    | @passes drawing vars he hd =>
      have hrun : execute line a engine =
          .ok a ⟨{ engine.store with vars }, drawn engine.canvas drawing⟩ :=
        execute_eq_ok_iff.2 ⟨_, he, rfl, rfl⟩
      simp only [runFrom, hholds.1, hrun, Store.declareAll, hd]
      refine ih ⟨h.methods, h.flow⟩ hrest hholds.2 ?_ (Nat.lt_of_succ_lt_succ hfuel)
      rw [Address.add_one_add]
      exact hend

/-- **On straight lines `check` is `run`.** Let every line of a program be straight (`IsStraight`):
it begins with no word that opens a block and assigns no operation. In every engine the program runs
to an end, and the result is that of `check`: both pass, or both fail with the same fault at the
same line. -/
theorem run_eq_check (hsize : program.size < UInt64.size)
    (hlines : ∀ line ∈ program.lines, line.IsStraight) (hfuel : program.size < fuel)
    (engine : Engine) :
    (run program fuel engine).map Outcome.result = some program.check := by
  have hlast : program.line? (0 + UInt64.ofNat program.lines.toList.length) = none := by
    rw [UInt64.zero_add]
    exact program.line?_size hsize
  refine runFrom_eq_declareAll ⟨rfl, rfl⟩ (fun line hmem => hlines line ?_)
    (program.holds_lines hsize) hlast hfuel
  exact Array.mem_toList_iff.1 hmem

/-- Stray closers, a line that is blank, values handed on, and a call of no method. -/
def strays : Program :=
  .parse "x = 5\nENDIF\nMOVE x 3\n\nENDMETHOD\nENDWHILE\ny = x\nfoo(y)\nCIRCLE none\n"

/-- The eighth line fails, in the run as in the dry run. -/
theorem run_eq_check_strays : strays.size < UInt64.size ∧
    (∀ line ∈ strays.lines, line.IsStraight) ∧
      strays.check = .error ⟨.undefinedMethod "foo", some ⟨8, .ofText "foo(y)"⟩⟩ ∧
      (run strays 20 .initial).map Outcome.result =
        some (.error ⟨.undefinedMethod "foo", some ⟨8, .ofText "foo(y)"⟩⟩) := by
  have hsize : strays.size < UInt64.size := by decide +kernel
  have hlines : ∀ line ∈ strays.lines, line.IsStraight := by decide +kernel
  have hcheck : strays.check = .error ⟨.undefinedMethod "foo", some ⟨8, .ofText "foo(y)"⟩⟩ := by
    decide +kernel
  refine ⟨hsize, hlines, hcheck, ?_⟩
  rw [run_eq_check hsize hlines (by decide +kernel), hcheck]

end Engine

end Sketch
