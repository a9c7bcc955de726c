import Sketch.Proofs.Cursor

/-!
# Failures and their places

The kind `internalError` is kept for what should not happen: a line without tokens that is taken for
a command, a keyword of a block that is taken for a tool, a method that is gone when it is called,
an entry that is taken from an empty stack, a method that runs on beyond its program.
`Engine.errors_located` says that it does not happen, but for the last, which needs a program that
does not hold the called method. It also says that the error of a run or of a check names the line
that it is about, by its number and with its text: what fails in a line has no place
(`Action.Unplaced`), so that `Failure.annotate` gives it the place of that line.

Reading never fails with such a fault, whatever the tokens are (`External`). That stacks are not
empty where something is taken from them is `Stands.fails_cases` for a line that is executed. For
the dry run it is a matter of two heights: it opens a definition and a scope together, and closes
them together.
-/

namespace Sketch

/-! ## Reading has no internal faults -/

/-- If there is no result, then the fault is not internal. -/
def External {α : Type} (result : Except Fault α) : Prop :=
  ∀ fault, result = .error fault → fault.kind ≠ .internalError

namespace External

variable {α β : Type}

theorem ok (a : α) : External (.ok a) := by
  intro fault h
  cases h

/-- A single fault is `External` if its kind is not `internalError`. -/
theorem error {fault : Fault} (h : (fault.kind == .internalError) = false) :
    External (.error fault : Except Fault α) := by
  intro other heq
  cases heq
  exact beq_eq_false_iff_ne.1 h

/-- A bind is `External` if its parts are. -/
theorem bind {x : Except Fault α} {f : α → Except Fault β} (hx : External x)
    (hf : ∀ a, External (f a)) : External (x >>= f) := by
  intro fault h
  rcases bind_error_iff.1 h with h | ⟨a, -, h⟩
  · exact hx fault h
  · exact hf a fault h

/-- A mapped result is `External` if the result is. -/
theorem map {x : Except Fault α} (f : α → β) (hx : External x) : External (x.map f) :=
  fun fault h => hx fault (map_eq_error_iff.1 h)

/-- Reading a list is `External` if reading each item is. -/
theorem mapM {xs : List α} {f : α → Except Fault β} (hf : ∀ x, External (f x)) :
    External (xs.mapM f) := by
  intro fault h
  obtain ⟨x, -, hx⟩ := exists_of_mapM_eq_error h
  exact hf x fault hx

end External

/-- A fault that `isLate` is no `internalError`. -/
theorem Fault.kind_ne_of_isLate {fault : Fault} (h : fault.isLate = true) :
    fault.kind ≠ .internalError := by
  intro hk
  cases fault <;> simp [Fault.isLate, Fault.kind] at h hk

/-- `Number.read` has no internal faults. -/
theorem Number.external_read (word : String) : External (read word) := by
  unfold read
  split
  · exact .ok _
  · exact .error rfl

/-- `Name.check` has no internal faults. -/
theorem Name.external_check (word : String) : External (Name.check word) := by
  unfold Name.check
  split
  · exact .error rfl
  · split
    · exact .error rfl
    · exact .ok ()

/-- `Keyword.checkAlone` has no internal faults. -/
theorem Keyword.external_checkAlone (keyword : Keyword) (tokens : List String) :
    External (keyword.checkAlone tokens) := by
  unfold checkAlone
  split
  · exact .error rfl
  · exact .ok ()

namespace Assignment

/-- `Assignment.parseOperation` has no internal faults. -/
theorem external_parseOperation (tokens : List String) : External (parseOperation tokens) := by
  unfold parseOperation
  split
  · exact .ok none
  · split
    · exact .error rfl
    · split
      · exact .error rfl
      · refine .bind (Number.external_read _) fun b => ?_
        split
        · exact .ok _
        · exact .error rfl

/-- `Assignment.parse` has no internal faults. -/
theorem external_parse (tokens : List String) : External (parse tokens) := by
  unfold parse
  split
  · refine .bind (Name.external_check _) fun _ => ?_
    split
    · exact .bind (Number.external_read _) fun _ =>
        .bind (external_parseOperation _) fun _ => .ok _
    · exact .error rfl
  · exact .error rfl

end Assignment

/-- `Condition.parse` has no internal faults. -/
theorem Condition.external_parse (keyword : Keyword) (tokens : List String) :
    External (parse keyword tokens) := by
  unfold parse
  split
  · refine .bind (Number.external_read _) fun a => ?_
    split
    · exact .error rfl
    · exact .bind (Number.external_read _) fun _ => .ok _
  · exact .error rfl

namespace Instruction

/-- `Instruction.readSize` has no internal faults. -/
theorem external_readSize (measure : Measure) (word : String) :
    External (readSize measure word) := by
  refine .bind (Number.external_read word) fun n => ?_
  split
  · exact .ok n
  · exact .error rfl

/-- `Instruction.readQuoted` has no internal faults. -/
theorem external_readQuoted (word : String) : External (readQuoted word) := by
  unfold readQuoted
  split
  · exact .ok _
  · exact .error rfl

/-- `Instruction.readContent` has no internal faults. -/
theorem external_readContent (word : String) : External (readContent word) := by
  unfold readContent
  split
  · exact .ok _
  · exact external_readQuoted word

/-- `Instruction.readColor` has no internal faults. -/
theorem external_readColor (word : String) : External (readColor word) := by
  unfold readColor
  split
  · exact .ok _
  · exact .error rfl

/-- `Instruction.readSwitch` has no internal faults. -/
theorem external_readSwitch (word : String) : External (readSwitch word) := by
  unfold readSwitch
  split
  · exact .ok true
  · exact .ok false
  · exact .error rfl

/-- `Instruction.parse` has no internal faults, whatever the tool. -/
theorem external_parse (tool : Tool) (arguments : List String) :
    External (parse tool arguments) := by
  unfold parse
  split
  · exact .bind (Number.external_read _) fun _ => .bind (Number.external_read _) fun _ => .ok _
  · exact .error rfl
  · exact .bind (Number.external_read _) fun _ => .ok _
  · exact .bind (Number.external_read _) fun _ => .bind (Number.external_read _) fun _ => .ok _
  · exact .error rfl
  · exact .bind (external_readSize _ _) fun _ => .ok _
  · exact .error rfl
  · exact .bind (external_readSize _ _) fun _ => .bind (external_readSize _ _) fun _ => .ok _
  · exact .error rfl
  · exact .bind (external_readSize _ _) fun _ => .bind (external_readSize _ _) fun _ => .ok _
  · exact .error rfl
  · exact .bind (external_readColor _) fun _ => .ok _
  · exact .error rfl
  · exact .bind (external_readSwitch _) fun _ => .ok _
  · exact .error rfl
  · exact .ok _
  · exact .error rfl
  · exact .ok _
  · exact .error rfl
  · exact .bind (external_readContent _) fun _ => .ok _
  · exact .bind (external_readSize _ _) fun _ => .bind (external_readQuoted _) fun _ => .ok _
  · exact .error rfl

end Instruction

namespace Store

variable {store after : Store} {line : Line} {cursor index : Address} {fault : Fault}
  {tokens : List String} {command : Command}

/-- `checkParameters` has no internal faults. -/
theorem external_checkParameters (seen parameters : List String) :
    External (checkParameters seen parameters) := by
  induction parameters generalizing seen with
  | nil => exact .ok ()
  | cons name rest ih =>
    rw [checkParameters]
    refine .bind (Name.external_check name) fun _ => ?_
    split
    · exact .error rfl
    · exact ih (name :: seen)

/-- `checkUndefined` has no internal faults. -/
theorem external_checkUndefined (methods : Methods) (name : String) (cursor : Address) :
    External (checkUndefined methods name cursor) := by
  unfold checkUndefined
  split
  · split
    · exact .ok ()
    · exact .error rfl
  · exact .ok ()

/-- `readHeader` has no internal faults. -/
theorem external_readHeader (store : Store) (tokens : List String) (cursor : Address) :
    External (store.readHeader tokens cursor) := by
  unfold readHeader
  split
  · split
    · exact .error rfl
    · exact .bind (Name.external_check _) fun _ => .bind (external_checkParameters _ _) fun _ =>
        .bind (external_checkUndefined _ _ _) fun _ => .ok _
  · exact .error rfl

/-- `resolve` has no internal faults. -/
theorem external_resolve (store : Store) (token : String) : External (store.resolve token) := by
  intro fault h
  obtain ⟨name, rfl⟩ := resolve_eq_error h
  simp [Fault.kind]

/-- `readCall` has no internal faults. -/
theorem external_readCall (store : Store) (tokens : List String) :
    External (store.readCall tokens) := by
  unfold readCall
  split
  · exact .error rfl
  · split
    · exact .error rfl
    · split
      · exact .bind (.mapM store.external_resolve) fun _ => .ok _
      · exact .error rfl

/-- The check of a command never fails with `notDrawing`: only the keyword of a tool comes to
`Instruction.ofLine`. -/
theorem external_checkCommand (store : Store) (command : Command) (tokens : List String) :
    External (store.checkCommand command tokens) := by
  rcases command with _ | _ | ⟨tool | construct | construct⟩
  · exact .map _ (Assignment.external_parse tokens)
  · exact .map _ (store.external_readCall tokens)
  · exact .map _ (Instruction.external_parse tool tokens.tail)
  · cases construct with
    | branch => exact .map _ (Condition.external_parse _ tokens)
    | loop => exact .map _ (Condition.external_parse _ tokens)
    | method => exact .map _ (store.external_readHeader tokens Address.last)
  · exact Keyword.external_checkAlone _ tokens

/-- `checkAt` has no internal faults (`External`). -/
theorem external_checkAt (store : Store) (command : Command) (tokens : List String)
    (cursor : Address) : External (store.checkAt command tokens cursor) := by
  unfold checkAt
  split
  · exact .map _ (store.external_readHeader tokens cursor)
  · exact store.external_checkCommand _ tokens

/-- `interpret` has no internal faults on a line with a token (`External`). -/
theorem external_interpret (hl : line.isEmpty = false) :
    External (store.interpret line.tokens) := by
  refine .bind ?_ fun command => .bind ?_ fun tokens => .ok _
  · unfold classify Command.classify
    split
    · next hnil => simp [Line.isEmpty, hnil] at hl
    · split
      · exact .ok _
      · split
        · exact .ok _
        · unfold Command.ofWord
          split
          · exact .ok _
          · split
            · exact .error rfl
            · exact .error rfl
  · intro fault h
    obtain ⟨name, rfl⟩ := substitute_eq_error h
    simp [Fault.kind]

/-- In a store that `Stands`, a line fails with no `internalError`. -/
theorem Stands.kind_ne_of_fails {lost : Nat} (h : store.Stands (.bottom lost))
    (hf : Fails line cursor store fault after) : fault.kind ≠ .internalError := by
  rcases h.fails_cases hf with ⟨hl, -, hi⟩ | ⟨command, tokens, -, -, -, hc⟩ | hd
  · exact external_interpret hl fault hi
  · exact store.external_checkAt command tokens cursor fault hc
  · exact Fault.kind_ne_of_isLate hd

/-! ## The dry run -/

open Sketch.Action

/-- A dry run has a scope for each definition that is open. -/
def Matched (store : Store) : Prop :=
  store.flow.definitions.height = store.vars.scopes.height

/-- `Matched` is kept by what a dry run records. -/
theorem Matched.records (h : store.Matched) (hr : Records index store command tokens after) :
    after.Matched := by
  cases hr with
  | nothing _ => exact h
  | binding _ hv => exact h.trans (Variables.depth_store hv).symm
  | header _ _ => exact congrArg (· + 1) h
  | closer hd hs =>
    unfold Matched at h
    rw [hd, hs, Stack.height_cons, Stack.height_cons] at h
    exact Nat.succ.inj h

/-- `Matched` is kept by every line of a dry run. -/
theorem Matched.declare (h : store.Matched) (hd : Store.declare line index store = .ok () after) :
    after.Matched := by
  cases hl : line.isEmpty with
  | true =>
    rw [Store.declare, if_pos hl] at hd
    cases hd
    exact h
  | false =>
    obtain ⟨command, tokens, -, -, hr⟩ := declare_eq_ok hl hd
    exact h.records hr

/-- `declareVariable` fails with no `internalError`. -/
theorem kind_ne_of_declareVariable
    (hd : declareVariable tokens store = .error (.ofFault fault) after) :
    fault.kind ≠ .internalError := by
  rcases bind_eq_error_iff.1 hd with hparse | ⟨assignment, _, -, hd⟩
  · exact Assignment.external_parse tokens fault (check_eq_error_iff.1 hparse).1
  rcases bind_eq_error_iff.1 hd with hvalue | ⟨value, _, -, hd⟩
  · cases (inspect_eq_error_iff.1 hvalue).1
  · rw [(Variables.store_eq_error_iff.1 (onVariables_eq_error_iff.1 hd).1).1]
    decide

/-- `declareMethod` fails with no `internalError`. -/
theorem kind_ne_of_declareMethod
    (hd : declareMethod tokens index store = .error (.ofFault fault) after) :
    fault.kind ≠ .internalError := by
  rcases bind_eq_error_iff.1 hd with hread | ⟨signature, _, -, hd⟩
  · exact store.external_readHeader tokens index fault (inspect_eq_error_iff.1 hread).1
  rcases bind_eq_error_iff.1 hd with hmethod | ⟨_, _, -, hd⟩
  · obtain ⟨hfull, -⟩ := onMethods_eq_error_iff.1 hmethod
    unfold Methods.insert at hfull
    split at hfull <;> cases hfull
    decide
  rcases bind_eq_error_iff.1 hd with hscope | ⟨_, _, -, hd⟩
  · rw [(Variables.enter_eq_error_iff.1 (onVariables_eq_error_iff.1 hscope).1).2]
    decide
  · rw [(Flow.beginDefinition_eq_error_iff.1 (onFlow_eq_error_iff.1 hd).1).2]
    decide

/-- In a `Matched` store, `declareEnd` fails with no `internalError`: there is a scope to close. -/
theorem Matched.kind_ne_of_declareEnd (h : store.Matched)
    (hd : declareEnd tokens index store = .error (.ofFault fault) after) :
    fault.kind ≠ .internalError := by
  rcases bind_eq_error_iff.1 hd with halone | ⟨_, between, halone, hrest⟩
  · exact Keyword.external_checkAlone _ tokens fault (check_eq_error_iff.1 halone).1
  obtain ⟨-, rfl⟩ := check_eq_ok_iff.1 halone
  rcases bind_eq_error_iff.1 hrest with hend | ⟨name?, _, hend, hlast⟩
  · cases (takeFlow_eq_error_iff.1 hend).1
  obtain ⟨flow, hpop, rfl⟩ := takeFlow_eq_ok_iff.1 hend
  simp only [Except.ok.injEq, Flow.endDefinition] at hpop
  split at hpop
  · next name definitions hopen =>
    cases hpop
    rcases bind_eq_error_iff.1 hlast with hclose | ⟨_, _, hclose, hleave⟩
    · cases (onMethods_eq_error_iff.1 hclose).1
    obtain ⟨methods, -, rfl⟩ := onMethods_eq_ok_iff.1 hclose
    obtain ⟨hempty, -⟩ := Stack.pop_map_eq_error_iff.1
      (map_eq_error_iff.1 (onVariables_eq_error_iff.1 hleave).1)
    -- the definition that has been closed had a scope
    have hheight : between.flow.definitions.height = between.vars.scopes.height := h
    rw [between.flow.definitions.height_eq, Stack.pop_eq_ok_iff.1 hopen] at hheight
    have hnone : between.vars.scopes = .empty := hempty
    rw [hnone] at hheight
    cases hheight
  · cases hpop
    cases hlast

/-- In a `Matched` store, `declare` fails with no `internalError`. -/
theorem Matched.kind_ne_of_declare (h : store.Matched)
    (hd : Store.declare line index store = .error (.ofFault fault) after) :
    fault.kind ≠ .internalError := by
  cases hl : line.isEmpty with
  | true =>
    rw [Store.declare, if_pos hl] at hd
    cases hd
  | false =>
    rw [Store.declare, if_neg (by simp [hl])] at hd
    rcases bind_eq_error_iff.1 hd with hread | ⟨⟨command, tokens⟩, _, hread, hrest⟩
    · exact external_interpret hl fault (inspect_eq_error_iff.1 hread).1
    obtain ⟨-, rfl⟩ := inspect_eq_ok_iff.1 hread
    dsimp only at hrest
    split at hrest
    · exact kind_ne_of_declareVariable hrest
    · exact kind_ne_of_declareMethod hrest
    · exact h.kind_ne_of_declareEnd hrest
    · exact external_checkCommand _ _ _ fault (inspect_eq_error_iff.1 hrest).1

/-- `declareAll` fails at the first line on which `declare` fails, and at the place of that line. -/
theorem Matched.declareAll_error (h : store.Matched) {lines : List Line} {failure : Failure}
    (hd : declareAll lines index store = .error failure) :
    ∃ n line fault before after, lines[n]? = some line ∧
      declareAll (lines.take n) index store = .ok before ∧
      Store.declare line (index + UInt64.ofNat n) before = .error (.ofFault fault) after ∧
      fault.kind ≠ .internalError ∧
      failure = ⟨fault, some (.of (index + UInt64.ofNat n) line)⟩ := by
  -- on the lines, with the index of the first; a place is set for the line that fails and no other
  induction lines generalizing index store with
  | nil => cases hd
  | cons line rest ih =>
    rw [declareAll] at hd
    cases hline : Store.declare line index store with
    | error raised after =>
      obtain ⟨fault, rfl⟩ := unplaced_declare line index store raised after hline
      rw [hline] at hd
      cases hd
      have hindex : index + UInt64.ofNat 0 = index := UInt64.add_zero index
      rw [← hindex] at hline
      exact ⟨0, line, fault, store, after, rfl, rfl, hline, h.kind_ne_of_declare hline,
        by rw [hindex, Failure.annotate_ofFault]⟩
    | ok _ next =>
      rw [hline] at hd
      obtain ⟨n, found, fault, before, after, hfound, hbefore, hfails, hkind, rfl⟩ :=
        ih (h.declare hline) hd
      have hindex : index + 1 + UInt64.ofNat n = index + UInt64.ofNat (n + 1) := by
        rw [UInt64.ofNat_add, UInt64.add_comm (UInt64.ofNat n), ← UInt64.add_assoc]
        rfl
      rw [hindex] at hfails
      refine ⟨n + 1, found, fault, before, after, hfound, ?_, hfails, hkind, by rw [hindex]⟩
      rw [List.take_succ_cons, declareAll, hline]
      exact hbefore

end Store

/-! ## Places -/

/-- The report of the failure is not of an internal error, and it gives the number and the text of a
line of the program. -/
def Failure.Located (program : Program) (failure : Failure) : Prop :=
  failure.report.kind ≠ .internalError ∧
    ∃ k line, 1 ≤ k ∧ k ≤ program.size ∧ program.lines[k - 1]? = some line ∧
      failure.report.lineNumber = some k ∧ failure.report.line = Text.trim line.text

/-- A failure at a line of the program is `Located`. -/
theorem Failure.located_of_line? {program : Program} (hsize : program.size < UInt64.size)
    {a : Address} {line : Line} {fault : Fault} (hl : program.line? a = some line)
    (hk : fault.kind ≠ .internalError) :
    Failure.Located program ⟨fault, some (.of a line)⟩ := by
  have ha := Program.toNat_lt_of_line? hl
  refine ⟨hk, a.toNat + 1, line, Nat.le_add_left 1 _, ha, hl, ?_, rfl⟩
  show some a.number = some (a.toNat + 1)
  rw [Program.number_eq hsize ha]

/-- The failure of a check is `Located`, at the line that the dry run has come to. -/
theorem Program.located_of_check {program : Program} (hsize : program.size < UInt64.size)
    {failure : Failure} (hc : program.check = .error failure) :
    failure.Located program ∧ ∃ n line before after,
      Store.declareAll (program.lines.toList.take n) 0 .empty = .ok before ∧
        program.line? (UInt64.ofNat n) = some line ∧
        Store.declare line (UInt64.ofNat n) before = .error (.ofFault failure.fault) after ∧
        failure.place = some (.of (UInt64.ofNat n) line) := by
  have hstart : Store.empty.Matched := rfl
  obtain ⟨n, line, fault, before, after, hn, hbefore, hfails, hkind, rfl⟩ :=
    hstart.declareAll_error (map_eq_error_iff.1 hc)
  rw [UInt64.zero_add] at hfails ⊢
  rw [Array.getElem?_toList] at hn
  have hlt : n < program.size := (Array.getElem?_eq_some_iff.1 hn).1
  have hl : program.line? (UInt64.ofNat n) = some line := by
    rw [line?_ofNat (by omega), hn]
  exact ⟨Failure.located_of_line? hsize hl hkind, n, line, before, after, hbefore, hl, hfails, rfl⟩

namespace Engine

variable {program : Program} {interrupt : Nat → Bool} {fuel : Nat} {engine after : Engine}
  {line : Line} {a cursor : Address} {failure : Failure} {stop : Stop}

/-- `runFrom` that fails comes to a line that `Fails`. -/
theorem exists_fails_of_runFrom (h : engine.store.Regular 0)
    (hr : runFrom program fuel a engine = some (.error failure after)) :
    ∃ n b line before, Leads program n a engine b before ∧ before.store.Regular 0 ∧
      program.line? b = some line ∧ execute line b before = .error (failure.fault.stop b) after ∧
      failure.place = some (.of b line) := by
  have hstep : ∀ {line : Line} {b next : Address} {before after : Engine},
      program.line? b = some line →
      before.store.Regular 0 ∧ (∃ n, Leads program n a engine b before) →
      execute line b before = .ok next after →
      after.store.Regular 0 ∧ ∃ n, Leads program n a engine (next + 1) after := by
    rintro line b next before after hl ⟨hregular, n, hleads⟩ he
    obtain ⟨step, hx, -, -⟩ := execute_eq_ok_iff.1 he
    exact ⟨hregular.step hx, n + 1, hleads.trans (.of_execute hl he)⟩
  rcases runFrom_cases (P := fun b before => before.store.Regular 0 ∧
      ∃ n, Leads program n a engine b before) hstep ⟨h, 0, .refl⟩ hr with
    ⟨b, last, heq, -⟩ | ⟨b, line, before, last, fault, hl, ⟨hregular, n, hleads⟩, he, heq⟩
  · cases heq
  · cases heq
    exact ⟨n, b, line, before, hleads, hregular, hl, he, rfl⟩

/-- The failure of a run is `Located`, at the line that the run has come to. -/
theorem located_of_run (hsize : program.size < UInt64.size)
    (hr : run program fuel engine = some (.error failure after)) :
    failure.Located program ∧ ∃ n b line before, Leads program n 0 engine.start b before ∧
      program.line? b = some line ∧ execute line b before = .error (failure.fault.stop b) after ∧
      failure.place = some (.of b line) := by
  have hstart : engine.start.store.Regular 0 := .empty
  obtain ⟨n, b, line, before, hleads, hbefore, hl, he, hplace⟩ :=
    exists_fails_of_runFrom hstart hr
  refine ⟨?_, n, b, line, before, hleads, hl, he, hplace⟩
  have hkind := hbefore.stands.kind_ne_of_fails (execute_eq_stop_iff.1 he).1
  have hfailure : failure = ⟨failure.fault, some (.of b line)⟩ := by rw [← hplace]
  rw [hfailure]
  exact Failure.located_of_line? hsize hl hkind

/-- In a `Reachable` engine, a line raises a fault that is no `internalError` and has no place. -/
theorem Reachable.exists_fault_of_execute {tolerated : Fault → Prop}
    (h : Reachable tolerated engine) (he : Engine.execute line cursor engine = .error stop after) :
    ∃ fault, stop.failure = .ofFault fault ∧ fault.kind ≠ .internalError := by
  obtain ⟨lost, hr, -⟩ := h.regular
  obtain ⟨fault, rfl, hf, -⟩ := execute_eq_error_iff.1 he
  exact ⟨fault, rfl, hr.stands.kind_ne_of_fails hf⟩

/-- In a `Reachable` engine, `direct` ends with `internalError` only if the call that it makes
leaves the program. -/
theorem Reachable.leaves_of_direct {tolerated : Fault → Prop} (h : Reachable tolerated engine)
    (hd : Engine.direct program interrupt fuel line engine = some (.error failure after))
    (hk : failure.fault.kind = .internalError) :
    ∃ n next first b last,
      Engine.execute line (UInt64.ofNat program.size) engine = .ok next first ∧
        Underway program engine.store.flow.calls.height n next first b last ∧
        engine.store.flow.calls.height < last.store.flow.calls.height ∧
        program.line? (b + 1) = none := by
  rcases direct_cases hd with ⟨next, first, he, hf⟩ | ⟨fault, between, he, heq⟩
  · obtain ⟨n, b, last, hu, ⟨-, heq⟩ | ⟨hopen, hbreaks⟩⟩ := follow_ends hf
    · cases heq
    · cases hbreaks with
      | missing hl => exact ⟨n, next, first, b, last, he, hu, hopen, hl⟩
      | fails _ hfails =>
        -- the lines before it keep the stacks together, so this one has no internal error
        obtain ⟨lost, hr, -⟩ := (h.execute he).regular
        exact absurd hk
          ((hu.regular hr).stands.kind_ne_of_fails (execute_eq_stop_iff.1 hfails).1)
  · cases heq
    obtain ⟨other, hother, hkind⟩ := h.exists_fault_of_execute he
    cases hother
    exact absurd hk hkind

/-- **Errors are located and never internal.** Let each line have an address. If `run` or `check`
fails, then the failure is `Located`: it is not an `internalError` and names the number and the text
of a line of the program, the one on which `execute` or `declare` fails after the lines before it.
In every `Reachable` engine, `execute` fails with no `internalError` and without a line number, and
`direct` fails with `internalError` only if the program has no line where a call goes on. -/
theorem errors_located (hsize : program.size < UInt64.size) :
    (∀ fuel engine failure after, run program fuel engine = some (.error failure after) →
      failure.Located program ∧ ∃ n b line before, Leads program n 0 engine.start b before ∧
        program.line? b = some line ∧ execute line b before = .error (failure.fault.stop b) after ∧
        failure.place = some (.of b line)) ∧
    (∀ failure, program.check = .error failure →
      failure.Located program ∧ ∃ n line before after,
        Store.declareAll (program.lines.toList.take n) 0 .empty = .ok before ∧
          program.line? (UInt64.ofNat n) = some line ∧
          Store.declare line (UInt64.ofNat n) before = .error (.ofFault failure.fault) after ∧
          failure.place = some (.of (UInt64.ofNat n) line)) ∧
    ∀ engine, Reachable (fun _ => True) engine →
      (∀ line cursor stop after, execute line cursor engine = .error stop after →
        stop.failure.report.kind ≠ .internalError ∧ stop.failure.report.lineNumber = none) ∧
      ∀ interrupt fuel line failure after,
        direct program interrupt fuel line engine = some (.error failure after) →
        failure.report.kind = .internalError →
        ∃ n next first b last,
          execute line (UInt64.ofNat program.size) engine = .ok next first ∧
            Underway program engine.store.flow.calls.height n next first b last ∧
            engine.store.flow.calls.height < last.store.flow.calls.height ∧
            program.line? (b + 1) = none := by
  refine ⟨fun _ _ _ _ hr => located_of_run hsize hr,
    fun _ hc => Program.located_of_check hsize hc, fun engine h => ⟨?_, ?_⟩⟩
  · intro line cursor stop after he
    obtain ⟨fault, hfailure, hkind⟩ := h.exists_fault_of_execute he
    rw [hfailure]
    exact ⟨hkind, rfl⟩
  · intro interrupt fuel line failure after hd hk
    have hkind : failure.fault.kind = .internalError := by
      rw [← hk]
      unfold Failure.report
      cases failure.place <;> rfl
    exact h.leaves_of_direct hd hkind

/-- A loop whose last quotient has no value, and a circle without a size that is not come to. -/
def quotients : Program :=
  .parse "x = 2\nWHILE x > -1\n  x = x - 1\n  y = 5 / x \nENDWHILE\n CIRCLE 0\n"

/-- The run fails in the loop and the check at the circle. A method that is defined at the prompt
has no body there. -/
theorem errors_located_quotients :
    quotients.size < UInt64.size ∧
      (∃ failure after, run quotients 20 .initial = some (.error failure after) ∧
        failure.report.lineNumber = some 4 ∧ failure.report.line = "y = 5 / x" ∧
        failure.Located quotients) ∧
      (∃ failure, quotients.check = .error failure ∧ failure.report.lineNumber = some 6 ∧
        failure.report.line = "CIRCLE 0" ∧ failure.Located quotients) ∧
      ∃ engine, Reachable (fun _ => True) engine ∧
        (∃ stop after, execute (.ofText "f(1)") 0 engine = .error stop after ∧
          stop.failure.report.kind ≠ .internalError ∧ stop.failure.report.lineNumber = none) ∧
        ∃ failure after,
          direct quotients (fun _ => false) 2 (.ofText "f()") engine =
            some (.error failure after) ∧
          failure.report.kind = .internalError ∧
          ∃ n next first b last,
            execute (.ofText "f()") (UInt64.ofNat quotients.size) engine = .ok next first ∧
              Underway quotients engine.store.flow.calls.height n next first b last ∧
              engine.store.flow.calls.height < last.store.flow.calls.height ∧
              quotients.line? (b + 1) = none := by
  have hsize : quotients.size < UInt64.size := by decide +kernel
  obtain ⟨hrun, hcheck, hprompt⟩ := errors_located hsize
  refine ⟨hsize, ?_, ?_, ?_⟩
  · have hfails : (run quotients 20 .initial).bind error? =
        some ⟨.divisionByZero, some (.of 3 (.ofText "  y = 5 / x "))⟩ := by
      decide +kernel
    obtain ⟨outcome, houtcome, herror⟩ := Option.bind_eq_some_iff.1 hfails
    obtain ⟨after, rfl⟩ := error?_eq_some_iff.1 herror
    exact ⟨_, after, houtcome, by decide +kernel, by decide +kernel,
      (hrun 20 .initial _ after houtcome).1⟩
  · have hfails : quotients.check =
        .error ⟨.notPositive .radius, some (.of 5 (.ofText " CIRCLE 0"))⟩ := by
      decide +kernel
    exact ⟨_, hfails, by decide +kernel, by decide +kernel, (hcheck _ hfails).1⟩
  · have htyped : ((direct quotients (fun _ => false) 1 (.ofText "METHOD f()") .initial).bind
        fun opened => (direct quotients (fun _ => false) 1 (.ofText "ENDMETHOD") opened.engine).bind
          fun closed =>
            (direct quotients (fun _ => false) 2 (.ofText "f()") closed.engine).map fun outcome =>
              (error? (execute (.ofText "f(1)") 0 closed.engine), error? outcome)) =
        some (some (Fault.argumentCount.stop 0), some ⟨.bodyMissing, none⟩) := by
      decide +kernel
    obtain ⟨opened, hopened, htyped⟩ := Option.bind_eq_some_iff.1 htyped
    obtain ⟨closed, hclosed, htyped⟩ := Option.bind_eq_some_iff.1 htyped
    obtain ⟨outcome, houtcome, hends⟩ := Option.map_eq_some_iff.1 htyped
    obtain ⟨hrefused, hmissing⟩ := Prod.mk.inj hends
    obtain ⟨refused, hrefused⟩ := error?_eq_some_iff.1 hrefused
    obtain ⟨after, rfl⟩ := error?_eq_some_iff.1 hmissing
    have hreachable : Reachable (fun _ => True) closed.engine :=
      .direct (.direct .initial hopened) hclosed
    obtain ⟨hline, hcall⟩ := hprompt closed.engine hreachable
    exact ⟨closed.engine, hreachable, ⟨_, refused, hrefused, hline _ _ _ refused hrefused⟩, _,
      after,
      houtcome, rfl, hcall _ _ _ _ after houtcome rfl⟩

end Engine

end Sketch
