import Sketch.Proofs.Reachable
import Sketch.Proofs.Tokens

/-!
# Checked programs

A program that passes its check fails at run time only for reasons that its values and its path
decide (`Program.run_error_of_check`). The dry run sees every line once, in the order of the text,
with other values bound; a run comes to the lines in any order and any number of times.

Three facts connect the two. Both keep names free and their tables declared: every method in them
has its header in the program (`Store.Faithful`). In a checked program no two lines define one name
(`header_unique`), so both tables agree on the parameters of a method. And what a line asks for does
not depend on the values of the variables (`Store.classify_of_checked`, `Proofs.Tokens`).
-/

namespace Sketch

/-- The signature of a line that is the header of a method. -/
def Line.header? (line : Line) : Option Bracketed :=
  match Command.ofTokens line.tokens, line.tokens with
  | .ok (.keyword (.opens .method)), [_, word] => Bracketed.parse? word
  | _, _ => none

/-! ## Tables with headers in the program -/

namespace Methods

variable {program : Program} {methods after : Methods} {name : String}

/-- Every method of the table has its header in the program. -/
def Declared (program : Program) (methods : Methods) : Prop :=
  ∀ name method, methods.find? name = some method →
    ∃ line, program.line? method.start = some line ∧
      line.header? = some ⟨name, method.parameters⟩

/-- `Declared` is kept when a method is put in that has its header in the program. -/
theorem Declared.insert (h : methods.Declared program) {entry : Method} {line : Line}
    (hline : program.line? entry.start = some line)
    (hheader : line.header? = some ⟨name, entry.parameters⟩)
    (hi : methods.insert name entry = .ok after) : after.Declared program := by
  intro other method hm
  rw [find?_insert hi] at hm
  split at hm
  · next heq =>
    cases hm
    exact ⟨line, hline, heq ▸ hheader⟩
  · exact h other method hm

/-- `Declared` is kept when the end of a method is noted. -/
theorem Declared.close (h : methods.Declared program) (name : String) (finish : Address) :
    (methods.close name finish).Declared program := by
  intro other method hm
  rw [find?_close] at hm
  obtain ⟨old, hold, rfl⟩ := Option.map_eq_some_iff.1 hm
  have := h other old hold
  split <;> exact this

end Methods

namespace Store

variable {program : Program} {store after : Store} {line : Line} {cursor next : Address}
  {tokens : List String} {command : Command}

/-- Names are free, and the methods are those of the program. -/
structure Faithful (program : Program) (store : Store) : Prop where
  named : store.Named
  declared : store.methods.Declared program

/-- The empty store is `Faithful`. -/
theorem Faithful.empty (program : Program) : Faithful program .empty :=
  ⟨.empty, fun name method hm => by simp [Store.empty, Methods.empty, Methods.find?] at hm⟩

/-- In a `Named` store, the signature that `readHeader` gives is the `header?` of the line. -/
theorem Named.header?_eq (h : store.Named) {signature : Bracketed}
    (hi : store.interpret line.tokens = .ok (.keyword (.opens .method), tokens))
    (hr : store.readHeader tokens cursor = .ok signature) : line.header? = some signature := by
  obtain ⟨hc, hs⟩ := interpret_eq_ok_iff.1 hi
  obtain ⟨⟨first, word, rfl, hp⟩, -⟩ := readHeader_eq_ok_iff.1 hr
  have hkeyword := h.classify_eq_keyword_iff.1 hc
  have htokens := eq_of_substitute_header hs hp
  rw [htokens] at hkeyword
  simp only [Line.header?, htokens, hkeyword]
  exact hp

/-- `Faithful` is kept when the end of a definition is noted. -/
theorem Faithful.closed (h : Faithful program store) (cursor : Address) :
    Faithful program (store.closed cursor) := by
  refine ⟨h.named.closed cursor, ?_⟩
  unfold Store.closed
  split
  · exact h.declared.close _ cursor
  · exact h.declared

/-- A command that passes `checkAt` in one `Named` store is the command of the line in every other.
-/
theorem classify_of_checked {dry : Store} (hd : dry.Named) (h : store.Named)
    (hi : dry.interpret line.tokens = .ok (command, tokens))
    (hc : dry.checkAt command tokens cursor = .ok ()) :
    store.classify line.tokens = .ok command := by
  obtain ⟨hclass, hs⟩ := interpret_eq_ok_iff.1 hi
  have hfixed : Command.ofTokens line.tokens = .ok command := by
    rcases hd.classify_cases line.tokens with heq | ⟨heq, fault, hfault⟩
    · rw [← heq, hclass]
    · -- a bound first token makes an assignment, and one that parses has the shape of one
      obtain rfl : Command.assignment = command := Except.ok.inj (heq.symm.trans hclass)
      obtain ⟨assignment, hp, -⟩ := map_eq_ok_iff.1 hc
      have hshape := hasAssignmentShape_of_parse hs hp
      cases ht : line.tokens with
      | nil => simp [ht, Command.hasAssignmentShape] at hshape
      | cons first rest =>
        rw [ht] at hshape
        simp [Command.ofTokens, Command.classify, hshape]
  rcases h.classify_cases line.tokens with heq | ⟨-, fault, hfault⟩
  · rw [heq, hfixed]
  · rw [hfixed] at hfault
    cases hfault

/-- A line that `Leaves` a call leaves the methods alone. -/
theorem methods_of_leaves (hl : Leaves cursor store next after) :
    after.methods = store.methods := by
  cases hl <;> rfl

/-- `Faithful` is kept by a line of the program that `Executes`. -/
theorem Faithful.step {result : Step} (h : Faithful program store)
    (hline : program.line? cursor = some line) (he : Executes line cursor store result after) :
    Faithful program after := by
  refine ⟨h.named.step he, ?_⟩
  cases he with
  | blank _ => exact h.declared
  | skips _ _ he =>
    cases he with
    | @endsDefinition frames _ _ _ _ hl =>
      have hbelow : Faithful program { store with flow.frames := frames } :=
        ⟨⟨h.named.vars, h.named.methods⟩, h.declared⟩
      rw [methods_of_leaves hl]
      exact (hbelow.closed cursor).declared
    | _ => exact h.declared
  | performs _ _ hi he =>
    cases he with
    | defines hr hm _ _ =>
      rcases register_cases hr hm with ⟨_, -, -, hsame⟩ | ⟨-, hinsert⟩
      · exact hsame ▸ h.declared
      · exact h.declared.insert hline (h.named.header?_eq hi hr) hinsert
    | closesMethod _ hl =>
      rw [methods_of_leaves hl]
      exact h.declared
    | _ => exact h.declared

/-! ## The dry run -/

open Sketch.Action

/-- What a dry run records of a line. -/
inductive Records (index : Address) (store : Store) : Command → List String → Store → Prop where
  | nothing {command : Command} {tokens : List String}
      (hc : command ≠ .keyword (.opens .method)) : Records index store command tokens store
  | binding {tokens : List String} {assignment : Assignment} {value : Number} {vars : Variables}
      (hp : Assignment.parse tokens = .ok assignment)
      (hv : store.vars.store assignment.name value = .ok vars) :
      Records index store .assignment tokens { store with vars }
  | header {tokens : List String} {signature : Bracketed} {methods : Methods}
      (hr : store.readHeader tokens index = .ok signature)
      (hm : store.methods.insert signature.head ⟨signature.items, index, none⟩ = .ok methods) :
      Records index store (.keyword (.opens .method)) tokens
        { store with
          methods
          vars.scopes := store.vars.scopes.cons
            (Scope.ofBindings (signature.items.map fun name => (name, 1)))
          flow.definitions := store.flow.definitions.cons signature.head }
  | closer {tokens : List String} {name : String} {definitions : Stack String} {scope : Scope}
      {scopes : Stack Scope} (hd : store.flow.definitions = definitions.cons name)
      (hs : store.vars.scopes = scopes.cons scope) :
      Records index store (.keyword (.closes .method)) tokens
        { store with
          flow.definitions := definitions
          methods := store.methods.close name index
          vars.scopes := scopes }

/-- An assignment that passes `declareVariable` passes `checkAt` and `Records` a binding. -/
theorem declareVariable_eq_ok {index : Address}
    (h : declareVariable tokens store = .ok () after) :
    store.checkAt .assignment tokens index = .ok () ∧
      Records index store .assignment tokens after := by
  obtain ⟨assignment, _, hparse, hrest⟩ := bind_eq_ok_iff.1 h
  obtain ⟨hp, rfl⟩ := check_eq_ok_iff.1 hparse
  obtain ⟨value, _, hinspect, hstore⟩ := bind_eq_ok_iff.1 hrest
  obtain ⟨-, rfl⟩ := inspect_eq_ok_iff.1 hinspect
  obtain ⟨vars, hv, rfl⟩ := onVariables_eq_ok_iff.1 hstore
  exact ⟨map_eq_ok_iff.2 ⟨assignment, hp, rfl⟩, .binding hp hv⟩

/-- A header that passes `declareMethod` passes `checkAt` and `Records` a method. -/
theorem declareMethod_eq_ok {index : Address}
    (h : declareMethod tokens index store = .ok () after) :
    store.checkAt (.keyword (.opens .method)) tokens index = .ok () ∧
      Records index store (.keyword (.opens .method)) tokens after := by
  obtain ⟨signature, _, hread, hrest⟩ := bind_eq_ok_iff.1 h
  obtain ⟨hr, rfl⟩ := inspect_eq_ok_iff.1 hread
  obtain ⟨_, _, hinsert, hrest⟩ := bind_eq_ok_iff.1 hrest
  obtain ⟨methods, hm, rfl⟩ := onMethods_eq_ok_iff.1 hinsert
  obtain ⟨_, _, henter, hbegin⟩ := bind_eq_ok_iff.1 hrest
  obtain ⟨vars, hv, rfl⟩ := onVariables_eq_ok_iff.1 henter
  obtain ⟨-, rfl⟩ := Variables.enter_eq_ok_iff.1 hv
  obtain ⟨flow, hf, rfl⟩ := onFlow_eq_ok_iff.1 hbegin
  obtain ⟨-, rfl⟩ := Flow.beginDefinition_eq_ok_iff.1 hf
  exact ⟨map_eq_ok_iff.2 ⟨signature, hr, rfl⟩, .header hr hm⟩

/-- A closer that passes `declareEnd` passes `checkAt` and `Records` the end of what a header
opened, if one did. -/
theorem declareEnd_eq_ok {index : Address} (h : declareEnd tokens index store = .ok () after) :
    store.checkAt (.keyword (.closes .method)) tokens index = .ok () ∧
      Records index store (.keyword (.closes .method)) tokens after := by
  obtain ⟨_, _, halone, hrest⟩ := bind_eq_ok_iff.1 h
  obtain ⟨ha, rfl⟩ := check_eq_ok_iff.1 halone
  refine ⟨ha, ?_⟩
  obtain ⟨name?, _, hend, hrest⟩ := bind_eq_ok_iff.1 hrest
  obtain ⟨flow, hd, rfl⟩ := takeFlow_eq_ok_iff.1 hend
  simp only [Except.ok.injEq, Flow.endDefinition] at hd
  split at hd
  · next method definitions hpop =>
    cases hd
    obtain ⟨_, _, hclose, hleave⟩ := bind_eq_ok_iff.1 hrest
    obtain ⟨methods, hm, rfl⟩ := onMethods_eq_ok_iff.1 hclose
    cases hm
    obtain ⟨vars, hv, rfl⟩ := onVariables_eq_ok_iff.1 hleave
    obtain ⟨⟨scope, _⟩, hl, rfl⟩ := map_eq_ok_iff.1 hv
    obtain ⟨scopes, hs, rfl⟩ := Variables.leave_eq_ok_iff.1 hl
    exact .closer (Stack.ext_entries (Stack.pop_eq_ok_iff.1 hpop)) hs
  · cases hd
    obtain ⟨-, rfl⟩ := pure_eq_ok_iff.1 hrest
    exact .nothing (by simp)

/-- `declareEnd` sets no place. -/
theorem unplaced_declareEnd (tokens : List String) (index : Address) :
    Unplaced (declareEnd tokens index) := by
  have hend : Unplaced endDefinition := by
    unfold endDefinition
    exact unplaced_attempt _
  refine .bind (unplaced_attempt _) fun _ => hend.bind fun name? => ?_
  cases name? with
  | none => exact unplaced_pure ()
  | some name => exact .bind (unplaced_attempt _) fun _ => unplaced_attempt _

/-- `declare` sets no place. -/
theorem unplaced_declare (line : Line) (index : Address) : Unplaced (declare line index) := by
  unfold declare
  split
  · exact unplaced_pure ()
  · refine .bind (unplaced_attempt _) fun (command, tokens) => ?_
    dsimp only
    split
    · exact .bind (unplaced_attempt _) fun _ => .bind (unplaced_attempt _) fun _ =>
        unplaced_attempt _
    · exact .bind (unplaced_attempt _) fun _ => .bind (unplaced_attempt _) fun _ =>
        .bind (unplaced_attempt _) fun _ => unplaced_attempt _
    · exact unplaced_declareEnd tokens index
    · exact unplaced_attempt _

/-- A line that passes `declare` has a command that passes `checkAt`, and what is recorded of it is
in `Records`. -/
theorem declare_eq_ok {index : Address} (hl : line.isEmpty = false)
    (h : declare line index store = .ok () after) :
    ∃ command tokens, store.interpret line.tokens = .ok (command, tokens) ∧
      store.checkAt command tokens index = .ok () ∧
      Records index store command tokens after := by
  rw [declare, if_neg (by simp [hl])] at h
  obtain ⟨⟨command, tokens⟩, _, hinterpret, hrest⟩ := bind_eq_ok_iff.1 h
  obtain ⟨hi, rfl⟩ := inspect_eq_ok_iff.1 hinterpret
  refine ⟨command, tokens, hi, ?_⟩
  dsimp only at hrest
  split at hrest
  · exact declareVariable_eq_ok hrest
  · exact declareMethod_eq_ok hrest
  · exact declareEnd_eq_ok hrest
  · next hm _ =>
    obtain ⟨hc, rfl⟩ := inspect_eq_ok_iff.1 hrest
    exact ⟨(checkAt_eq_checkCommand hm).trans hc, .nothing hm⟩

/-- In the dry run the parameters are bound and nothing else. -/
theorem mem_parameters_of_mem_presumed {parameters : List String} {name : String}
    (h : name ∈ Scope.ofBindings (parameters.map fun parameter => (parameter, 1))) :
    name ∈ parameters := by
  rw [Scope.ofBindings, Std.ExtTreeMap.mem_ofList, List.contains_iff_mem] at h
  simpa using h

/-- `Faithful` is kept by what a dry run records. -/
theorem Faithful.records {index : Address} (h : Faithful program store)
    (hline : program.line? index = some line)
    (hi : store.interpret line.tokens = .ok (command, tokens))
    (hr : Records index store command tokens after) : Faithful program after := by
  cases hr with
  | nothing _ => exact h
  | binding hp hv =>
    obtain ⟨_, _, -, hfree, -⟩ := Assignment.parse_eq_ok_iff.1 hp
    exact ⟨⟨h.named.vars.store hfree hv, h.named.methods⟩, h.declared⟩
  | @header _ signature methods hr hm =>
    obtain ⟨-, -, hparams, -⟩ := readHeader_eq_ok_iff.1 hr
    have hfree := isFree_of_checkParameters hparams
    have hscope := h.named.vars.enter fun name hmem =>
      hfree name (mem_parameters_of_mem_presumed hmem)
    exact ⟨⟨hscope, h.named.methods.insert hfree hm⟩,
      h.declared.insert hline (h.named.header?_eq hi hr) hm⟩
  | @closer _ name _ _ _ _ hs =>
    exact ⟨⟨h.named.vars.leave hs, h.named.methods.close name index⟩,
      h.declared.close name index⟩

/-- `Records` keeps the address of a method. -/
theorem Records.start_eq {index : Address} (hr : Records index store command tokens after)
    {name : String} {method : Method} (hm : store.methods.find? name = some method) :
    ∃ other, after.methods.find? name = some other ∧ other.start = method.start := by
  cases hr with
  | nothing _ => exact ⟨method, hm, rfl⟩
  | binding _ _ => exact ⟨method, hm, rfl⟩
  | @header _ signature methods hr hi =>
    show ∃ other, methods.find? name = some other ∧ other.start = method.start
    rw [Methods.find?_insert hi]
    split
    · next heq =>
      refine ⟨_, rfl, ?_⟩
      obtain ⟨-, -, -, hundef⟩ := readHeader_eq_ok_iff.1 hr
      exact (checkUndefined_eq_ok_iff.1 hundef method (heq ▸ hm)).symm
    · exact ⟨method, hm, rfl⟩
  | @closer _ closed _ _ _ _ _ =>
    refine ⟨_, by rw [Methods.find?_close, hm]; rfl, ?_⟩
    split <;> rfl

/-- `declareAll` of a list of lines in two parts. -/
theorem declareAll_append (xs ys : List Line) (index : Address) (store : Store) :
    declareAll (xs ++ ys) index store =
      declareAll xs index store >>= declareAll ys (index + UInt64.ofNat xs.length) := by
  induction xs generalizing index store with
  | nil => simp [declareAll, bind, Except.bind]
  | cons line rest ih =>
    rw [List.cons_append, declareAll, declareAll]
    cases hd : declare line index store with
    | error fault between => rfl
    | ok _ between =>
      dsimp only
      rw [ih, List.length_cons, UInt64.ofNat_add, UInt64.add_assoc,
        UInt64.add_comm (UInt64.ofNat rest.length)]
      rfl

end Store

/-! ## A checked program -/

namespace Program

variable {program : Program} {store : Store} {line : Line} {a : Address} {n : Nat}

/-- The store of the dry run after the first `n` lines. -/
def Dry (program : Program) (n : Nat) (store : Store) : Prop :=
  Store.declareAll (program.lines.toList.take n) 0 .empty = .ok store

/-- The dry run of a program that passes `check` comes to each of its lines (`Dry`). -/
theorem exists_dry (hc : program.check = .ok ()) (n : Nat) : ∃ store, Dry program n store := by
  obtain ⟨final, hall, -⟩ := map_eq_ok_iff.1 hc
  rw [← List.take_append_drop n program.lines.toList, Store.declareAll_append] at hall
  obtain ⟨store, hs, -⟩ := bind_ok_iff.1 hall
  exact ⟨store, hs⟩

/-- In a program that passes `check`, every line passes `declare` in the store that the lines before
it leave. -/
theorem Dry.declare (hc : program.check = .ok ()) (hl : program.lines[n]? = some line)
    (hd : Dry program n store) :
    ∃ after, Store.declare line (UInt64.ofNat n) store = .ok () after ∧
      Dry program (n + 1) after := by
  have hn : n < program.lines.toList.length := by
    have := (Array.getElem?_eq_some_iff.1 hl).1
    simpa using this
  have htake : program.lines.toList.take (n + 1) = program.lines.toList.take n ++ [line] := by
    rw [List.take_add_one, Array.getElem?_toList, hl]
    rfl
  obtain ⟨after, hafter⟩ := exists_dry hc (n + 1)
  refine ⟨after, ?_, hafter⟩
  unfold Dry at hd hafter
  rw [htake, Store.declareAll_append, hd] at hafter
  have hlast : Store.declareAll [line] (0 + UInt64.ofNat (program.lines.toList.take n).length)
      store = .ok after := hafter
  rw [List.length_take_of_le (Nat.le_of_lt hn), UInt64.zero_add, Store.declareAll] at hlast
  cases hdecl : Store.declare line (UInt64.ofNat n) store with
  | error fault between =>
    rw [hdecl] at hlast
    cases hlast
  | ok u between =>
    rw [hdecl] at hlast
    cases hlast
    rfl

/-- The dry run comes past a line by passing it, or it is past the end. -/
theorem Dry.succ_cases (hc : program.check = .ok ()) (hd : Dry program (n + 1) store) :
    Dry program n store ∨ ∃ line before, program.lines[n]? = some line ∧ Dry program n before ∧
      Store.declare line (UInt64.ofNat n) before = .ok () store := by
  cases hl : program.lines[n]? with
  | none =>
    unfold Dry at hd ⊢
    rw [List.take_add_one, Array.getElem?_toList, hl] at hd
    exact .inl (by simpa using hd)
  | some line =>
    obtain ⟨before, hb⟩ := exists_dry hc n
    obtain ⟨after, hdecl, ha⟩ := hb.declare hc hl
    obtain rfl : store = after := Except.ok.inj (hd.symm.trans ha)
    exact .inr ⟨line, before, rfl, hb, hdecl⟩

/-- The stores of a `Dry` run are `Faithful`. -/
theorem Dry.faithful (hc : program.check = .ok ()) (hn : n ≤ UInt64.size)
    (hd : Dry program n store) : store.Faithful program := by
  induction n generalizing store with
  | zero =>
    obtain rfl : Store.empty = store := Except.ok.inj hd
    exact .empty program
  | succ n ih =>
    rcases hd.succ_cases hc with hd | ⟨line, before, hl, hb, hdecl⟩
    · exact ih (by omega) hd
    · have hbefore := ih (by omega) hb
      cases hempty : line.isEmpty with
      | true =>
        rw [Store.declare, if_pos hempty] at hdecl
        cases hdecl
        exact hbefore
      | false =>
        obtain ⟨command, tokens, hi, -, hr⟩ := Store.declare_eq_ok hempty hdecl
        exact hbefore.records (by rw [line?_ofNat (by omega), hl]) hi hr

/-- Once a method is in the table of a `Dry` run, it keeps the address of its header. -/
theorem Dry.start_eq (hc : program.check = .ok ()) {later : Store} {m : Nat} (hle : n ≤ m)
    (hd : Dry program n store) (hlater : Dry program m later) {name : String} {method : Method}
    (hm : store.methods.find? name = some method) :
    ∃ other, later.methods.find? name = some other ∧ other.start = method.start := by
  induction hle generalizing later with
  | refl =>
    obtain rfl : store = later := Except.ok.inj (hd.symm.trans hlater)
    exact ⟨method, hm, rfl⟩
  | step _ ih =>
    rcases hlater.succ_cases hc with hlater | ⟨line, before, -, hb, hdecl⟩
    · exact ih hlater
    · obtain ⟨other, hother, hstart⟩ := ih hb
      cases hempty : line.isEmpty with
      | true =>
        rw [Store.declare, if_pos hempty] at hdecl
        cases hdecl
        exact ⟨other, hother, hstart⟩
      | false =>
        obtain ⟨_, _, -, -, hr⟩ := Store.declare_eq_ok hempty hdecl
        obtain ⟨last, hlast, hsame⟩ := hr.start_eq hother
        exact ⟨last, hlast, hsame.trans hstart⟩

/-- The `Dry` run of a line of the program: it meets a `Faithful` store, has a command there, and
passes `checkAt`. -/
theorem exists_dry_line (hc : program.check = .ok ()) (hl : program.line? a = some line)
    (hne : line.isEmpty = false) :
    ∃ store after command tokens, Dry program a.toNat store ∧ Dry program (a.toNat + 1) after ∧
      store.Faithful program ∧ store.interpret line.tokens = .ok (command, tokens) ∧
      store.checkAt command tokens a = .ok () ∧ Store.Records a store command tokens after := by
  obtain ⟨store, hd⟩ := exists_dry hc a.toNat
  obtain ⟨after, hdecl, hafter⟩ := hd.declare hc hl
  rw [UInt64.ofNat_toNat] at hdecl
  obtain ⟨command, tokens, hi, hcheck, hr⟩ := Store.declare_eq_ok hne hdecl
  exact ⟨store, after, command, tokens, hd, hafter,
    hd.faithful hc (Nat.le_of_lt a.toNat_lt_size), hi, hcheck, hr⟩

/-- Where the `Dry` run comes to a header, no other line has defined its name, and afterwards the
header has. -/
theorem exists_dry_header (hc : program.check = .ok ()) (hl : program.line? a = some line)
    {signature : Bracketed} (hh : line.header? = some signature) :
    ∃ store after, Dry program a.toNat store ∧ Dry program (a.toNat + 1) after ∧
      (∀ method, store.methods.find? signature.head = some method → method.start = a) ∧
      ∃ method, after.methods.find? signature.head = some method ∧ method.start = a := by
  have hfixed : Command.ofTokens line.tokens = .ok (.keyword (.opens .method)) := by
    unfold Line.header? at hh
    split at hh
    · next ho _ => exact ho
    · cases hh
  obtain ⟨store, after, command, tokens, hd, hafter, hf, hi, -, hr⟩ :=
    exists_dry_line hc hl (Line.isEmpty_of_classify hfixed)
  obtain rfl : command = .keyword (.opens .method) := by
    have hclass := (Store.interpret_eq_ok_iff.1 hi).1
    rw [hf.named.classify_eq_keyword_iff.2 hfixed] at hclass
    exact (Except.ok.inj hclass).symm
  refine ⟨store, after, hd, hafter, ?_⟩
  cases hr with
  | nothing hne => exact absurd rfl hne
  | @header _ found methods hr hm =>
    obtain rfl : found = signature :=
      Option.some.inj ((hf.named.header?_eq hi hr).symm.trans hh)
    obtain ⟨-, -, -, hundef⟩ := Store.readHeader_eq_ok_iff.1 hr
    exact ⟨Store.checkUndefined_eq_ok_iff.1 hundef, _,
      by rw [Methods.find?_insert hm, if_pos rfl], rfl⟩

/-- In a program that passes `check`, one line defines a name. -/
theorem header_unique (hc : program.check = .ok ()) {b : Address} {other : Line}
    {signature : Bracketed} {parameters : List String} (ha : program.line? a = some line)
    (hb : program.line? b = some other) (hh : line.header? = some signature)
    (hh' : other.header? = some ⟨signature.head, parameters⟩) : a = b := by
  obtain ⟨before, after, hbefore, hafter, hfirst, method, hm, hstart⟩ := exists_dry_header hc ha hh
  obtain ⟨before', after', hbefore', hafter', hfirst', method', hm', hstart'⟩ :=
    exists_dry_header hc hb hh'
  -- the dry run meets the later of two headers with the earlier one in its table
  rcases Nat.lt_trichotomy a.toNat b.toNat with hlt | heq | hlt
  · obtain ⟨entry, hentry, hsame⟩ := hafter.start_eq hc hlt hbefore' hm
    rw [← hstart, ← hsame]
    exact hfirst' entry hentry
  · exact UInt64.toNat_inj.1 heq
  · obtain ⟨entry, hentry, hsame⟩ := hafter'.start_eq hc hlt hbefore hm'
    rw [← hstart', ← hsame]
    exact (hfirst entry hentry).symm

end Program

/-! ## Faults at run time -/

/-- The faults that the values and the path of a run decide. -/
def Fault.isDynamic : Fault → Bool
  | .undefinedVariable _ | .undefinedMethod _ | .notPositive _ | .overflow | .divisionByZero
  | .full _ => true
  | _ => false

/-- The faults that come up only after a line has passed all its checks. -/
def Fault.isLate : Fault → Bool
  | .overflow | .divisionByZero | .full _ => true
  | _ => false

/-- A fault that `isLate` is dynamic (`isDynamic`). -/
theorem Fault.isDynamic_of_isLate {fault : Fault} (h : fault.isLate = true) :
    fault.isDynamic = true := by
  cases fault with
  | overflow => rfl
  | divisionByZero => rfl
  | full bound => rfl
  | _ => cases h

/-- The faults of `evaluate` are late (`isLate`). -/
theorem Assignment.isLate_of_evaluate {assignment : Assignment} {fault : Fault}
    (h : assignment.evaluate = .error fault) : fault.isLate = true := by
  unfold evaluate at h
  split at h
  · cases h
  · unfold Operator.apply at h
    split at h
    · cases h
      rfl
    · split at h <;> cases h
      rfl

namespace Store

variable {program : Program} {store dry after : Store} {line : Line} {cursor : Address}
  {tokens xs ys : List String} {command : Command} {fault : Fault}

/-- Two `Faithful` tables of a program that passes `check` agree on the parameters of a method. -/
theorem parameters_eq (hc : program.check = .ok ()) (hd : dry.Faithful program)
    (h : store.Faithful program) {name : String} {first second : Method}
    (hf : dry.methods.find? name = some first) (hs : store.methods.find? name = some second) :
    first.parameters = second.parameters := by
  obtain ⟨line, hl, hh⟩ := hd.declared name first hf
  obtain ⟨other, ho, hh'⟩ := h.declared name second hs
  have hstart := Program.header_unique hc hl ho hh hh'
  rw [hstart, ho, Option.some.injEq] at hl
  subst hl
  rw [hh, Option.some.injEq, Bracketed.mk.injEq] at hh'
  exact hh'.2

/-- A call of a checked program can be read unless the method or a value is missing: the fault is
`undefinedMethod` or `undefinedVariable`. -/
theorem isDynamic_of_readCall (hc : program.check = .ok ()) (hd : dry.Faithful program)
    (h : store.Faithful program) {first : String} {request : Request}
    (hx : dry.readCall (first :: xs) = .ok request)
    (hy : store.readCall (first :: ys) = .error fault) : fault.isDynamic = true := by
  obtain ⟨call, known, -, hcall, hm, hlength, -⟩ := readCall_eq_ok_iff.1 hx
  have hcall' : (first :: ys).head?.bind Bracketed.parse? = some call := hcall
  unfold readCall at hy
  rw [hcall'] at hy
  dsimp only at hy
  split at hy
  · cases hy
    rfl
  · next method hfind =>
    rw [parameters_eq hc hd h hm hfind] at hlength
    rw [if_pos hlength] at hy
    rcases bind_error_iff.1 hy with hy | ⟨_, -, hy⟩
    · obtain ⟨token, -, ht⟩ := exists_of_mapM_eq_error hy
      obtain ⟨name, rfl⟩ := resolve_eq_error ht
      rfl
    · cases hy

/-- `readHeader` reads a header of a program that passes `check` whenever a run comes to it. -/
theorem exists_readHeader (hc : program.check = .ok ()) (hd : dry.Faithful program)
    (h : store.Faithful program) (hline : program.line? cursor = some line) {first : String}
    {signature : Bracketed}
    (hi : dry.interpret line.tokens = .ok (.keyword (.opens .method), first :: xs))
    (hx : dry.readHeader (first :: xs) cursor = .ok signature) (hxy : List.Forall₂ Alike xs ys) :
    store.readHeader (first :: ys) cursor = .ok signature := by
  have hheader := hd.named.header?_eq hi hx
  obtain ⟨⟨_, word, heq, hp⟩, hname, hparams, -⟩ := readHeader_eq_ok_iff.1 hx
  simp only [List.cons.injEq] at heq
  obtain ⟨rfl, rfl⟩ := heq
  obtain ⟨word', _, hword, hnil, rfl⟩ := List.forall₂_cons_left_iff.1 hxy
  obtain rfl := List.forall₂_nil_left_iff.1 hnil
  obtain rfl := hword.eq_of_not_isLiteral (Bracketed.not_isLiteral hp)
  refine readHeader_eq_ok_iff.2 ⟨⟨_, _, rfl, hp⟩, hname, hparams, ?_⟩
  -- a method of this name in the table has its header in the program, and that is this line
  refine checkUndefined_eq_ok_iff.2 fun method hm => ?_
  obtain ⟨other, ho, hh⟩ := h.declared _ method hm
  exact (Program.header_unique hc hline ho hheader hh).symm

/-- `checkAt` refuses a line of a program that passes `check` only with a fault that `isDynamic`. -/
theorem isDynamic_of_checkAt (hc : program.check = .ok ()) (hd : dry.Faithful program)
    (h : store.Faithful program) (hline : program.line? cursor = some line)
    (hi : dry.interpret line.tokens = .ok (command, xs))
    (hx : dry.checkAt command xs cursor = .ok ())
    (hs : store.substitute command line.tokens = .ok ys)
    (hy : store.checkAt command ys cursor = .error fault) : fault.isDynamic = true := by
  obtain ⟨hclass, hsub⟩ := interpret_eq_ok_iff.1 hi
  cases ht : line.tokens with
  | nil =>
    rw [ht] at hclass
    cases hclass
  | cons first rest =>
    rw [ht] at hsub hs
    -- both runs read the same line, with other numbers in the place of its variables
    obtain ⟨xs, ys, rfl, rfl, halike, hsame⟩ := substitute_alike hsub hs
    cases command with
    | assignment =>
      obtain ⟨_, hp, -⟩ := map_eq_ok_iff.1 hx
      obtain ⟨_, hp'⟩ := Assignment.parse_of_alike hp halike
      rw [map_eq_error_iff.1 hy] at hp'
      cases hp'
    | call =>
      obtain ⟨_, hr, -⟩ := map_eq_ok_iff.1 hx
      exact isDynamic_of_readCall hc hd h hr (map_eq_error_iff.1 hy)
    | keyword keyword =>
      rcases keyword with tool | construct | construct
      · obtain ⟨_, hp, -⟩ := map_eq_ok_iff.1 hx
        have hfail : Instruction.parse tool ys = .error fault := map_eq_error_iff.1 hy
        rcases Instruction.passes_of_alike hp halike hsame with ⟨_, hok⟩ | ⟨measure, hsize⟩
        · rw [hfail] at hok
          cases hok
        · rw [hfail] at hsize
          cases hsize
          rfl
      · cases construct with
        | method =>
          obtain ⟨_, hr, -⟩ := map_eq_ok_iff.1 hx
          have hr' := exists_readHeader hc hd h hline hi hr halike
          rw [map_eq_error_iff.1 hy] at hr'
          cases hr'
        | branch =>
          obtain ⟨_, hp, -⟩ := map_eq_ok_iff.1 hx
          obtain ⟨_, hp'⟩ := Condition.parse_of_alike hp halike
          rw [map_eq_error_iff.1 hy] at hp'
          cases hp'
        | loop =>
          obtain ⟨_, hp, -⟩ := map_eq_ok_iff.1 hx
          obtain ⟨_, hp'⟩ := Condition.parse_of_alike hp halike
          rw [map_eq_error_iff.1 hy] at hp'
          cases hp'
      · -- a closing line is checked by the number of its tokens
        have hlength : ∀ zs : List String, zs.length = xs.length →
            Keyword.checkAlone (.closes construct) (first :: zs) = .ok () := by
          intro zs hz
          have halone : Keyword.checkAlone (.closes construct) (first :: xs) = .ok () := hx
          unfold Keyword.checkAlone at halone ⊢
          rw [List.length_cons] at halone ⊢
          rw [hz]
          exact halone
        have hy' : Keyword.checkAlone (.closes construct) (first :: ys) = .error fault := hy
        rw [hlength ys halike.length_eq.symm] at hy'
        cases hy'

/-- A line fails because it is executed and `interpret` or `checkAt` refuses it, or with a fault
that `isLate`: no stack is ever empty from which it takes an entry. -/
theorem Stands.fails_cases {lost : Nat} (h : store.Stands (.bottom lost))
    (hf : Fails line cursor store fault after) :
    (line.isEmpty = false ∧ store.flow.suspended = false ∧
        store.interpret line.tokens = .error fault) ∨
      (∃ command tokens, line.isEmpty = false ∧ store.flow.suspended = false ∧
        store.interpret line.tokens = .ok (command, tokens) ∧
        store.checkAt command tokens cursor = .error fault) ∨
      fault.isLate = true := by
  cases hf with
  | skips _ _ hf =>
    rw [(h.skipFails hf).1]
    exact .inr (.inr rfl)
  | interprets hl hs hi => exact .inl ⟨hl, hs, hi⟩
  | performs hl hs hi hf =>
    refine .inr ?_
    cases hf with
    | checks hc => exact .inl ⟨_, _, hl, hs, hi, hc⟩
    | evaluates _ he => exact .inr (Assignment.isLate_of_evaluate he)
    | stores _ _ hv =>
      rw [(Variables.store_eq_error_iff.1 hv).1]
      exact .inr rfl
    | registers _ hm =>
      unfold register Methods.insert at hm
      split at hm
      · cases hm
      · split at hm <;> cases hm
        exact .inr rfl
    | closesLoop _ hf hl => exact absurd hl (h.loops_ne_empty_of_running hs hf)
    | closesMethod _ hst => exact absurd hst h.not_strands
    -- what is left are pushes on stacks that are full
    | _ => exact .inr rfl

/-- The invariant of a run of a program. -/
structure Running (program : Program) (store : Store) : Prop where
  regular : store.Regular 0
  faithful : store.Faithful program

/-- A line of a program that passes `check` fails only with a fault that `isDynamic`. -/
theorem Running.isDynamic (hc : program.check = .ok ()) (h : store.Running program)
    (hline : program.line? cursor = some line) (hf : Fails line cursor store fault after) :
    fault.isDynamic = true := by
  -- the dry run has met this line with some other store, and it passed there
  have hchecked : line.isEmpty = false → ∃ (dry : Store) (command : Command)
      (tokens : List String), dry.Faithful program ∧
      dry.interpret line.tokens = .ok (command, tokens) ∧
      dry.checkAt command tokens cursor = .ok () ∧
      store.classify line.tokens = .ok command := by
    intro hne
    obtain ⟨dry, _, command, tokens, -, -, hd, hi, hcheck, -⟩ :=
      Program.exists_dry_line hc hline hne
    exact ⟨dry, command, tokens, hd, hi, hcheck,
      classify_of_checked hd.named h.faithful.named hi hcheck⟩
  rcases h.regular.stands.fails_cases hf with
    ⟨hne, -, hi⟩ | ⟨command, tokens, hne, -, hi, hcheck⟩ | hd
  · -- the command is the same in every store, so only a variable can be missing
    obtain ⟨_, command, _, -, -, -, hclass⟩ := hchecked hne
    rcases bind_error_iff.1 hi with hi | ⟨found, hfound, hi⟩
    · rw [hclass] at hi
      cases hi
    · rcases bind_error_iff.1 hi with hi | ⟨_, -, hi⟩
      · obtain ⟨name, rfl⟩ := substitute_eq_error hi
        rfl
      · cases hi
  · obtain ⟨hclass, hsub⟩ := interpret_eq_ok_iff.1 hi
    obtain ⟨dry, other, xs, hd, hdry, hpass, hclass'⟩ := hchecked hne
    obtain rfl := Except.ok.inj (hclass'.symm.trans hclass)
    exact isDynamic_of_checkAt hc hd h.faithful hline hdry hpass hsub hcheck
  · exact Fault.isDynamic_of_isLate hd

end Store

namespace Program

variable {program : Program} {fuel : Nat} {engine after : Engine} {failure : Failure}

/-- A run of a program that passes `check` fails only with a fault that `isDynamic`. -/
theorem isDynamic_of_runFrom (hc : program.check = .ok ()) {cursor : Address}
    (h : engine.store.Running program)
    (hr : Engine.runFrom program fuel cursor engine = some (.error failure after)) :
    failure.fault.isDynamic = true := by
  have hstep : ∀ {line : Line} {a next : Address} {engine after : Engine},
      program.line? a = some line → engine.store.Running program →
      Engine.execute line a engine = .ok next after → after.store.Running program := by
    intro line a next engine after hl h he
    obtain ⟨step, hx, -, -⟩ := Engine.execute_eq_ok_iff.1 he
    exact ⟨h.regular.step hx, h.faithful.step hl hx⟩
  rcases Engine.runFrom_cases (P := fun _ engine => engine.store.Running program) hstep h hr with
    ⟨b, last, heq, -⟩ | ⟨b, line, before, last, fault, hl, hbefore, he, heq⟩
  · cases heq
  · cases heq
    exact hbefore.isDynamic hc hl (Engine.execute_eq_stop_iff.1 he).1

/-- **Programs that pass `check`.** Their runs fail only with `undefinedVariable`,
`undefinedMethod`, `overflow`, `divisionByZero`, `outOfMemory` or, for a size that is `notPositive`,
with `illegalFunctionCall`. -/
theorem run_error_of_check (hc : program.check = .ok ())
    (hr : Engine.run program fuel engine = some (.error failure after)) :
    failure.fault.kind ∈ [.undefinedVariable, .undefinedMethod, .illegalFunctionCall, .overflow,
        .divisionByZero, .outOfMemory] ∧
      (failure.fault.kind = .illegalFunctionCall →
        ∃ measure, failure.fault = .notPositive measure) := by
  have hdynamic := isDynamic_of_runFrom hc ⟨.empty, .empty program⟩ hr
  cases hf : failure.fault with
  | notPositive measure => simp [Fault.kind]
  | undefinedVariable name => simp [Fault.kind]
  | undefinedMethod name => simp [Fault.kind]
  | overflow => simp [Fault.kind]
  | divisionByZero => simp [Fault.kind]
  | full bound => simp [Fault.kind]
  | _ =>
    rw [hf] at hdynamic
    cases hdynamic

/-- A method that draws ever smaller circles and calls itself. -/
def shrinkingCircles : Program :=
  parse "n = 2\nMETHOD f(k)\nCIRCLE k\nn = n - 1\nf(n)\nENDMETHOD\nf(n)\n"

/-- The program passes `check`, and its run fails at a circle without a size. -/
theorem run_error_of_check_shrinkingCircles :
    shrinkingCircles.check = .ok () ∧ ∃ failure after,
      Engine.run shrinkingCircles 60 .initial = some (.error failure after) ∧
        failure.fault.kind = .illegalFunctionCall ∧
        ∃ measure, failure.fault = .notPositive measure := by
  have hcheck : shrinkingCircles.check = .ok () := by
    have hok : shrinkingCircles.check.isOk = true := by decide +kernel
    cases hc : shrinkingCircles.check with
    | error failure =>
      rw [hc] at hok
      cases hok
    | ok u => rfl
  have hrun : (Engine.run shrinkingCircles 60 .initial).map Outcome.fault? =
      some (some (.notPositive .radius)) := by
    decide +kernel
  obtain ⟨outcome, houtcome, hfault⟩ := Option.map_eq_some_iff.1 hrun
  cases outcome with
  | ok _ _ => cases hfault
  | error failure after =>
    have hkind : failure.fault.kind = .illegalFunctionCall := by
      rw [Option.some.inj hfault]
      rfl
    exact ⟨hcheck, failure, after, houtcome, hkind,
      (run_error_of_check hcheck houtcome).2 hkind⟩

end Program

end Sketch
