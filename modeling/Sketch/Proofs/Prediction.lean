import Sketch.Proofs.Iterations
import Sketch.Proofs.Validation

/-!
# What the check of a line predicts

The check of a line and its execution go through two separate lists of commands. Main statement:
`Engine.check_predicts_execute`, in every engine that can be reached the two agree. A line that is
refused by its check fails with the same fault and changes nothing. A line that passes fails only
with a fault that no check looks for: `overflow`, `divisionByZero` or `outOfMemory`.

The header of a method is left out. It is checked as if it stood at the last address, so that its
check refuses a definition that is met a second time, while its execution lets it pass.
-/

namespace Sketch

/-- A fault that `isLate` is an `overflow`, a `divisionByZero` or an `outOfMemory`. -/
theorem Fault.kind_of_isLate {fault : Fault} (h : fault.isLate = true) :
    fault.kind ∈ [Kind.overflow, .divisionByZero, .outOfMemory] := by
  cases fault with
  | overflow => simp [Fault.kind]
  | divisionByZero => simp [Fault.kind]
  | full bound => simp [Fault.kind]
  | _ => cases h

namespace Store

variable {store : Store} {line : Line} {cursor : Address} {fault : Fault} {command : Command}
  {tokens : List String}

/-- `checkTokens` fails exactly if `interpret` or `checkCommand` does. -/
theorem checkTokens_eq_error_iff :
    store.checkTokens tokens = .error fault ↔
      store.interpret tokens = .error fault ∨
        ∃ command words, store.interpret tokens = .ok (command, words) ∧
          store.checkCommand command words = .error fault := by
  rw [checkTokens, bind_error_iff]
  simp only [Prod.exists]

/-- `checkLine` fails exactly if the line is not skipped and `checkTokens` fails. The failure has no
place. -/
theorem checkLine_eq_error_iff {failure : Failure} :
    store.checkLine line = .error failure ↔
      ∃ fault, failure = .ofFault fault ∧ line.isEmpty = false ∧
        store.flow.suspended = false ∧ store.checkTokens line.tokens = .error fault := by
  unfold checkLine
  by_cases hskip : (line.isEmpty || store.flow.suspended) = true
  · rw [if_pos hskip]
    refine ⟨nofun, ?_⟩
    rintro ⟨fault, -, hl, hs, -⟩
    rw [hl, hs] at hskip
    cases hskip
  · rw [if_neg hskip]
    simp only [Bool.or_eq_true, not_or, Bool.not_eq_true] at hskip
    cases store.checkTokens line.tokens with
    | ok _ => simp [Except.mapError]
    | error fault => simp [Except.mapError, hskip, eq_comm]

/-- `interpret` takes a line for a header only if it begins with `METHOD`. -/
theorem ne_header_of_interpret (hm : line.tokens.head? ≠ some "METHOD")
    (hi : store.interpret line.tokens = .ok (command, tokens)) :
    command ≠ .keyword (.opens .method) := by
  rintro rfl
  exact hm (Command.head?_of_classify (interpret_eq_ok_iff.1 hi).1)

/-- A line that `checkLine` refuses `Fails` with the same fault and changes nothing. -/
theorem fails_of_checkLine (hm : line.tokens.head? ≠ some "METHOD")
    {failure : Failure} (hc : store.checkLine line = .error failure) :
    ∃ fault, failure = .ofFault fault ∧ Fails line cursor store fault store := by
  obtain ⟨fault, rfl, hl, hs, hrefused⟩ := checkLine_eq_error_iff.1 hc
  refine ⟨fault, rfl, ?_⟩
  rcases checkTokens_eq_error_iff.1 hrefused with hi | ⟨command, tokens, hi, hcommand⟩
  · exact .interprets hl hs hi
  · have hcheck : store.checkAt command tokens cursor = .error fault := by
      rw [checkAt_eq_checkCommand (ne_header_of_interpret hm hi), hcommand]
    exact .performs hl hs hi (.checks hcheck)

/-- A line that passes `checkLine` fails only with a fault that `isLate`. -/
theorem Stands.isLate_of_checkLine {after : Store} {lost : Nat} (h : store.Stands (.bottom lost))
    (hm : line.tokens.head? ≠ some "METHOD") (hc : store.checkLine line = .ok ())
    (hf : Fails line cursor store fault after) : fault.isLate = true := by
  have hpassed : line.isEmpty = false → store.flow.suspended = false →
      store.checkTokens line.tokens ≠ .error fault := by
    intro hl hs hrefused
    have herror := checkLine_eq_error_iff.2 ⟨fault, rfl, hl, hs, hrefused⟩
    rw [hc] at herror
    cases herror
  -- a line that fails was not interpreted, did not pass the check at its address, or failed late
  rcases h.fails_cases hf with ⟨hl, hs, hi⟩ | ⟨command, tokens, hl, hs, hi, hcheck⟩ | hlate
  · exact absurd (checkTokens_eq_error_iff.2 (.inl hi)) (hpassed hl hs)
  · rw [checkAt_eq_checkCommand (ne_header_of_interpret hm hi)] at hcheck
    exact absurd (checkTokens_eq_error_iff.2 (.inr ⟨command, tokens, hi, hcheck⟩)) (hpassed hl hs)
  · exact hlate

end Store

namespace Engine

variable {engine : Engine} {line : Line}

/-- **`checkLine` predicts `execute`.** In every `Reachable` engine, skipping or not, take a line
that does not begin with `METHOD`. If `checkLine` refuses it, then `execute` fails with the same
failure and leaves cursor and engine as they were. If `checkLine` passes it, then `execute` succeeds
or fails with `overflow`, `divisionByZero` or `outOfMemory`. -/
theorem check_predicts_execute (h : Reachable (fun _ => True) engine)
    (hm : line.tokens.head? ≠ some "METHOD") (cursor : Address) :
    (∀ failure, engine.store.checkLine line = .error failure →
      execute line cursor engine = .error ⟨failure, cursor⟩ engine) ∧
    (engine.store.checkLine line = .ok () →
      (∃ next after, execute line cursor engine = .ok next after) ∨
        ∃ stop after, execute line cursor engine = .error stop after ∧ stop.cursor = cursor ∧
          stop.failure.fault.kind ∈ [Kind.overflow, .divisionByZero, .outOfMemory]) := by
  refine ⟨fun failure hc => ?_, fun hc => ?_⟩
  · obtain ⟨fault, rfl, hf⟩ := Store.fails_of_checkLine hm hc
    exact execute_eq_stop_iff.2 ⟨hf, rfl⟩
  · obtain ⟨lost, hr, -⟩ := h.regular
    cases he : execute line cursor engine with
    | ok next after => exact .inl ⟨next, after, rfl⟩
    | error stop after =>
      obtain ⟨fault, rfl, hf, -⟩ := execute_eq_error_iff.1 he
      have hlate := hr.stands.isLate_of_checkLine hm hc hf
      exact .inr ⟨_, after, rfl, rfl, Fault.kind_of_isLate hlate⟩

/-- Inside a loop of a called method: a call with too many arguments is refused, and a quotient
without a value is not. -/
theorem check_predicts_execute_descent : ∃ engine : Engine,
    Reachable (fun _ => True) engine ∧
      engine.store.flow.frames.toList =
        [⟨.method, .executing⟩, ⟨.branch, .executing⟩, ⟨.loop, .executing⟩] ∧
      engine.store.checkLine (.ofText "f(n,n)") = .error (.ofFault .argumentCount) ∧
      execute (.ofText "f(n,n)") 2 engine = .error ⟨.ofFault .argumentCount, 2⟩ engine ∧
      engine.store.checkLine (.ofText "x = n / 0") = .ok () ∧
      ∃ stop after, execute (.ofText "x = n / 0") 3 engine = .error stop after ∧ stop.cursor = 3 ∧
        stop.failure.fault.kind ∈ [Kind.overflow, .divisionByZero, .outOfMemory] := by
  have hrun : (run descent 40 .initial).map (fun outcome =>
      (outcome.engine.store.flow.frames.toList,
        outcome.engine.store.checkLine (.ofText "f(n,n)"),
        outcome.engine.store.checkLine (.ofText "x = n / 0"),
        (value? (execute (.ofText "x = n / 0") 3 outcome.engine)).isSome)) =
      some ([⟨.method, .executing⟩, ⟨.branch, .executing⟩, ⟨.loop, .executing⟩],
        .error (.ofFault .argumentCount), .ok (), false) := by
    decide +kernel
  obtain ⟨outcome, houtcome, hend⟩ := Option.map_eq_some_iff.1 hrun
  simp only [Prod.mk.injEq] at hend
  obtain ⟨hframes, hrefused, hpassed, hnone⟩ := hend
  have hreach : Reachable (fun _ => True) outcome.engine :=
    Reachable.initial.run houtcome fun _ _ => trivial
  have hcallWord : (Line.ofText "f(n,n)").tokens.head? ≠ some "METHOD" := by decide +kernel
  have hquotientWord : (Line.ofText "x = n / 0").tokens.head? ≠ some "METHOD" := by decide +kernel
  obtain ⟨hcall, -⟩ := check_predicts_execute hreach hcallWord 2
  obtain ⟨-, hquotient⟩ := check_predicts_execute hreach hquotientWord 3
  refine ⟨outcome.engine, hreach, hframes, hrefused, hcall _ hrefused, hpassed, ?_⟩
  rcases hquotient hpassed with ⟨next, after, he⟩ | hfails
  · rw [he] at hnone
    cases hnone
  · exact hfails

end Engine

end Sketch
