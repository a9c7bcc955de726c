import Sketch.Host.Batch
import Sketch.Proofs.Brackets
import Sketch.Proofs.Cursor
import Sketch.Proofs.Cuts

/-!
# The two ways to run a program

A program is run by the engine, as for a file, or line by line by a session, which can be
interrupted. The two give a failure its place in different ways: `Engine.runFrom` with
`Failure.annotate`, which keeps a place that is there, and `Session.runFrom` with `Failure.placed?`,
on the assertion that there is none. Main statement: `Session.run_agrees`, a session that is never
asked to stop comes to the same end as the engine, so that a file that passes the check shows the
same drawing and the same error whether it is run at once or loaded and run at the prompt.

The loops are compared round by round (`Session.runFrom_eq`); what is shown of their common end is
compared in `Session.present_reply`.
-/

namespace Sketch

/-- The end of a run as the end of one that could have been interrupted. -/
def Outcome.unbroken : Outcome Unit → Outcome (Option Address)
  | .ok _ engine => .ok none engine
  | .error failure engine => .error failure engine

/-- What is answered at the prompt after a run: nothing, or the report of its failure. -/
def Outcome.reply : Outcome Unit → Reply
  | .ok _ _ => .ok []
  | .error failure _ => .error failure.report

/-- What a session shows of the end of a run: the output, and after an error the error and the call
for the next input. -/
def BatchResult.atPrompt (result : BatchResult) : String :=
  result.output ++ result.errors ++ if result.code = 0 then "" else Session.ready

/-! ## Inputs that are no lines -/

/-- A text that `trim` leaves empty has no tokens. -/
theorem Line.tokens_ofText_of_trim {s : String} (h : Text.trim s = "") :
    (ofText s).tokens = [] := by
  have hblank : ∀ c ∈ s.toList, Text.isBlank c = true := by
    rw [← List.all_eq_true, ← Text.trimChars_eq_nil_iff]
    exact String.ofList_eq_empty_iff.1 h
  obtain ⟨dropped, hs, -⟩ := Text.dropEndWhile_isPrefix isBreak s.toList
  have hkept : ∀ c ∈ (dropBreaks s).toList, Text.isBlank c = true := by
    intro c hc
    rw [dropBreaks, String.toList_ofList] at hc
    exact hblank c (hs ▸ List.mem_append_left dropped hc)
  rw [tokens_eq, text_ofText, tokenize_eq_iff, ← List.append_nil (dropBreaks s).toList,
    scan_blank_append hkept]
  rfl

/-- What `ofInput` takes for another directive than `direct` is not blank. -/
theorem Directive.trim_ne_of_ofInput {input : String} {directive : Directive}
    (h : ofInput input = directive) (hd : ∀ line, directive ≠ .direct line) :
    Text.trim input ≠ "" := by
  intro hblank
  refine hd (.ofText input) ?_
  rw [← h, ofInput, Line.tokens_ofText_of_trim hblank]

namespace Session

variable {program : Program} {interrupt : Nat → Bool} {fuel polls : Nat} {a : Address}
  {engine : Engine} {session : Session} {input name : String} {bold : String → String} {σ : Type}
  {files : FileSystem σ} {state : σ}

/-! ## The loops -/

/-- From every line on, a session that is not interrupted does what the engine does. What a line
raises has no place, so that the assertion of `Failure.placed?` holds and `Failure.annotate` sets a
place too. Both places have the same number, since the program has no line at the last address. -/
theorem runFrom_eq (hsize : program.size < UInt64.size) :
    runFrom program (fun _ => false) fuel polls a engine =
      (Engine.runFrom program fuel a engine).map Outcome.unbroken := by
  induction fuel generalizing polls a engine with
  | zero => rfl
  | succ fuel ih =>
    rw [runFrom, Engine.runFrom]
    cases hl : program.line? a with
    | none => rfl
    | some line =>
      simp only [Bool.false_eq_true, if_false]
      cases he : Engine.execute line a engine with
      | ok next after =>
        simp only
        exact ih
      | error stop after =>
        -- what the line raises has no place yet
        obtain ⟨fault, rfl, -⟩ := Engine.execute_eq_error_iff.1 he
        simp only [Fault.stop_failure, Failure.placed?_ofFault, Failure.annotate_ofFault, Place.of,
          Program.number_eq hsize (Program.toNat_lt_of_line? hl)]
        rfl

/-- A run that was not interrupted is answered by its `Outcome.reply`. -/
theorem conclude_unbroken (session : Session) (outcome : Outcome Unit) :
    session.conclude outcome.unbroken = (⟨outcome.engine, session.program⟩, outcome.reply) := by
  cases outcome <;> rfl

/-- `Session.run` without an interrupt is `Engine.run`. -/
theorem run_eq (hsize : program.size < UInt64.size) (engine : Engine) (fuel : Nat) :
    run ⟨engine, program⟩ (fun _ => false) fuel =
      (Engine.run program fuel engine).map fun outcome =>
        (⟨outcome.engine, program⟩, outcome.reply) := by
  rw [run, runFrom_eq hsize, Option.map_map, Engine.run]
  congr 1
  funext outcome
  exact conclude_unbroken ⟨engine, program⟩ outcome

/-! ## What is shown -/

/-- `answer` to an input that loads a program. -/
theorem answer_load (hi : Directive.ofInput input = .load name)
    (hl : Program.load (files.read state name) = .ok program) :
    (session.answer bold interrupt fuel input).run files state =
      (some (present { session with program } bold (.ok [])), state) := by
  have hne := Directive.trim_ne_of_ofInput hi (by simp)
  rw [answer, if_neg hne, hi, perform, Exchange.run_map, Exchange.run, loaded, hl]
  rfl

/-- `answer` to an input that runs the program. -/
theorem answer_run (hi : Directive.ofInput input = .run) :
    (session.answer bold interrupt fuel input).run files state =
      ((session.run interrupt fuel).map fun result => result.1.present bold result.2, state) := by
  have hne := Directive.trim_ne_of_ofInput hi (by simp)
  rw [answer, if_neg hne, hi, perform, Exchange.run_map]
  rfl

/-- `present` shows the end of a run as `BatchResult.atPrompt` does. -/
theorem present_reply (outcome : Outcome Unit) :
    (present ⟨outcome.engine, program⟩ bold outcome.reply).2 =
      (BatchResult.ofOutcome bold outcome).atPrompt := by
  cases outcome with
  | ok _ engine =>
    show engine.printedPicture ++ "" = engine.printedPicture ++ "" ++ ""
    rw [String.append_empty, String.append_empty]
  | error failure engine =>
    show engine.printedPicture ++ (bold failure.report.render ++ "\n" ++ ready) =
      engine.printedPicture ++ (bold failure.report.render ++ "\n") ++ ready
    simp only [String.append_assoc]

/-- **A session runs a program as the engine does.** If nothing interrupts it, `Session.run` ends as
`Engine.run` does: with the `reply` of its outcome and in the same engine. In a new session, loading
a file whose program passes `check` and running it therefore shows what `batch` prints, for every
`FileSystem` and every way to set off an error. -/
theorem run_agrees (hsize : program.size < UInt64.size) :
    (∀ engine fuel, run ⟨engine, program⟩ (fun _ => false) fuel =
      (Engine.run program fuel engine).map fun outcome =>
        (⟨outcome.engine, program⟩, outcome.reply)) ∧
    ∀ {σ : Type} (files : FileSystem σ) (state : σ) (bold : String → String) name loading running
      fuel, Directive.ofInput loading = .load name → Directive.ofInput running = .run →
      Program.load (files.read state name) = .ok program → program.check = .ok () →
      converse files bold (fun _ => false) fuel .initial state [loading, running] =
        ((batch bold name false fuel).run files state).1.map fun result =>
          (["", result.atPrompt], state) := by
  refine ⟨run_eq hsize,
    fun files state bold name loading running fuel hload hrun hfile hcheck => ?_⟩
  have hbatch : ((batch bold name false fuel).run files state).1 =
      (Engine.run program fuel .initial).map (BatchResult.ofOutcome bold) := by
    rw [batch, Exchange.run, hfile]
    simp only [Program.batch, hcheck, Bool.false_eq_true, if_false]
  have hstart : present { initial with program } bold (.ok []) = (⟨.initial, program⟩, "") := rfl
  rw [hbatch, converse, answer_load hload hfile, hstart]
  simp only [converse, answer_run hrun, run_eq hsize]
  cases Engine.run program fuel .initial with
  | none => rfl
  | some outcome => simp [present_reply]

/-- A disk with a program that draws in a method and then divides by zero there. -/
def spiral : Disk :=
  ⟨[(["spiral"], .file "METHOD f(n)\nCIRCLE n\nx = n / 0\nENDMETHOD\nf(3)\n".toUTF8)], []⟩

/-- The drawing and the error of a file that is loaded and run, with errors between asterisks. -/
theorem run_agrees_spiral :
    ((batch (fun text => "*" ++ text ++ "*") "spiral" false 40).run Disk.files spiral).1.isSome =
        true ∧
      converse Disk.files (fun text => "*" ++ text ++ "*") (fun _ => false) 40 .initial spiral
          ["LOAD \"spiral\"", " RUN"] =
        some (["", "ELLIPSE -3,-3 6x6 Black\n*DIVISION BY ZERO IN 3: x = n / 0*\nREADY.\n"],
          spiral) := by
  have hprints :
      ((batch (fun text => "*" ++ text ++ "*") "spiral" false 40).run Disk.files spiral).1.map
          BatchResult.atPrompt =
        some "ELLIPSE -3,-3 6x6 Black\n*DIVISION BY ZERO IN 3: x = n / 0*\nREADY.\n" := by
    decide +kernel
  obtain ⟨result, hresult, hshown⟩ := Option.map_eq_some_iff.1 hprints
  have hsize : (Program.parse "METHOD f(n)\nCIRCLE n\nx = n / 0\nENDMETHOD\nf(3)\n").size <
      UInt64.size := by
    decide +kernel
  rw [(run_agrees hsize).2 Disk.files spiral _ "spiral" "LOAD \"spiral\"" " RUN" 40
    (by decide +kernel) (by decide +kernel) rfl (by decide +kernel), hresult, Option.map_some,
    hshown]
  exact ⟨rfl, rfl⟩

end Session

end Sketch
