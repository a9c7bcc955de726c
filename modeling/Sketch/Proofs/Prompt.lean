import Sketch.Proofs.Cursor

/-!
# Lines at the prompt

A line at the prompt is executed as if it stood after the last line of the program, and the call
that it makes is followed. Two statements say what this comes to.

* `Engine.direct_restores`: a line that fails or is interrupted leaves no block, loop, call,
  definition or scope behind, and takes none away; nor does a call that returns.
* `Engine.direct_agrees_push`: after a run, a line at the prompt does what it would have done as the
  last line of the program, unless it closes a loop or a method.
-/

namespace Sketch

namespace Engine

variable {program : Program} {interrupt : Nat → Bool} {depth n fuel bound : Nat}
  {a b next : Address} {line : Line} {engine first between after last : Engine}
  {outcome : Outcome (Option Address)}

/-! ## What a line at the prompt leaves open -/

/-- **A line at the prompt leaks nothing.** In every `Reachable` engine and for every program, a
line on which `direct` fails or is interrupted leaves the `flow` and the scopes as they were, and so
does a call that is executed, however it ends. -/
theorem direct_restores {tolerated : Fault → Prop} (hr : Reachable tolerated engine)
    (hd : direct program interrupt fuel line engine = some outcome)
    (hcase : (∀ after, outcome ≠ .ok none after) ∨
      engine.store.flow.suspended = false ∧ engine.store.classify line.tokens = .ok .call) :
    outcome.engine.store.flow = engine.store.flow ∧
      outcome.engine.store.vars.scopes = engine.store.vars.scopes := by
  apply Store.flow_eq_of_control_eq
  obtain ⟨lost, hregular, -⟩ := hr.regular
  rcases direct_control hregular hd with hcontrol | ⟨cursor, step, after, hx, hheight, rfl⟩
  · exact hcontrol
  rcases hcase with hfinished | ⟨hs, hk⟩
  · exact absurd rfl (hfinished after)
  · -- a call would have opened one call more
    obtain ⟨invocation, hentered⟩ := hx.entered hs hk
    rw [hentered] at hheight
    exact absurd hheight (Nat.not_succ_le_self _)

/-- After a run that failed in a loop and a branch of a method: a call that fails there too, and one
that is interrupted inside a call that it makes. -/
theorem direct_restores_descent : ∃ engine : Engine,
    Reachable (fun _ => True) engine ∧
      engine.store.flow.frames.toList =
        [⟨.method, .executing⟩, ⟨.branch, .executing⟩, ⟨.loop, .executing⟩] ∧
      (∃ failure after, direct descent (fun _ => false) 60 (.ofText "f(4)") engine =
          some (.error failure after) ∧
        after.store.flow = engine.store.flow ∧
        after.store.vars.scopes = engine.store.vars.scopes) ∧
      ∃ index after, direct descent (fun polls => polls == 9) 60 (.ofText "f(2)") engine =
          some (.ok (some index) after) ∧
        after.store.flow = engine.store.flow ∧
        after.store.vars.scopes = engine.store.vars.scopes := by
  have hrun : (run descent 40 .initial).map (fun outcome =>
      outcome.engine.store.flow.frames.toList) =
      some [⟨.method, .executing⟩, ⟨.branch, .executing⟩, ⟨.loop, .executing⟩] := by
    decide +kernel
  have hfails : ((run descent 40 .initial).bind fun outcome =>
      direct descent (fun _ => false) 60 (.ofText "f(4)") outcome.engine).map Outcome.fault? =
      some (some .divisionByZero) := by
    decide +kernel
  have hbroken : ((run descent 40 .initial).bind fun outcome =>
      direct descent (fun polls => polls == 9) 60 (.ofText "f(2)") outcome.engine).map
        (fun outcome => match outcome with
          | .ok index _ => index
          | .error _ _ => none) = some (some 2) := by
    decide +kernel
  obtain ⟨failed, hfailed, hframes⟩ := Option.map_eq_some_iff.1 hrun
  rw [hfailed, Option.bind_some] at hfails hbroken
  have hr : Reachable (fun _ => True) failed.engine :=
    Reachable.runFrom (.start .initial) hfailed fun _ _ => trivial
  refine ⟨failed.engine, hr, hframes, ?_, ?_⟩
  · obtain ⟨outcome, hd, hfault⟩ := Option.map_eq_some_iff.1 hfails
    cases outcome with
    | ok _ _ => cases hfault
    | error failure after =>
      exact ⟨failure, after, hd, direct_restores hr hd (.inl fun _ => by rintro ⟨⟩)⟩
  · obtain ⟨outcome, hd, hindex⟩ := Option.map_eq_some_iff.1 hbroken
    cases outcome with
    | error _ _ => cases hindex
    | ok index after =>
      obtain rfl : index = some 2 := hindex
      exact ⟨2, after, hd, direct_restores hr hd (.inl fun _ => by rintro ⟨⟩)⟩

/-! ## The line as the last one of the program -/

/-- `Underway` does not depend on a line that is pushed. -/
theorem Underway.push (h : Underway program depth n a engine b after) (line : Line) :
    Underway (program.push line) depth n a engine b after := by
  induction h with
  | refl => exact .refl
  | step hopen hl he _ ih => exact .step hopen (Program.line?_push_of_some hl) he ih

/-- `Underway` is over at the address of the line itself, if that closes neither a loop nor a method
and no call is open that was not open before it. -/
theorem Underway.eq_of_back (h : engine.store.Named)
    (hloop : line.keyword? ≠ some (.closes .loop))
    (hmethod : line.keyword? ≠ some (.closes .method))
    (he : execute line a engine = .ok next first)
    (hu : Underway program engine.store.flow.calls.height n next first b last)
    (hback : last.store.flow.calls.height ≤ engine.store.flow.calls.height) : b = a := by
  obtain ⟨step, hx, rfl, -⟩ := execute_eq_ok_iff.1 he
  have hmoves := hx.moves
  generalize step.cursor = next at hmoves hu
  generalize hstore : first.store = store at hmoves
  cases hmoves with
  | stays hc =>
    cases hu with
    | refl => rfl
    | step hopen _ _ _ => exact absurd (by rw [hstore, hc]) hopen
  | @enters _ invocation _ _ =>
    have hstands : first.store.Stands (.within engine.store.control ⟨invocation.name, a⟩) :=
      hstore ▸ engine.store.stands_entered invocation a
    rcases hu.stands_or_returned hstands with hinside | hreturned
    · exact absurd hback (Nat.not_le_of_gt hinside.height_lt)
    · exact hreturned.next_eq
  | rewinds hk _ _ => exact absurd (h.classify_line_iff.1 hk) hloop
  | returns hk _ => exact absurd (h.classify_line_iff.1 hk) hmethod

/-- **A line at the prompt acts like the last line of the program.** Let a program be run and then
`direct` be applied to a line that closes neither a loop nor a method, with an address for each
line. If that succeeds, so does the run of the program with the line pushed, and in the same engine.
If it fails with another fault than `bodyMissing`, then this run fails with the same fault, at the
same place or else at the pushed line, with the same globals, methods and canvas. -/
theorem direct_agrees_push (hsize : (program.push line).size < UInt64.size)
    (hloop : line.keyword? ≠ some (.closes .loop))
    (hmethod : line.keyword? ≠ some (.closes .method))
    (hrun : run program fuel engine = some (.ok () between))
    (hd : direct program (fun _ => false) bound line between = some outcome) :
    (∀ after, outcome = .ok none after →
      ∃ n, run (program.push line) n engine = some (.ok () after)) ∧
    ∀ failure after, outcome = .error failure after → failure.fault ≠ .bodyMissing →
      ∃ n last, run (program.push line) n engine = some (.error ⟨failure.fault,
          some (failure.place.getD (.of (UInt64.ofNat program.size) line))⟩ last) ∧
        last.store.vars.globals = after.store.vars.globals ∧
        last.store.methods = after.store.methods ∧ last.canvas = after.canvas := by
  have hend := hsize
  rw [Program.size_push] at hend
  have hfits : program.size < UInt64.size := Nat.lt_of_succ_lt hend
  obtain ⟨hplaced, n, hleads⟩ :=
    leads_of_runFrom line hfits (.empty program) (Nat.zero_le _) hrun
  have hline := Program.line?_push_size hfits line
  rcases direct_cases hd with ⟨next, first, he, hf⟩ | ⟨fault, after, he, rfl⟩
  · obtain ⟨m, b, last, hu, hends⟩ := follow_ends hf
    -- the run of the longer program goes through the whole call
    have hall : Leads (program.push line) (n + (1 + m)) 0 engine.start (b + 1) last :=
      hleads.trans (.trans (.of_execute hline he) (hu.push line).leads)
    rcases hends with ⟨hback, rfl⟩ | ⟨-, hbreaks⟩
    · refine ⟨?_, by rintro _ _ ⟨⟩⟩
      rintro _ ⟨⟩
      -- the call has returned, so the cursor is at the line itself and the program is at its end
      obtain rfl := hu.eq_of_back hplaced.faithful.named hloop hmethod he hback
      refine ⟨n + (1 + m) + 1, ?_⟩
      rw [run, hall]
      have hlast := runFrom_size hsize last
      rwa [Program.size_push, UInt64.ofNat_add] at hlast
    · cases hbreaks with
      | interrupted hi => cases hi
      | missing _ =>
        refine ⟨by rintro _ ⟨⟩, ?_⟩
        rintro _ _ ⟨⟩ hfault
        exact absurd rfl hfault
      | @fails found fault after hl he =>
        refine ⟨by rintro _ ⟨⟩, ?_⟩
        rintro _ _ ⟨⟩ -
        refine ⟨n + (1 + m) + 1, after, ?_, rfl, rfl, rfl⟩
        rw [run, hall]
        exact runFrom_of_error (Program.line?_push_of_some hl) he
  · refine ⟨by rintro _ ⟨⟩, ?_⟩
    rintro _ _ ⟨⟩ -
    refine ⟨n + 1, after, ?_, rfl, rfl, rfl⟩
    rw [run, hleads]
    exact runFrom_of_error hline he

/-- A method that draws ever smaller circles down to zero, and a branch that is left open. -/
def circlesToZero : Program :=
  .parse "METHOD f(n)\nIF n != 0\nCIRCLE n\nm = n - 1\nf(m)\nENDIF\nENDMETHOD\nIF 1 < 2\n"

/-- A call that calls itself and returns, and one that fails because there is no circle with a
negative radius. -/
theorem direct_agrees_push_circlesToZero : ∃ between : Engine,
    run circlesToZero 40 .initial = some (.ok () between) ∧
      (∃ after n,
        direct circlesToZero (fun _ => false) 60 (.ofText "f(2)") between = some (.ok none after) ∧
        run (circlesToZero.push (.ofText "f(2)")) n .initial = some (.ok () after)) ∧
      ∃ failure after n last,
        direct circlesToZero (fun _ => false) 60 (.ofText "f(-1)") between =
          some (.error failure after) ∧
        run (circlesToZero.push (.ofText "f(-1)")) n .initial =
          some (.error ⟨failure.fault, some (failure.place.getD
            (.of (UInt64.ofNat circlesToZero.size) (.ofText "f(-1)")))⟩ last) ∧
        last.store.vars.globals = after.store.vars.globals ∧
        last.store.methods = after.store.methods ∧ last.canvas = after.canvas := by
  have hsize : ∀ line, (circlesToZero.push line).size < UInt64.size := by
    intro line
    rw [Program.size_push]
    decide +kernel
  have hrun : (run circlesToZero 40 .initial).map Outcome.fault? = some none := by
    decide +kernel
  have hsucceeds : ((run circlesToZero 40 .initial).bind fun outcome =>
      direct circlesToZero (fun _ => false) 60 (.ofText "f(2)") outcome.engine).map
        (fun outcome => match outcome with
          | .ok index _ => some index
          | .error _ _ => none) = some (some none) := by
    decide +kernel
  have hfails : ((run circlesToZero 40 .initial).bind fun outcome =>
      direct circlesToZero (fun _ => false) 60 (.ofText "f(-1)") outcome.engine).map
        Outcome.fault? = some (some (.notPositive .radius)) := by
    decide +kernel
  obtain ⟨done, hdone, hnone⟩ := Option.map_eq_some_iff.1 hrun
  rw [hdone, Option.bind_some] at hsucceeds hfails
  cases done with
  | error failure _ => cases hnone
  | ok _ between =>
    refine ⟨between, hdone, ?_, ?_⟩
    · obtain ⟨outcome, hd, hindex⟩ := Option.map_eq_some_iff.1 hsucceeds
      cases outcome with
      | error _ _ => cases hindex
      | ok index after =>
        obtain rfl : index = none := Option.some.inj hindex
        obtain ⟨n, hn⟩ := (direct_agrees_push (hsize _) (by decide +kernel)
          (by decide +kernel) hdone hd).1 after rfl
        exact ⟨after, n, hd, hn⟩
    · obtain ⟨outcome, hd, hfault⟩ := Option.map_eq_some_iff.1 hfails
      cases outcome with
      | ok _ _ => cases hfault
      | error failure after =>
        have hother : failure.fault ≠ .bodyMissing := by
          rw [Option.some.inj hfault]
          decide
        obtain ⟨n, last, hn⟩ := (direct_agrees_push (hsize _) (by decide +kernel)
          (by decide +kernel) hdone hd).2 failure after rfl hother
        exact ⟨failure, after, n, last, hd, hn⟩

end Engine

end Sketch
