import Sketch.Proofs.Control
import Sketch.Proofs.Moves
import Sketch.Proofs.Stretches

/-!
# Calls and their returns

Between a call and its return lie any number of lines: branches and loops that stay open or are
closed, definitions, blocks that are skipped, and further calls, also of the same method.
`Engine.Underway` is such a sequence of lines. Main statement: `Engine.return_restores`, when the
number of open calls is for the first time what it was before a call, then all stacks are what they
were, and the cursor is at the line of the call.

Both ways of executing lines go through these sequences: a run (`Underway.leads`) and a call that is
followed from the prompt (`Underway.follow_eq`). `Engine.follow_ends` lists how the latter can end.
-/

namespace Sketch

namespace Store

variable {store after origin : Store} {base : Control} {call : Call} {next : Address}

/-- The `control` of a store determines its stacks. -/
theorem flow_eq_of_control_eq (h : after.control = store.control) :
    after.flow = store.flow ∧ after.vars.scopes = store.vars.scopes := by
  rw [Control.ext_iff] at h
  obtain ⟨frames, loops, calls, definitions, scopes⟩ := h
  have hframes : after.flow.frames = store.flow.frames := Stack.ext_entries frames
  have hloops : after.flow.loops = store.flow.loops := Stack.ext_entries loops
  have hcalls : after.flow.calls = store.flow.calls := Stack.ext_entries calls
  have hdefinitions : after.flow.definitions = store.flow.definitions :=
    Stack.ext_entries definitions
  refine ⟨?_, Stack.ext_entries scopes⟩
  calc after.flow = ⟨after.flow.frames, after.flow.loops, after.flow.calls,
        after.flow.definitions⟩ := rfl
    _ = ⟨store.flow.frames, store.flow.loops, store.flow.calls, store.flow.definitions⟩ := by
        rw [hframes, hloops, hcalls, hdefinitions]

/-- A store that has `entered` a call `Stands` within it: its scope is all there is above. -/
theorem stands_entered (store : Store) (invocation : Invocation) (cursor : Address) :
    (store.entered invocation cursor).Stands
      (.within store.control ⟨invocation.name, cursor⟩) :=
  ⟨⟨[], [], [], [], [invocation.scope]⟩, rfl, trivial, rfl, rfl, rfl, rfl⟩

/-- What `Stands` within a call lies above what was open when the call was made. -/
theorem Stands.onto (h : store.Stands (.within base call)) :
    ∃ extra : Control, store.control = extra.onto base := by
  obtain ⟨upper, hc, -⟩ := h
  refine ⟨{ upper with
    frames := upper.frames ++ [⟨.method, .executing⟩], calls := upper.calls ++ [call] }, ?_⟩
  rw [hc]
  simp [Control.onto, Ground.control]

/-- What `Stands` within a call has more calls than there were when it was made. -/
theorem Stands.height_lt (h : store.Stands (.within origin.control call)) :
    origin.flow.calls.height < store.flow.calls.height := by
  obtain ⟨upper, hc, -⟩ := h
  exact Stack.height_lt_of_entries_eq (congrArg Control.calls hc)

namespace Returned

/-- A store that has `Returned` from a call has the `control` from before it. -/
theorem control_eq (h : Returned (.within base call) next store) : store.control = base := by
  cases h with
  | call hc => exact hc

/-- A store that has `Returned` from a call has the cursor at its line. -/
theorem next_eq (h : Returned (.within base call) next store) : next = call.returnTo := by
  cases h with
  | call _ => rfl

/-- A store that has `Returned` from a call has as many calls as before it. -/
theorem height_eq (h : Returned (.within origin.control call) next store) :
    store.flow.calls.height = origin.flow.calls.height :=
  congrArg (fun flow : Flow => flow.calls.height) (flow_eq_of_control_eq h.control_eq).1

end Returned

end Store

namespace Engine

variable {program : Program} {interrupt : Nat → Bool} {checkpoint : Checkpoint}
  {depth n fuel polls : Nat} {a b c next back : Address} {line : Line}
  {engine first between after last : Engine} {origin : Store} {call : Call}

/-! ## The lines between a call and its return -/

/-- The next `n` lines after the cursor are executed and succeed, and before each of them the number
of open calls is not `depth`. -/
inductive Underway (program : Program) (depth : Nat) :
    Nat → Address → Engine → Address → Engine → Prop where
  | refl {a : Address} {engine : Engine} : Underway program depth 0 a engine a engine
  | step {n : Nat} {a b c : Address} {engine between after : Engine} {line : Line}
      (hopen : engine.store.flow.calls.height ≠ depth) (hl : program.line? (a + 1) = some line)
      (he : execute line (a + 1) engine = .ok b between)
      (h : Underway program depth n b between c after) :
      Underway program depth (n + 1) a engine c after

/-- The answer to the first of some questions, and the answers to the others. -/
theorem answers_succ (h : ∀ k < n + 1, interrupt (polls + k) = false) :
    interrupt polls = false ∧ ∀ k < n, interrupt (polls + 1 + k) = false := by
  refine ⟨h 0 (Nat.succ_pos n), fun k hk => ?_⟩
  rw [Nat.add_right_comm, Nat.add_assoc]
  exact h (k + 1) (Nat.succ_lt_succ hk)

/-- `follow` goes on after a line that succeeds. -/
theorem follow_of_execute (hopen : ¬ engine.store.flow.calls.height ≤ depth)
    (hgo : interrupt polls = false) (hl : program.line? (a + 1) = some line)
    (he : execute line (a + 1) engine = .ok b between) :
    follow program interrupt checkpoint depth (fuel + 1) polls a engine =
      follow program interrupt checkpoint depth fuel (polls + 1) b between := by
  rw [follow, if_neg hopen]
  simp only [hgo, hl, he, Bool.false_eq_true, if_false]

namespace Underway

/-- A run `Leads` through the lines of `Underway`. -/
theorem leads (h : Underway program depth n a engine b after) :
    Leads program n (a + 1) engine (b + 1) after := by
  induction h with
  | refl => exact .refl
  | step _ hl he _ ih =>
    rw [Nat.add_comm]
    exact .trans (.of_execute hl he) ih

/-- A line within a call keeps `Stands`, or it has `Returned` and is the last one of `Underway`. -/
theorem stands_or_last (hs : engine.store.Stands (.within origin.control call))
    (he : execute line a engine = .ok b between)
    (h : Underway program origin.flow.calls.height n b between c after) :
    between.store.Stands (.within origin.control call) ∨
      Store.Returned (.within origin.control call) b between.store ∧
        n = 0 ∧ c = b ∧ after = between := by
  obtain ⟨step, hx, rfl, -⟩ := execute_eq_ok_iff.1 he
  rcases hs.step hx with hinside | hreturned
  · exact .inl hinside
  · cases h with
    | refl => exact .inr ⟨hreturned, rfl, rfl, rfl⟩
    | step hopen _ _ _ => exact absurd hreturned.height_eq hopen

/-- `Underway` keeps `Stands` until the call has `Returned`. -/
theorem stands_or_returned (h : Underway program origin.flow.calls.height n a engine b after)
    (hs : engine.store.Stands (.within origin.control call)) :
    after.store.Stands (.within origin.control call) ∨
      Store.Returned (.within origin.control call) b after.store := by
  induction h with
  | refl => exact .inl hs
  | step _ _ he h ih =>
    rcases stands_or_last hs he h with hinside | ⟨hreturned, rfl, rfl, rfl⟩
    · exact ih hinside
    · exact .inr hreturned

/-- `follow` goes through the lines of `Underway`, unless it is interrupted: before each of them
more calls are open than at the prompt. -/
theorem follow_eq (h : Underway program origin.flow.calls.height n a engine b after)
    (hs : engine.store.Stands (.within origin.control call))
    (hdepth : depth ≤ origin.flow.calls.height) (hgo : ∀ k < n, interrupt (polls + k) = false) :
    follow program interrupt checkpoint depth (n + fuel) polls a engine =
      follow program interrupt checkpoint depth fuel (polls + n) b after := by
  induction h generalizing polls with
  | refl => rw [Nat.zero_add, Nat.add_zero]
  | @step n a b c engine between after line _ hl he h ih =>
    have hopen : ¬ engine.store.flow.calls.height ≤ depth :=
      Nat.not_le_of_gt (Nat.lt_of_le_of_lt hdepth hs.height_lt)
    obtain ⟨hfirst, hrest⟩ := answers_succ hgo
    rw [Nat.add_right_comm, follow_of_execute hopen hfirst hl he, Nat.add_comm n 1, ← Nat.add_assoc]
    rcases stands_or_last hs he h with hinside | ⟨-, rfl, rfl, rfl⟩
    · exact ih hinside hrest
    · rw [Nat.zero_add, Nat.add_zero]

end Underway

/-! ## How a call that is followed ends -/

/-- What ends a call that is followed before it returns: a poll that is answered with yes,
the end of the program, or a line that fails. -/
inductive Breaks (program : Program) (interrupt : Nat → Bool) (checkpoint : Checkpoint)
    (polls : Nat) (b : Address) (last : Engine) : Outcome (Option Address) → Prop where
  | interrupted (hi : interrupt polls = true) :
      Breaks program interrupt checkpoint polls b last
        (.ok (some (b + 1)) (last.unwind checkpoint))
  | missing (hl : program.line? (b + 1) = none) :
      Breaks program interrupt checkpoint polls b last
        (.error (.ofFault .bodyMissing) (last.unwind checkpoint))
  | fails {line : Line} {fault : Fault} {after : Engine} (hl : program.line? (b + 1) = some line)
      (he : execute line (b + 1) last = .error (fault.stop (b + 1)) after) :
      Breaks program interrupt checkpoint polls b last
        (.error ⟨fault, some (.of (b + 1) line)⟩ (after.unwind checkpoint))

/-- A call that is followed goes through its lines until it returns or something `Breaks` it. -/
theorem follow_ends {outcome : Outcome (Option Address)}
    (hf : follow program interrupt checkpoint depth fuel polls a engine = some outcome) :
    ∃ n b last, Underway program depth n a engine b last ∧
      (last.store.flow.calls.height ≤ depth ∧ outcome = .ok none last ∨
        depth < last.store.flow.calls.height ∧
          Breaks program interrupt checkpoint (polls + n) b last outcome) := by
  -- the cases are those of `follow`, in its order
  induction fuel generalizing polls a engine with
  | zero => simp [follow] at hf
  | succ fuel ih =>
    rw [follow] at hf
    by_cases hback : engine.store.flow.calls.height ≤ depth
    · rw [if_pos hback] at hf
      cases hf
      exact ⟨0, a, engine, .refl, .inl ⟨hback, rfl⟩⟩
    rw [if_neg hback] at hf
    have hopen : depth < engine.store.flow.calls.height := Nat.lt_of_not_le hback
    by_cases hi : interrupt polls = true
    · simp only [hi, if_true] at hf
      cases hf
      exact ⟨0, a, engine, .refl, .inr ⟨hopen, .interrupted hi⟩⟩
    simp only [hi, Bool.false_eq_true, if_false] at hf
    cases hl : program.line? (a + 1) with
    | none =>
      simp only [hl] at hf
      cases hf
      exact ⟨0, a, engine, .refl, .inr ⟨hopen, .missing hl⟩⟩
    | some line =>
      simp only [hl] at hf
      cases he : execute line (a + 1) engine with
      | error stop after =>
        simp only [he] at hf
        obtain ⟨fault, rfl, -⟩ := execute_eq_error_iff.1 he
        cases hf
        exact ⟨0, a, engine, .refl, .inr ⟨hopen, .fails hl he⟩⟩
      | ok b between =>
        simp only [he] at hf
        obtain ⟨n, c, last, hu, hend⟩ := ih hf
        rw [Nat.add_right_comm, Nat.add_assoc] at hend
        exact ⟨n + 1, c, last, .step (Nat.ne_of_gt hopen) hl he hu, hend⟩

/-- The line of `direct` fails, or it succeeds and `follow` goes on. -/
theorem direct_cases {outcome : Outcome (Option Address)}
    (hd : direct program interrupt fuel line engine = some outcome) :
    (∃ next first, execute line (UInt64.ofNat program.size) engine = .ok next first ∧
      follow program interrupt engine.store.checkpoint engine.store.flow.calls.height fuel 0 next
        first = some outcome) ∨
      ∃ fault after, execute line (UInt64.ofNat program.size) engine =
          .error (fault.stop (UInt64.ofNat program.size)) after ∧
        outcome = .error (.ofFault fault) (after.unwind engine.store.checkpoint) := by
  unfold direct at hd
  dsimp only at hd
  cases he : execute line (UInt64.ofNat program.size) engine with
  | error stop after =>
    simp only [he] at hd
    obtain ⟨fault, rfl, -⟩ := execute_eq_error_iff.1 he
    cases hd
    exact .inr ⟨fault, after, rfl, rfl⟩
  | ok next first =>
    simp only [he] at hd
    exact .inl ⟨next, first, rfl, hd⟩

/-! ## The return -/

/-- **Calls and returns are balanced.** Let `execute` succeed on a call at `c`, and let lines of any
program follow that succeed (`Underway`). When the number of open calls is for the first time what
it was before, the `flow` and the scopes are what they were and the cursor is at `c`. Both a run and
`follow` go on with the line after `c`. -/
theorem return_restores (hs : engine.store.flow.suspended = false)
    (hk : engine.store.classify line.tokens = .ok .call)
    (he : execute line c engine = .ok next first)
    (hu : Underway program engine.store.flow.calls.height n next first back last)
    (hback : last.store.flow.calls.height = engine.store.flow.calls.height) :
    last.store.flow = engine.store.flow ∧ last.store.vars.scopes = engine.store.vars.scopes ∧
      back = c ∧ Leads program n (next + 1) first (c + 1) last ∧
      ∀ interrupt checkpoint depth fuel polls, depth ≤ engine.store.flow.calls.height →
        (∀ k < n, interrupt (polls + k) = false) →
        follow program interrupt checkpoint depth (n + fuel) polls next first =
          follow program interrupt checkpoint depth fuel (polls + n) c last := by
  obtain ⟨step, hx, -, -⟩ := execute_eq_ok_iff.1 he
  obtain ⟨invocation, hentered⟩ := hx.entered hs hk
  have hstands : first.store.Stands (.within engine.store.control ⟨invocation.name, c⟩) :=
    hentered ▸ engine.store.stands_entered invocation c
  rcases hu.stands_or_returned hstands with hinside | hreturned
  · exact absurd hback (Nat.ne_of_gt hinside.height_lt)
  · obtain ⟨hflow, hscopes⟩ := Store.flow_eq_of_control_eq hreturned.control_eq
    obtain rfl : back = c := hreturned.next_eq
    exact ⟨hflow, hscopes, rfl, hu.leads, fun _ _ _ _ _ hdepth hgo =>
      hu.follow_eq hstands hdepth hgo⟩

/-- A method that calls itself and returns where a definition inside it ends. Called with a large
number it fails in a loop and a branch. -/
def descent : Program :=
  .parse ("METHOD f(n)\nIF n > 2\nWHILE 1 < 2\nx = n / 0\nENDWHILE\nENDIF\n" ++
    "IF n > 0\nm = n - 1\nf(m)\nENDIF\nMETHOD g()\nENDMETHOD\nENDMETHOD\nf(3)\n")

/-- After a run that failed, a call that calls itself twice and returns three times. -/
theorem return_restores_descent : ∃ (engine first last : Engine) (next back : Address) (n : Nat),
    engine.store.flow.frames.toList =
        [⟨.method, .executing⟩, ⟨.branch, .executing⟩, ⟨.loop, .executing⟩] ∧
      engine.store.classify (Line.ofText "f(2)").tokens = .ok .call ∧
      execute (.ofText "f(2)") (UInt64.ofNat descent.size) engine = .ok next first ∧
      Underway descent engine.store.flow.calls.height n next first back last ∧
      last.store.flow.calls.height = engine.store.flow.calls.height ∧
      last.store.flow = engine.store.flow ∧ last.store.vars.scopes = engine.store.vars.scopes ∧
      back = UInt64.ofNat descent.size ∧
      Leads descent n (next + 1) first (UInt64.ofNat descent.size + 1) last := by
  have hrun : (run descent 40 .initial).map (fun outcome =>
      (outcome.engine.store.flow.frames.toList, outcome.engine.store.flow.calls.height,
        outcome.engine.store.flow.suspended,
        (outcome.engine.store.classify (Line.ofText "f(2)").tokens).toOption)) =
      some ([⟨.method, .executing⟩, ⟨.branch, .executing⟩, ⟨.loop, .executing⟩], 1, false,
        some .call) := by
    decide +kernel
  obtain ⟨failed, hfailed, hstart⟩ := Option.map_eq_some_iff.1 hrun
  simp only [Prod.mk.injEq] at hstart
  obtain ⟨hframes, hheight, hs, hcall⟩ := hstart
  have hk : failed.engine.store.classify (Line.ofText "f(2)").tokens = .ok .call := by
    cases hc : failed.engine.store.classify (Line.ofText "f(2)").tokens with
    | error fault => simp [hc, Except.toOption] at hcall
    | ok command => simpa [hc, Except.toOption] using hcall
  have hdirect : ((run descent 40 .initial).bind fun outcome =>
      direct descent (fun _ => false) 60 (.ofText "f(2)") outcome.engine).map (fun outcome =>
        (outcome.fault?, outcome.engine.store.flow.calls.height)) = some (none, 1) := by
    decide +kernel
  rw [hfailed, Option.bind_some] at hdirect
  obtain ⟨outcome, houtcome, hend⟩ := Option.map_eq_some_iff.1 hdirect
  obtain ⟨hnone, hback⟩ := Prod.mk.inj hend
  rcases direct_cases houtcome with ⟨next, first, he, hf⟩ | ⟨fault, after, -, rfl⟩
  · obtain ⟨n, back, last, hu, ⟨-, rfl⟩ | ⟨-, hbreaks⟩⟩ := follow_ends hf
    · have hsame : last.store.flow.calls.height = failed.engine.store.flow.calls.height :=
        hback.trans hheight.symm
      obtain ⟨hflow, hscopes, hcursor, hleads, -⟩ := return_restores hs hk he hu hsame
      exact ⟨failed.engine, first, last, next, back, n, hframes, hk, he, hu, hsame, hflow, hscopes,
        hcursor, hleads⟩
    · cases hbreaks with
      | interrupted hi => cases hi
      | missing _ => cases hnone
      | fails _ _ => cases hnone
  · cases hnone

end Engine

end Sketch
