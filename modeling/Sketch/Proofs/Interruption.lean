import Sketch.Proofs.Reachable

/-!
# Interrupted calls at the prompt

`follow` goes through a call at the prompt line by line and polls `interrupt` before each line.
`Engine.poll?` is where the call stands at a poll, if all polls before were answered with no. Main
statement: `Engine.direct_interrupted`, a call that is interrupted has done exactly what the same
call has done up to that poll if it is never interrupted, and has only closed what it had opened; a
call that is over before the poll is not affected by its answer.

Both are statements about two calls that are answered alike for some time. They go through the same
lines, so each is compared with what `pollFrom?` goes through (`follow_of_pollFrom?`,
`exists_follow_of_pollFrom?_eq_none`).
-/

namespace Sketch

namespace Engine

variable {program : Program} {interrupt : Nat → Bool} {checkpoint : Checkpoint}
  {depth n fuel polls : Nat} {a b : Address} {line : Line} {engine there : Engine}

/-! ## The questions of a call -/

/-- The cursor and the engine at the question after `n` others, if a call that is followed comes to
it: it has not returned before, and no line was missing or has failed. -/
def pollFrom? (program : Program) (depth : Nat) :
    (n : Nat) → Address → Engine → Option (Address × Engine)
  | 0, cursor, engine =>
    if engine.store.flow.calls.height ≤ depth then none else some (cursor, engine)
  | n + 1, cursor, engine =>
    if engine.store.flow.calls.height ≤ depth then none
    else
      match program.line? (cursor + 1) with
      | none => none
      | some line =>
        match execute line (cursor + 1) engine with
        | .ok next engine => pollFrom? program depth n next engine
        | .error _ _ => none

/-- The cursor and the engine at the question after `n` others of a line at the prompt. -/
def poll? (program : Program) (line : Line) (engine : Engine) (n : Nat) :
    Option (Address × Engine) :=
  match execute line (UInt64.ofNat program.size) engine with
  | .ok next after => pollFrom? program engine.store.flow.calls.height n next after
  | .error _ _ => none

/-! ## Calls that are answered alike -/

/-- The poll that `pollFrom?` finds is inside the call, and `follow` comes to it whenever all polls
before were answered with no. -/
theorem follow_of_pollFrom? (h : pollFrom? program depth n a engine = some (b, there))
    (hgo : ∀ k < n, interrupt (polls + k) = false) :
    depth < there.store.flow.calls.height ∧
      follow program interrupt checkpoint depth (n + fuel) polls a engine =
        follow program interrupt checkpoint depth fuel (polls + n) b there := by
  fun_induction pollFrom? program depth n a engine generalizing polls with
  | case1 => cases h
  | case2 cursor engine hopen =>
    cases h
    rw [Nat.zero_add, Nat.add_zero]
    exact ⟨Nat.lt_of_not_le hopen, rfl⟩
  | case3 => cases h
  | case4 => cases h
  | case5 n cursor engine hopen line hl next after he ih =>
    obtain ⟨hfirst, hrest⟩ := answers_succ hgo
    have hpolls : polls + n.succ = polls + 1 + n := by omega
    rw [Nat.succ_add, hpolls, follow_of_execute hopen hfirst hl he]
    exact ih h hrest
  | case6 => cases h

/-- If `pollFrom?` finds no such poll, `follow` ends before it, and in the same way whatever its
answer would be. -/
theorem exists_follow_of_pollFrom?_eq_none (h : pollFrom? program depth n a engine = none) :
    ∃ outcome, ∀ interrupt fuel polls, (∀ k < n, interrupt (polls + k) = false) →
      follow program interrupt checkpoint depth (n + fuel + 1) polls a engine = some outcome := by
  -- both go through the same lines as long as the answers are no
  fun_induction pollFrom? program depth n a engine with
  | case1 cursor engine hback =>
    exact ⟨.ok none engine, fun _ _ _ _ => by rw [follow, if_pos hback]⟩
  | case2 => cases h
  | case3 n cursor engine hback =>
    exact ⟨.ok none engine, fun _ _ _ _ => by rw [follow, if_pos hback]⟩
  | case4 n cursor engine hopen hl =>
    refine ⟨.error (.ofFault .bodyMissing) (engine.unwind checkpoint),
      fun interrupt fuel polls hgo => ?_⟩
    obtain ⟨hfirst, -⟩ := answers_succ hgo
    rw [follow, if_neg hopen]
    simp only [hfirst, hl, Bool.false_eq_true, if_false]
  | case5 n cursor engine hopen line hl next after he ih =>
    obtain ⟨outcome, hends⟩ := ih h
    refine ⟨outcome, fun interrupt fuel polls hgo => ?_⟩
    obtain ⟨hfirst, hrest⟩ := answers_succ hgo
    rw [Nat.succ_add, follow_of_execute hopen hfirst hl he]
    exact hends interrupt fuel (polls + 1) hrest
  | case6 n cursor engine hopen line hl stop after he =>
    refine ⟨.error (stop.failure.annotate (cursor + 1) line) (after.unwind checkpoint),
      fun interrupt fuel polls hgo => ?_⟩
    obtain ⟨hfirst, -⟩ := answers_succ hgo
    rw [follow, if_neg hopen]
    simp only [hfirst, hl, he, Bool.false_eq_true, if_false]

/-- If `poll?` finds a poll, `direct` has opened a call and goes on from there. -/
theorem direct_of_poll? (h : poll? program line engine n = some (b, there))
    (hgo : ∀ k < n, interrupt k = false) (fuel : Nat) :
    engine.store.flow.calls.height < there.store.flow.calls.height ∧
      direct program interrupt (n + fuel) line engine =
        follow program interrupt engine.store.checkpoint engine.store.flow.calls.height fuel n b
          there := by
  unfold poll? at h
  unfold direct
  dsimp only
  cases he : execute line (UInt64.ofNat program.size) engine with
  | error stop after => simp [he] at h
  | ok next after =>
    simp only [he] at h ⊢
    have hgo' : ∀ k < n, interrupt (0 + k) = false := by simpa using hgo
    simpa using follow_of_pollFrom? h hgo'

/-- If `poll?` finds no such poll, `direct` ends in the same way whatever its answer would be. -/
theorem exists_direct_of_poll?_eq_none (h : poll? program line engine n = none) :
    ∃ outcome, ∀ interrupt fuel, (∀ k < n, interrupt k = false) →
      direct program interrupt (n + fuel + 1) line engine = some outcome := by
  unfold poll? at h
  unfold direct
  dsimp only
  cases he : execute line (UInt64.ofNat program.size) engine with
  | error stop after =>
    exact ⟨.error stop.failure (after.unwind engine.store.checkpoint), fun _ _ _ => rfl⟩
  | ok next after =>
    simp only [he] at h ⊢
    obtain ⟨outcome, hends⟩ := exists_follow_of_pollFrom?_eq_none h
    exact ⟨outcome, fun interrupt fuel hgo => hends interrupt fuel 0 (by simpa using hgo)⟩

/-! ## Breaking off -/

/-- **A call that is interrupted is the beginning of the call.** In a `Reachable` engine, let the
first `n` polls of `direct` be answered with no and the next one with yes. If there is no such poll,
`direct` ends as if it could not be interrupted. If there is one (`poll?`), it is interrupted before
the line after the cursor, where it stands then if it is never interrupted. Globals, methods and the
canvas are as they are there, and the `flow` and the scopes as they were before the call. -/
theorem direct_interrupted {tolerated : Fault → Prop} (hr : Reachable tolerated engine)
    (program : Program) (line : Line) (hgo : ∀ k < n, interrupt k = false)
    (hstop : interrupt n = true) :
    (poll? program line engine n = none → ∃ outcome, ∀ fuel,
      direct program (fun _ => false) (n + fuel + 1) line engine = some outcome ∧
      direct program interrupt (n + fuel + 1) line engine = some outcome) ∧
    ∀ cursor there, poll? program line engine n = some (cursor, there) →
      engine.store.flow.calls.height < there.store.flow.calls.height ∧
      (∀ fuel, direct program (fun _ => false) (n + fuel) line engine =
        follow program (fun _ => false) engine.store.checkpoint engine.store.flow.calls.height
          fuel n cursor there) ∧
      ∃ after, (∀ fuel, direct program interrupt (n + fuel + 1) line engine =
          some (.ok (some (cursor + 1)) after)) ∧
        after.store.vars.globals = there.store.vars.globals ∧
        after.store.methods = there.store.methods ∧ after.canvas = there.canvas ∧
        after.store.flow = engine.store.flow ∧
        after.store.vars.scopes = engine.store.vars.scopes := by
  have hnever : ∀ k < n, (fun _ : Nat => false) k = false := fun _ _ => rfl
  constructor
  · intro hover
    obtain ⟨outcome, hends⟩ := exists_direct_of_poll?_eq_none hover
    exact ⟨outcome, fun fuel => ⟨hends _ fuel hnever, hends interrupt fuel hgo⟩⟩
  · intro cursor there hpoll
    obtain ⟨hopen, -⟩ := direct_of_poll? hpoll hgo 0
    have hbroken : ∀ fuel, direct program interrupt (n + fuel + 1) line engine =
        some (.ok (some (cursor + 1)) (there.unwind engine.store.checkpoint)) := by
      intro fuel
      rw [Nat.add_assoc, (direct_of_poll? hpoll hgo (fuel + 1)).2, follow,
        if_neg (Nat.not_le_of_gt hopen)]
      simp only [hstop, if_true]
    refine ⟨hopen, fun fuel => (direct_of_poll? hpoll hnever fuel).2,
      there.unwind engine.store.checkpoint, hbroken, rfl, rfl, rfl, ?_⟩
    -- a line that is interrupted is cut back to what was open before it
    obtain ⟨lost, hregular, -⟩ := hr.regular
    rcases direct_control hregular (hbroken 0) with hcontrol | ⟨_, _, _, -, -, hfinished⟩
    · exact Store.flow_eq_of_control_eq hcontrol
    · cases hfinished

/-- After a run that failed: a call with 33 polls is interrupted at the 27th of them, in the third
call that is open, and it cannot be interrupted after the last one. -/
theorem direct_interrupted_descent : ∃ engine : Engine, Reachable (fun _ => True) engine ∧
    engine.store.flow.frames.toList =
      [⟨.method, .executing⟩, ⟨.branch, .executing⟩, ⟨.loop, .executing⟩] ∧
    (∃ there after, poll? descent (.ofText "f(2)") engine 26 = some (10, there) ∧
      there.store.flow.calls.height = 4 ∧
      direct descent (fun polls => 26 ≤ polls) 27 (.ofText "f(2)") engine =
        some (.ok (some 11) after) ∧
      after.store.vars.globals = there.store.vars.globals ∧ after.store.flow = engine.store.flow) ∧
    poll? descent (.ofText "f(2)") engine 33 = none ∧
    ∃ outcome, direct descent (fun _ => false) 34 (.ofText "f(2)") engine = some outcome ∧
      direct descent (fun polls => 33 ≤ polls) 34 (.ofText "f(2)") engine = some outcome := by
  have hrun : (run descent 40 .initial).map (fun outcome =>
      (outcome.engine.store.flow.frames.toList,
        (poll? descent (.ofText "f(2)") outcome.engine 26).map fun poll =>
          (poll.1, poll.2.store.flow.calls.height))) =
      some ([⟨.method, .executing⟩, ⟨.branch, .executing⟩, ⟨.loop, .executing⟩],
        some (10, 4)) := by
    decide +kernel
  have hlast : (run descent 40 .initial).map (fun outcome =>
      (poll? descent (.ofText "f(2)") outcome.engine 33).isNone) = some true := by
    decide +kernel
  obtain ⟨failed, hfailed, hstart⟩ := Option.map_eq_some_iff.1 hrun
  obtain ⟨hframes, hpoll⟩ := Prod.mk.inj hstart
  obtain ⟨⟨cursor, there⟩, hpoll, hthere⟩ := Option.map_eq_some_iff.1 hpoll
  obtain ⟨rfl, hheight⟩ := Prod.mk.inj hthere
  rw [hfailed, Option.map_some, Option.some.injEq, Option.isNone_iff_eq_none] at hlast
  have hr : Reachable (fun _ => True) failed.engine :=
    Reachable.runFrom (.start .initial) hfailed fun _ _ => trivial
  have hgo : ∀ n k : Nat, k < n → decide (n ≤ k) = false :=
    fun _ _ hk => decide_eq_false (Nat.not_le_of_gt hk)
  obtain ⟨-, hbroken⟩ := direct_interrupted hr descent (.ofText "f(2)") (hgo 26) (by decide)
  obtain ⟨hover, -⟩ := direct_interrupted hr descent (.ofText "f(2)") (hgo 33) (by decide)
  obtain ⟨-, -, after, hd, hglobals, -, -, hflow, -⟩ := hbroken 10 there hpoll
  obtain ⟨outcome, hsame⟩ := hover hlast
  exact ⟨failed.engine, hr, hframes, ⟨there, after, hpoll, hheight, hd 0, hglobals, hflow⟩, hlast,
    outcome, hsame 0⟩

end Engine

end Sketch
