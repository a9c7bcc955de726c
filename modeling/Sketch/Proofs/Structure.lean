import Sketch.Proofs.Evaluation

/-!
# Runs of structured programs

The cursor and the stacks of a run follow the structure of a program. Main statement:
`Block.run_agrees_eval`, a run of a well nested program ends as the evaluation of its block ends,
and the only other end is `outOfMemory`.

The proof is by induction on the bound of the evaluation (`Block.simulates`), with one lemma for
each kind of line and construct. A block stands in a `Context`, which says what is open around it,
and leaves it as it was; only a definition directly in a called method ends elsewhere, after the
line of the call (`Context.Lands`).
-/

namespace Sketch

namespace Block

open Engine

variable {program : Program} {a : Address} {flow : Flow} {state after : State} {block : Block}
  {tokens : List String}

/-! ## Where a block stands -/

/-- Where a block is evaluated: directly in the method that a call has just opened, or elsewhere. -/
inductive Context where
  /-- with this open, and not directly in the block of a called method -/
  | within (flow : Flow)
  /-- in the block of a method, called while this was open -/
  | called (flow : Flow) (call : Call)

namespace Context

variable {context : Context} {depth : Nat}

/-- Whether a definition in the block returns from a call. -/
def direct : Context → Bool
  | .within _ => false
  | .called _ _ => true

/-- What is open while the block is executed. -/
def opened : Context → Flow
  | .within flow => flow
  | .called flow call => flow.called call

/-- The block is executed, with a scope for the call if it is in a called method. -/
def Fits (depth : Nat) : Context → Prop
  | .within flow => flow.suspended = false ∧ flow.top? ≠ some ⟨.method, .executing⟩
  | .called _ _ => 0 < depth

/-- A context that `Fits` is not `suspended`. -/
theorem Fits.suspended_eq (h : context.Fits depth) : context.opened.suspended = false := by
  cases context with
  | within flow => exact h.1
  | called flow call => rfl

/-- Where the run is when a block has ended: after its last line, or after the line of the call. -/
inductive Lands (context : Context) (finish : Address) (state : State) :
    Ending → Address → Engine → Prop where
  | finishes : Lands context finish state .finished finish (state.engine context.opened)
  | returns {flow : Flow} {call : Call} (h : context = .called flow call) :
      Lands context finish state .returned (call.returnTo + 1) (state.leave.engine flow)

end Context

/-- A block has ended with a sound state and as many scopes as before. -/
structure Landed (program : Program) (context : Context) (finish : Address) (depth : Nat)
    (ending : Ending) (state : State) (b : Address) (last : Engine) : Prop where
  sound : state.Sound program
  depth_eq : state.depth = depth
  lands : context.Lands finish state ending b last

/-- The run from the first line of a block realizes its evaluation. -/
def Follows (program : Program) (fuel : Nat) (context : Context) (block : Block) (a : Address)
    (state : State) (depth : Nat) : Prop :=
  Realizes program fuel a (state.engine context.opened) (eval fuel context.direct block a state)
    (Landed program context (a + block.span) depth)

/-- Runs realize the evaluations of all blocks of the program with this bound. -/
def Simulates (program : Program) (fuel : Nat) : Prop :=
  ∀ {context : Context} {block : Block} {a : Address} {state : State} {depth : Nat},
    context.Fits depth → program.Holds a block.lines → state.Sound program →
    state.depth = depth → Follows program fuel context block a state depth

section Simulation

variable {context : Context} {rest body : Block} {fuel depth : Nat} {line opener closer : Line}
  {post : Ending → State → Address → Engine → Prop}

/-- A closer that is reached while its block is executed `Realizes` its check. -/
theorem realizes_closer {construct : Construct} {b c : Address} {outer : Flow}
    {next : Unit → State → Result Ending} (h : state.Sound program) (hs : flow.suspended = false)
    (hl : program.line? b = some closer) (hcloser : closer.keyword? = some (.closes construct))
    (hstep : state.checkCloser construct closer = .ok () →
      Leads program 1 b (state.engine flow) c (after.engine outer))
    (hnext : Realizes program fuel c (after.engine outer) (next () state) post) :
    Realizes program fuel b (state.engine flow)
      ((state.attempt b closer (state.checkCloser construct closer)).andThen next) post := by
  cases hc : state.checkCloser construct closer with
  | error fault => exact .of_fails hl (fails_of_checkCloser h hs hcloser hc)
  | ok _ => exact hnext.of_leads (hstep hc) (by omega)

/-- A branch or a loop whose condition holds `Realizes` the evaluation of its body and then of its
closer. -/
theorem Simulates.pass (ih : Simulates program fuel) {construct : Construct} {c : Address}
    {inner outer : Flow} {next : Unit → State → Result Ending}
    (hin : (Context.within inner).Fits depth) (hbody : program.Holds (a + 1) body.lines)
    (hl : program.line? (a + 1 + body.span) = some closer)
    (hcloser : closer.keyword? = some (.closes construct)) (h : state.Sound program)
    (hd : state.depth = depth)
    (hopen : Leads program 1 a (state.engine outer) (a + 1) (state.engine inner))
    (hclose : ∀ after : State, after.Sound program → after.checkCloser construct closer = .ok () →
      Leads program 1 (a + 1 + body.span) (after.engine inner) c (after.engine outer))
    (hnext : ∀ after : State, after.Sound program → after.depth = depth →
      Realizes program fuel c (after.engine outer) (next () after) post) :
    Realizes program (fuel + 1) a (state.engine outer)
      ((eval fuel false body (a + 1) state).andThen fun _ after =>
        (after.attempt (a + 1 + body.span) closer
          (after.checkCloser construct closer)).andThen next)
      post := by
  refine Realizes.of_leads hopen ((ih hin hbody h hd).andThen ?_) (by omega)
  rintro ending after b last ⟨hsound, hdepth, hlands⟩
  -- a block inside a branch or a loop is not directly in a method, so it does not return
  cases hlands with
  | returns heq => cases heq
  | finishes =>
    exact realizes_closer hsound hin.suspended_eq hl hcloser (hclose after hsound)
      (hnext after hsound hdepth)

/-- A construct whose body is skipped `Realizes` what comes after its closer. -/
theorem realizes_past {c : Address} {inner : Flow} {engine last : Engine} {result : Result Ending}
    (h : state.store.Named) (hs : inner.suspended = true) (hbody : program.Holds (a + 1) body.lines)
    (hopen : Leads program 1 a engine (a + 1) (state.engine inner))
    (hclose : Leads program 1 (a + 1 + body.span) (state.engine inner) c last)
    (hnext : Realizes program fuel c last result post) :
    Realizes program (fuel + 1) a engine result post := by
  rcases skipped h hs hbody with he | ⟨n, hn⟩
  · exact .of_exhausted (he.of_leads hopen)
  · exact hnext.of_leads (hopen.trans (hn.trans hclose)) (by omega)

/-- A run `Follows` the evaluation of a branch: its opener pushes a frame, its body is executed or
skipped, and its closer pops the frame. -/
theorem Simulates.branch (ih : Simulates program fuel) (hf : context.Fits depth)
    {hopener : opener.keyword? = some (.opens .branch)}
    {hcloser : closer.keyword? = some (.closes .branch)}
    (hb : program.Holds a (Block.nest .branch opener hopener body closer hcloser rest).lines)
    (h : state.Sound program) (hd : state.depth = depth) :
    Follows program (fuel + 1) context
      (.nest .branch opener hopener body closer hcloser rest) a state
      depth := by
  obtain ⟨hl, hbody, hlc, hrest⟩ := holds_nest.1 hb
  have hs := hf.suspended_eq
  have hnext : ∀ after : State, after.Sound program → after.depth = depth →
      Follows program fuel context rest (a + 1 + body.span + 1) after depth :=
    fun after hsound hdepth => ih hf hrest hsound hdepth
  rw [Follows, eval, add_span_nest]
  cases hc : state.condition .branch opener with
  | error fault => exact .of_fails hl (fails_of_condition h hs hopener (by decide) hc)
  | ok condition =>
    rcases leads_of_branch h hs hl hopener hc with he | hopen
    · exact .of_exhausted he
    have hinner := context.opened.suspended_branching condition
    simp only [State.attempt_ok, Result.andThen_ok]
    cases hholds : condition.holds with
    | true =>
      rw [if_pos rfl]
      rw [hholds] at hinner
      -- the body is evaluated on a smaller bound, inside the frame of the branch
      refine ih.pass ⟨hinner, by simp [Flow.branching, Flow.top?]⟩ hbody hlc hcloser h hd hopen ?_
        hnext
      exact fun after hsound hcheck => leads_of_endBranch hsound hlc hcloser fun _ => hcheck
    | false =>
      rw [if_neg Bool.false_ne_true]
      rw [hholds] at hinner
      -- the body is skipped, and the closer takes the frame away without a check
      refine realizes_past h.named hinner hbody hopen ?_ (hnext state h hd)
      refine leads_of_endBranch h hlc hcloser fun ht => ?_
      rw [hholds] at ht
      cases ht

/-- A run `Follows` the evaluation of a loop: after a pass the header comes next again, with the
same block to evaluate. -/
theorem Simulates.loop (ih : Simulates program fuel) (hf : context.Fits depth)
    {hopener : opener.keyword? = some (.opens .loop)}
    {hcloser : closer.keyword? = some (.closes .loop)}
    (hb : program.Holds a (Block.nest .loop opener hopener body closer hcloser rest).lines)
    (h : state.Sound program) (hd : state.depth = depth) :
    Follows program (fuel + 1) context (.nest .loop opener hopener body closer hcloser rest) a state
      depth := by
  obtain ⟨hl, hbody, hlc, hrest⟩ := holds_nest.1 hb
  have hs := hf.suspended_eq
  have hagain : ∀ after : State, after.Sound program → after.depth = depth →
      Follows program fuel context (.nest .loop opener hopener body closer hcloser rest) a after
        depth :=
    fun after hsound hdepth => ih hf hb hsound hdepth
  rw [Follows, eval]
  cases hc : state.condition .loop opener with
  | error fault => exact .of_fails hl (fails_of_condition h hs hopener (by decide) hc)
  | ok condition =>
    rcases leads_of_loop h hs hl hopener hc with he | hopen
    · exact .of_exhausted he
    have hinner := context.opened.suspended_looping condition a
    simp only [State.attempt_ok, Result.andThen_ok]
    cases hholds : condition.holds with
    | true =>
      rw [if_pos rfl]
      rw [hholds] at hinner
      -- after the body the whole loop is evaluated again, on a smaller bound
      refine ih.pass ⟨hinner, by simp [Flow.looping, Flow.top?]⟩ hbody hlc hcloser h hd hopen ?_
        hagain
      exact fun after hsound hcheck => leads_of_endLoop hsound hlc hcloser hholds hcheck
    | false =>
      rw [if_neg Bool.false_ne_true, add_span_nest]
      rw [hholds] at hinner
      exact realizes_past h.named hinner hbody hopen (leads_past_loop h hlc hcloser hholds)
        (ih hf hrest h hd)

/-- A run `Follows` the evaluation of a definition: its header registers the method, its body is
skipped, and its closer records the end. -/
theorem Simulates.method (ih : Simulates program fuel) (hf : context.Fits depth)
    {hopener : opener.keyword? = some (.opens .method)}
    {hcloser : closer.keyword? = some (.closes .method)}
    (hb : program.Holds a (Block.nest .method opener hopener body closer hcloser rest).lines)
    (h : state.Sound program) (hd : state.depth = depth) :
    Follows program (fuel + 1) context
      (.nest .method opener hopener body closer hcloser rest) a state
      depth := by
  obtain ⟨hl, hbody, hlc, hrest⟩ := holds_nest.1 hb
  have hs := hf.suspended_eq
  rw [Follows, eval, add_span_nest]
  cases hdef : state.defined opener a ⟨body, closer, hcloser⟩ with
  | error fault => exact .of_fails hl (fails_of_defined h hs hopener hdef)
  | ok after =>
    have hsound : after.Sound program := h.defined hdef hbody hlc
    have hdepth : after.depth = depth := (State.depth_of_defined hdef).trans hd
    rcases leads_of_defined h hs hl hopener hdef with
      he | ⟨entered, name, hopen, hnamed, hcanvas, hclosed⟩
    · exact .of_exhausted he
    have hskips : (context.opened.defining name).suspended = true := rfl
    -- the closing line ends the definition, and then a call if the definition stands in its method
    have hclose : ∀ {next : Address} {last : Store},
        Store.Leaves (a + 1 + body.span) (after.engine context.opened).store next last →
        Leads program 1 (a + 1 + body.span) (entered.engine (context.opened.defining name))
          (next + 1) ⟨last, after.canvas⟩ := by
      intro next last hleaves
      have hclassify : (entered.engine (context.opened.defining name)).store.classify
          closer.tokens = .ok (.keyword (.closes .method)) := hnamed.classify_line_iff.2 hcloser
      rw [← hcanvas]
      exact .of_executes hlc (.skips (Line.isEmpty_of_keyword? hcloser) hskips
        (.endsDefinition hclassify rfl (hclosed ▸ hleaves)))
    cases context with
    | within flow =>
      rw [State.attempt_ok, Result.andThen_ok, Context.direct, if_neg Bool.false_ne_true]
      have hstays := hclose (Store.Leaves.stays hf.2)
      exact realizes_past hnamed hskips hbody hopen hstays (ih hf hrest hsound hdepth)
    | called flow call =>
      rw [State.attempt_ok, Result.andThen_ok, Context.direct, if_pos rfl]
      have hpositive : 0 < after.depth := hdepth ▸ hf
      have hreturns := hclose (State.leaves_of_returns hpositive)
      exact realizes_past hnamed hskips hbody hopen hreturns
        (.of_ok ⟨hsound, hdepth, .returns rfl⟩)

/-- A run `Follows` the evaluation of a call: it goes through the block of the method and on after
the line of the call. -/
theorem Simulates.call (ih : Simulates program fuel) (hf : context.Fits depth)
    {invocation : Invocation} (hl : program.line? a = some line) (hnonempty : line.isEmpty = false)
    (hrest : program.Holds (a + 1) rest.lines) (h : state.Sound program) (hd : state.depth = depth)
    (hi : state.store.interpret line.tokens = .ok (.call, tokens))
    (hr : state.store.findCall tokens = .ok invocation) :
    Realizes program (fuel + 1) a (state.engine context.opened)
      ((evalCall (eval fuel true) invocation state).andThen fun _ after =>
        eval fuel context.direct rest (a + 1) after)
      (Landed program context (a + 1 + rest.span) depth) := by
  have hfound : state.methods.find? invocation.name = some invocation.method := by
    obtain ⟨call, values, -, hm, -, -, heq⟩ := Store.findCall_eq_ok_iff.1 hr
    rw [heq]
    exact hm
  obtain ⟨body, hbody, hlines, hcloser⟩ := h.bodies _ _ hfound
  rcases leads_of_call hf.suspended_eq hl hnonempty hi hr with he | hopen
  · exact .of_exhausted he
  let inner : Context := .called context.opened ⟨invocation.name, a⟩
  have hin : inner.Fits (depth + 1) := Nat.succ_pos depth
  have hentered : (state.enter invocation.scope).depth = depth + 1 := by
    rw [State.depth_enter, hd]
  -- after the call has returned, its scope is left and the next line follows
  have hnext : ∀ {after : State}, after.Sound program → after.depth = depth + 1 →
      Follows program fuel context rest (a + 1) after.leave depth := by
    intro after hsound hdepth
    have hpositive : 0 < after.depth := by omega
    have hleave := State.depth_leave hpositive
    exact ih hf hrest (hsound.leave hpositive) (by omega)
  rw [evalCall, hbody, Result.andThen_assoc]
  refine Realizes.of_leads hopen ((ih hin hlines (h.enter hr) hentered).andThen ?_) (by omega)
  rintro ending after b last ⟨hsound, hdepth, hlands⟩
  have hpositive : 0 < after.depth := by omega
  cases hlands with
  | returns heq =>
    obtain ⟨rfl, rfl⟩ := Context.called.inj heq
    exact hnext hsound hdepth
  | finishes =>
    rw [Result.andThen_assoc]
    refine realizes_closer hsound hin.suspended_eq hcloser body.hcloser ?_ (hnext hsound hdepth)
    intro hcheck
    obtain ⟨closing, hi, ha⟩ := interpret_of_checkCloser hsound inner.opened body.hcloser hcheck
    exact .of_executes hcloser (.performs (Line.isEmpty_of_keyword? body.hcloser) hin.suspended_eq
      hi (.closesMethod ha (State.leaves_of_returns hpositive)))

/-- A run `Follows` the evaluation of a plain line, which draws, assigns or calls (`evalLine`). -/
theorem Simulates.plain (ih : Simulates program fuel) (hf : context.Fits depth)
    {hline : line.isPlain = true} (hb : program.Holds a (Block.plain line hline rest).lines)
    (h : state.Sound program) (hd : state.depth = depth) :
    Follows program (fuel + 1) context (.plain line hline rest) a state depth := by
  obtain ⟨hl, hrest⟩ := hb
  have hs := hf.suspended_eq
  have hnext : ∀ {after : State}, after.Sound program → after.depth = depth →
      Leads program 1 a (state.engine context.opened) (a + 1) (after.engine context.opened) →
      Realizes program (fuel + 1) a (state.engine context.opened)
        (eval fuel context.direct rest (a + 1) after)
        (Landed program context (a + 1 + rest.span) depth) :=
    fun hsound hdepth hstep => (ih hf hrest hsound hdepth).of_leads hstep (by omega)
  -- every line but a call is one step of the run, and the rest of the block follows
  rw [Follows, eval, evalLine, add_span_plain]
  by_cases hempty : line.isEmpty = true
  · rw [if_pos hempty]
    exact hnext h hd (.of_executes hl (.blank hempty))
  rw [if_neg hempty]
  have hnonempty : line.isEmpty = false := by simpa using hempty
  cases hi : state.store.interpret line.tokens with
  | error fault => exact .of_fails hl (.interprets hnonempty hs hi)
  | ok result =>
    obtain ⟨command, tokens⟩ := result
    have hi' : (state.engine context.opened).store.interpret line.tokens =
        .ok (command, tokens) := hi
    simp only [State.attempt_ok, Result.andThen_ok]
    cases command with
    | assignment =>
      cases ha : state.assigned tokens with
      | error fault =>
        exact .of_fails hl (.performs hnonempty hs hi' (State.performFails_of_assigned ha))
      | ok after =>
        refine hnext (h.assigned ha) ((State.depth_of_assigned ha).trans hd) ?_
        obtain ⟨assignment, value, vars, hp, he, hv, rfl⟩ := State.assigned_eq_ok ha
        exact .of_executes hl (.performs hnonempty hs hi' (.assigns hp he hv))
    | call =>
      cases hr : state.store.findCall tokens with
      | error fault =>
        have hread := Store.findCall_eq_error_iff.1 hr
        exact .of_fails hl (.performs hnonempty hs hi' (.checks (map_eq_error_iff.2 hread)))
      | ok invocation => exact ih.call hf hl hnonempty hrest h hd hi hr
    | keyword keyword =>
      have hkeyword : line.keyword? = some keyword :=
        h.named.classify_line_iff.1 (Store.interpret_eq_ok_iff.1 hi).1
      rcases keyword with tool | construct | construct
      · cases hp : Instruction.parse tool tokens.tail with
        | error fault =>
          simp only [Instruction.ofLine, hp]
          exact .of_fails hl (.performs hnonempty hs hi' (.checks (map_eq_error_iff.2 hp)))
        | ok instruction =>
          simp only [Instruction.ofLine, hp]
          exact hnext { h with } hd (.of_step hl (.performs hnonempty hs hi' (.draws hp)))
      -- a plain line has no keyword of a block
      · exact absurd hkeyword (Line.keyword?_ne_of_isPlain hline rfl)
      · exact absurd hkeyword (Line.keyword?_ne_of_isPlain hline rfl)

/-- A run `Simulates` the evaluation of blocks with every bound. -/
theorem simulates (program : Program) (fuel : Nat) : Simulates program fuel := by
  induction fuel with
  | zero => exact fun _ _ _ _ => .inr rfl
  | succ fuel ih =>
    intro context block a state depth hf hb h hd
    match block with
    | .done => exact .of_ok ⟨h, hd, by simpa [span, lines] using .finishes⟩
    | .plain line hline rest => exact ih.plain hf hb h hd
    | .nest .branch opener hopener body closer hcloser rest => exact ih.branch hf hb h hd
    | .nest .loop opener hopener body closer hcloser rest => exact ih.loop hf hb h hd
    | .nest .method opener hopener body closer hcloser rest => exact ih.method hf hb h hd

end Simulation

/-! ## Whole programs -/

/-- The end of a run that goes with the end of an evaluation: the same variables, methods and
canvas, and the same failure at the same line or nothing left open. -/
def Agrees : EStateM.Result Failure State Ending → Outcome Unit → Prop
  | .ok _ state, outcome => outcome = .ok () (state.engine .empty)
  | .error failure state, outcome => ∃ flow, outcome = .error failure (state.engine flow)

/-- The run of a program `Realizes` the evaluation of its block. -/
theorem realizes_run (hlines : program.lines.toList = block.lines)
    (hsize : program.size < UInt64.size)
    (fuel : Nat) (engine : Engine) :
    Realizes program fuel 0 engine.start (eval fuel false block 0 (.initial engine.canvas))
      (Landed program (.within .empty) (UInt64.ofNat program.size) 0) := by
  have hfits : (Context.within Flow.empty).Fits 0 := ⟨rfl, nofun⟩
  have hholds : program.Holds 0 block.lines := hlines ▸ program.holds_lines hsize
  have hspan : 0 + block.span = UInt64.ofNat program.size := by
    rw [UInt64.zero_add, span, ← hlines]
    rfl
  have h := simulates program fuel hfits hholds (.initial program engine.canvas) rfl
  rw [Follows, hspan] at h
  exact h

/-- A run that `Realizes` a result ends with it or with `outOfMemory`. -/
theorem exists_run {result : EStateM.Result Failure State Ending} {fuel : Nat} {engine : Engine}
    (hsize : program.size < UInt64.size)
    (h : Realizes program fuel a engine (some result)
      (Landed program (.within .empty) (UInt64.ofNat program.size) 0)) :
    ∃ n outcome, runFrom program n a engine = some outcome ∧
      (Agrees result outcome ∨ outcome.fault?.map Fault.kind = some .outOfMemory) := by
  rcases h with ⟨n, failure, last, hr, hk⟩ | h
  · exact ⟨n, _, hr, .inr (congrArg some hk)⟩
  match result with
  | .error failure state =>
    obtain ⟨n, flow, hr⟩ := h
    exact ⟨n, _, hr, .inl ⟨flow, rfl⟩⟩
  | .ok ending state =>
    obtain ⟨n, b, last, hleads, -, -, hlands⟩ := h
    cases hlands with
    | returns heq => cases heq
    | finishes =>
      refine ⟨n + 1, .ok () (state.engine .empty), (hleads 1).trans ?_, .inl rfl⟩
      rw [runFrom, program.line?_size hsize]
      rfl

/-- **Structured semantics.** `run` on the lines of a `Block` and `eval` on the block agree, if
every line has an address. A run that ends with anything but `outOfMemory` ends as some evaluation
does (`Agrees`), and where the evaluation ends, the run ends alike or with `outOfMemory`. -/
theorem run_agrees_eval (hlines : program.lines.toList = block.lines)
    (hsize : program.size < UInt64.size) (engine : Engine) :
    (∀ fuel outcome, run program fuel engine = some outcome →
      outcome.fault?.map Fault.kind ≠ some .outOfMemory →
      ∃ bound result, eval bound false block 0 (.initial engine.canvas) = some result ∧
        Agrees result outcome) ∧
    (∀ bound result, eval bound false block 0 (.initial engine.canvas) = some result →
      ∃ fuel outcome, run program fuel engine = some outcome ∧
        (Agrees result outcome ∨ outcome.fault?.map Fault.kind = some .outOfMemory)) := by
  refine ⟨?_, ?_⟩
  · intro fuel outcome hrun hroom
    have h := realizes_run hlines hsize fuel engine
    cases heval : eval fuel false block 0 (.initial engine.canvas) with
    | none =>
      -- the evaluation cannot last longer than the run
      rw [heval] at h
      rcases h with ⟨n, failure, last, hr, hk⟩ | hr
      · rw [runFrom_unique hrun hr] at hroom
        exact absurd (congrArg some hk) hroom
      · rw [run, hr] at hrun
        cases hrun
    | some result =>
      rw [heval] at h
      obtain ⟨n, other, hr, hagrees⟩ := exists_run hsize h
      obtain rfl := runFrom_unique hrun hr
      exact ⟨fuel, result, heval, hagrees.resolve_right hroom⟩
  · intro bound result heval
    have h := realizes_run hlines hsize bound engine
    rw [heval] at h
    exact exists_run hsize h

/-- A method that draws smaller and smaller circles by calling itself, called in a loop. Every call
ends with the definition in its block, so that the circle after it is never drawn. -/
def rings : Block :=
  .nest .method (.ofText "METHOD f(n)") (by decide)
    (.nest .branch (.ofText "IF n > 0") (by decide)
      (.plain (.ofText "CIRCLE n") (by decide)
        (.plain (.ofText "m = n - 1") (by decide)
          (.plain (.ofText "f(m)") (by decide) .done)))
      (.ofText "ENDIF") (by decide)
      (.nest .method (.ofText "METHOD g()") (by decide) .done (.ofText "ENDMETHOD") (by decide)
        (.plain (.ofText "CIRCLE 9") (by decide) .done)))
    (.ofText "ENDMETHOD") (by decide)
    (.plain (.ofText "i = 1") (by decide)
      (.nest .loop (.ofText "WHILE i > 0") (by decide)
        (.plain (.ofText "f(i)") (by decide)
          (.plain (.ofText "i = i - 1") (by decide) .done))
        (.ofText "ENDWHILE") (by decide) .done))

/-- The program with the lines of `rings`. -/
def ringsProgram : Program :=
  ⟨rings.lines.toArray⟩

/-- A program with a method and a loop draws one circle, as its evaluation does. -/
theorem run_agrees_eval_rings :
    ringsProgram.lines.toList = rings.lines ∧ ringsProgram.size < UInt64.size ∧
      ∃ outcome, run ringsProgram 40 .initial = some outcome ∧ outcome.fault? = none ∧
        outcome.engine.canvas.picture.size = 1 ∧
        ∃ bound result, eval bound false rings 0 (.initial Engine.initial.canvas) = some result ∧
          Agrees result outcome := by
  have hlines : ringsProgram.lines.toList = rings.lines := rfl
  have hsize : ringsProgram.size < UInt64.size := by decide
  have hrun : (run ringsProgram 40 .initial).map (fun outcome =>
      (outcome.fault?, outcome.engine.canvas.picture.size)) = some (none, 1) := by
    decide +kernel
  obtain ⟨outcome, houtcome, hend⟩ := Option.map_eq_some_iff.1 hrun
  obtain ⟨hfault, hpicture⟩ := Prod.mk.inj hend
  refine ⟨hlines, hsize, outcome, houtcome, hfault, hpicture, ?_⟩
  refine (run_agrees_eval hlines hsize .initial).1 40 outcome houtcome ?_
  rw [hfault]
  nofun

end Block

end Sketch
