import Sketch.Proofs.Stretches

/-!
# Lines of an evaluation

What an evaluation keeps and what its lines do in a run. A state is sound if the program has the
block of every method of its table (`State.Sound`), so that a call finds its block where the cursor
goes; every change that an evaluation makes keeps it so. While lines are skipped, a run passes a
block as a whole (`Block.skipped`). A line that fails the evaluation fails in the run and leaves the
state as it was, and a header or a call leads to the first line of its block.
-/

namespace Sketch

/-! ## What headers and calls open -/

/-- What is open after the header of a branch. -/
def Flow.branching (flow : Flow) (condition : Condition) : Flow :=
  { flow with frames := flow.frames.cons ⟨.branch, condition.mode⟩ }

/-- What is open after the header of a loop. -/
def Flow.looping (flow : Flow) (condition : Condition) (a : Address) : Flow :=
  { flow with
    frames := flow.frames.cons ⟨.loop, condition.mode⟩
    loops := flow.loops.cons (condition.rewind a) }

/-- The flow is `suspended` in a branch exactly if its condition fails. -/
theorem Flow.suspended_branching (flow : Flow) (condition : Condition) :
    (flow.branching condition).suspended = !condition.holds := by
  cases h : condition.holds <;> simp [branching, suspended, top?, Condition.mode, h]

/-- The flow is `suspended` in a loop exactly if its condition fails. -/
theorem Flow.suspended_looping (flow : Flow) (condition : Condition) (a : Address) :
    (flow.looping condition a).suspended = !condition.holds := by
  cases h : condition.holds <;> simp [looping, suspended, top?, Condition.mode, h]

/-- What is open after a call. -/
def Flow.called (flow : Flow) (call : Call) : Flow :=
  { flow with frames := flow.frames.cons ⟨.method, .executing⟩, calls := flow.calls.cons call }

/-- What is open after the header of a method. -/
def Flow.defining (flow : Flow) (name : String) : Flow :=
  { flow with
    frames := flow.frames.cons ⟨.method, .skipping⟩
    definitions := flow.definitions.cons name }

namespace Block

open Engine

variable {program : Program} {a : Address} {flow : Flow} {state after : State} {block : Block}
  {tokens : List String}

/-! ## Places of blocks -/

/-- The `span` of a block that begins with a plain line. -/
theorem add_span_plain {line : Line} (hline : line.isPlain = true) (rest : Block) :
    a + (Block.plain line hline rest).span = a + 1 + rest.span := by
  simp only [span, lines, List.length_cons, UInt64.ofNat_add]
  grind

/-- The `span` of a block that begins with a nested one. -/
theorem add_span_nest {construct : Construct} {opener closer : Line}
    (hopener : opener.keyword? = some (.opens construct)) (body : Block)
    (hcloser : closer.keyword? = some (.closes construct)) (rest : Block) :
    a + (Block.nest construct opener hopener body closer hcloser rest).span =
      a + 1 + body.span + 1 + rest.span := by
  simp only [span, lines, List.length_cons, List.length_append, UInt64.ofNat_add]
  grind

/-- A program `Holds` a nested block if it holds its opener, its body, its closer and the rest one
after the other. -/
theorem holds_nest {construct : Construct} {opener closer : Line}
    {hopener : opener.keyword? = some (.opens construct)} {body : Block}
    {hcloser : closer.keyword? = some (.closes construct)} {rest : Block} :
    program.Holds a (Block.nest construct opener hopener body closer hcloser rest).lines ↔
      program.line? a = some opener ∧ program.Holds (a + 1) body.lines ∧
        program.line? (a + 1 + body.span) = some closer ∧
        program.Holds (a + 1 + body.span + 1) rest.lines := by
  rw [lines, Program.Holds, Program.holds_append, Program.Holds, span]

/-! ## States and engines -/

namespace State

/-- The names in a state are free, and the program has the block of every method after its
header. -/
structure Sound (program : Program) (state : State) : Prop where
  vars : state.vars.Named
  methods : state.methods.Named
  bodies : ∀ name method, state.methods.find? name = some method →
    ∃ body, state.bodies[name]? = some body ∧
      program.Holds (method.start + 1) body.block.lines ∧
      program.line? (method.start + 1 + body.block.span) = some body.closer

/-- The store of a `Sound` state is `Named`. -/
theorem Sound.named (h : state.Sound program) : state.store.Named :=
  ⟨h.vars, h.methods⟩

/-- In a `Sound` state, `interpret` takes a line with a keyword for that keyword. -/
theorem Sound.command_eq (h : state.Sound program) {line : Line} {keyword : Keyword}
    {command : Command} {tokens : List String} (hk : line.keyword? = some keyword)
    (hi : state.store.interpret line.tokens = .ok (command, tokens)) :
    command = .keyword keyword := by
  have hc : state.store.classify line.tokens = .ok command := (Store.interpret_eq_ok_iff.1 hi).1
  have hkeyword : state.store.classify line.tokens = .ok (.keyword keyword) :=
    h.named.classify_line_iff.2 hk
  rw [hkeyword] at hc
  exact (Except.ok.inj hc).symm

/-- In a `Sound` state, `classify` gives the keyword of a line, whatever is open. -/
theorem Sound.classify_eq (h : state.Sound program) (flow : Flow) {line : Line}
    {keyword : Keyword} (hk : line.keyword? = some keyword) :
    (state.engine flow).store.classify line.tokens = .ok (.keyword keyword) :=
  h.named.classify_line_iff.2 hk

/-- The `initial` state is `Sound`. -/
theorem Sound.initial (program : Program) (canvas : Canvas) : (initial canvas).Sound program where
  vars := .empty
  methods := Store.Named.empty.methods
  bodies name method hm := by simp [State.initial, Methods.empty, Methods.find?] at hm

/-! ### Assignments -/

/-- `State.assigned` succeeds if the assignment is read, evaluated and stored. -/
theorem assigned_eq_ok (ha : state.assigned tokens = .ok after) :
    ∃ assignment value vars, Assignment.parse tokens = .ok assignment ∧
      assignment.evaluate = .ok value ∧ state.vars.store assignment.name value = .ok vars ∧
      after = { state with vars } := by
  simp only [assigned, bind_ok_iff] at ha
  obtain ⟨assignment, hp, value, he, vars, hv, h⟩ := ha
  exact ⟨assignment, value, vars, hp, he, hv, (Except.ok.inj h).symm⟩

/-- Where `State.assigned` fails, so does the command, and with the same fault. -/
theorem performFails_of_assigned {fault : Fault} (ha : state.assigned tokens = .error fault) :
    Store.PerformFails a (state.engine flow).store .assignment tokens fault
      (state.engine flow).store := by
  simp only [assigned, bind_error_iff] at ha
  rcases ha with hp | ⟨assignment, hp, he | ⟨value, he, hv | ⟨vars, hv, h⟩⟩⟩
  · refine .checks ?_
    show (Assignment.parse tokens).map (fun _ => ()) = .error fault
    rw [hp]
    rfl
  · exact .evaluates hp he
  · exact .stores hp he hv
  · cases h

/-- `assigned` keeps the depth. -/
theorem depth_of_assigned (ha : state.assigned tokens = .ok after) : after.depth = state.depth := by
  obtain ⟨assignment, value, vars, -, -, hv, rfl⟩ := assigned_eq_ok ha
  exact Variables.depth_store hv

/-- `Sound` is kept by assignments. -/
theorem Sound.assigned (h : state.Sound program) (ha : state.assigned tokens = .ok after) :
    after.Sound program := by
  obtain ⟨assignment, value, vars, hp, -, hv, rfl⟩ := assigned_eq_ok ha
  obtain ⟨-, -, -, hfree, -⟩ := Assignment.parse_eq_ok_iff.1 hp
  exact { h with vars := h.vars.store hfree hv }

/-! ### Scopes -/

/-- `enter` is one deeper. -/
theorem depth_enter (state : State) (scope : Scope) :
    (state.enter scope).depth = state.depth + 1 := rfl

/-- `Sound` is kept by the opening of a call. -/
theorem Sound.enter (h : state.Sound program) {invocation : Invocation}
    (hr : state.store.findCall tokens = .ok invocation) :
    (state.enter invocation.scope).Sound program :=
  { h with vars := h.vars.enter (h.named.scope hr) }

/-- `leave` takes the innermost scope off. -/
theorem leave_eq (hd : 0 < state.depth) :
    ∃ scope scopes, state.vars.scopes = Stack.cons scope scopes ∧
      state.leave = { state with vars.scopes := scopes } := by
  rcases Stack.eq_empty_or_cons state.vars.scopes with hs | ⟨scope, scopes, hs⟩
  · simp [depth, Variables.depth, hs] at hd
  · refine ⟨scope, scopes, hs, ?_⟩
    have hleave : state.vars.leave = .ok (scope, { state.vars with scopes }) :=
      Variables.leave_eq_ok_iff.2 ⟨scopes, hs, rfl⟩
    rw [leave, hleave]

/-- `leave` is one less deep. -/
theorem depth_leave (hd : 0 < state.depth) : state.leave.depth + 1 = state.depth := by
  obtain ⟨scope, scopes, hs, hl⟩ := leave_eq hd
  simp [depth, Variables.depth, hl, hs]

/-- `Sound` is kept by the return from a call. -/
theorem Sound.leave (h : state.Sound program) (hd : 0 < state.depth) :
    state.leave.Sound program := by
  obtain ⟨scope, scopes, hs, hl⟩ := leave_eq hd
  rw [hl]
  exact { h with vars := h.vars.leave hs }

/-- What `Leaves` a call in the engine is `leave` in the evaluation. -/
theorem leaves_of_returns (hd : 0 < state.depth) {call : Call} :
    Store.Leaves a (state.engine (flow.called call)).store call.returnTo
      (state.leave.engine flow).store := by
  obtain ⟨scope, scopes, hs, hl⟩ := leave_eq hd
  rw [hl]
  exact .returns rfl rfl hs

/-! ### Definitions -/

/-- `State.defined` succeeds if the header is read and registered, and then the method has its end
and its body. -/
theorem defined_eq_ok {opener : Line} {body : Body} (hd : state.defined opener a body = .ok after) :
    ∃ command tokens signature methods,
      state.store.interpret opener.tokens = .ok (command, tokens) ∧
      state.store.readHeader tokens a = .ok signature ∧
      Store.register state.methods signature a = .ok methods ∧
      after = { state with
        methods := methods.close signature.head (a + 1 + body.block.span)
        bodies := state.bodies.insert signature.head body } := by
  simp only [defined, bind_ok_iff] at hd
  obtain ⟨⟨command, tokens⟩, hi, signature, hr, methods, hm, h⟩ := hd
  exact ⟨command, tokens, signature, methods, hi, hr, hm, (Except.ok.inj h).symm⟩

/-- `defined` keeps the depth. -/
theorem depth_of_defined {opener : Line} {body : Body}
    (hd : state.defined opener a body = .ok after) : after.depth = state.depth := by
  obtain ⟨_, _, _, _, -, -, -, rfl⟩ := defined_eq_ok hd
  rfl

/-- After `register` the table has the methods from before and that of the header. -/
theorem find?_of_register {methods : Methods} {signature : Bracketed} {name : String}
    {method : Method} (hr : state.store.readHeader tokens a = .ok signature)
    (hm : Store.register state.methods signature a = .ok methods)
    (hf : methods.find? name = some method) :
    name = signature.head ∧ method.start = a ∨
      name ≠ signature.head ∧ state.methods.find? name = some method := by
  rcases Store.register_cases hr hm with ⟨known, hknown, hstart, rfl⟩ | ⟨-, hinsert⟩
  · -- the header has been met before, at this address
    by_cases hname : name = signature.head
    · obtain rfl : method = known := Option.some.inj (hf.symm.trans (hname ▸ hknown))
      exact .inl ⟨hname, hstart⟩
    · exact .inr ⟨hname, hf⟩
  · rw [Methods.find?_insert hinsert] at hf
    split at hf
    · next hname =>
      cases hf
      exact .inl ⟨hname.symm, rfl⟩
    · next hname => exact .inr ⟨fun h => hname h.symm, hf⟩

/-- `Sound` is kept by the definition of a method whose body follows its header. -/
theorem Sound.defined (h : state.Sound program) {opener : Line} {body : Body}
    (hd : state.defined opener a body = .ok after)
    (hbody : program.Holds (a + 1) body.block.lines)
    (hcloser : program.line? (a + 1 + body.block.span) = some body.closer) :
    after.Sound program := by
  obtain ⟨_, tokens, signature, methods, -, hr, hm, rfl⟩ := defined_eq_ok hd
  refine ⟨h.vars, (Store.Named.register h.methods hr hm).close _ _, ?_⟩
  intro name method hf
  simp only [Methods.find?_close, Option.map_eq_some_iff] at hf
  obtain ⟨old, hold, hmethod⟩ := hf
  have hstart : method.start = old.start := by
    rw [← hmethod]
    split <;> rfl
  simp only [hstart, Std.ExtTreeMap.getElem?_insert, Std.compare_eq_iff_eq]
  rcases find?_of_register hr hm hold with ⟨rfl, hat⟩ | ⟨hne, hbefore⟩
  · rw [hat, if_pos rfl]
    exact ⟨body, rfl, hbody, hcloser⟩
  · rw [if_neg (fun heq => hne heq.symm)]
    exact h.bodies name old hbefore

end State

/-! ## Skipped blocks -/

/-- While the flow is `suspended`, a run `Leads` past a block as a whole or is `Exhausted`. -/
theorem skipped (h : state.store.Named) (hs : flow.suspended = true)
    (hb : program.Holds a block.lines) :
    Exhausted program a (state.engine flow) ∨
      ∃ n, Leads program n a (state.engine flow) (a + block.span) (state.engine flow) := by
  have hnamed : ∀ flow, (state.engine flow).store.Named := fun _ => ⟨h.vars, h.methods⟩
  induction block generalizing flow a with
  | done => exact .inr ⟨0, by simpa [span, lines] using Leads.refl⟩
  | plain line hline rest ih =>
    obtain ⟨hl, hrest⟩ := hb
    have hstep : Leads program 1 a (state.engine flow) (a + 1) (state.engine flow) :=
      .of_executes hl ((hnamed flow).executes_plain hs hline a)
    rw [add_span_plain]
    rcases ih hs hrest with he | ⟨n, hn⟩
    · exact .inl (he.of_leads hstep)
    · exact .inr ⟨1 + n, hstep.trans hn⟩
  | nest construct opener hopener body closer hcloser rest ihbody ihrest =>
    obtain ⟨hl, hbody, hclose, hrest⟩ := holds_nest.1 hb
    rcases (Nat.lt_or_ge flow.frames.height frameBound.size).symm with full | room
    · exact .inl (.of_fails hl (.skips (Line.isEmpty_of_keyword? hopener) hs
        (.nests ((hnamed flow).classify_line_iff.2 hopener) full)))
    -- the nested block is passed with its frame on top, and its closing line takes the frame off
    let inner : Flow := { flow with frames := flow.frames.cons ⟨construct, .nested⟩ }
    have hinner : inner.suspended = true := rfl
    have hstep : Leads program 1 a (state.engine flow) (a + 1) (state.engine inner) :=
      .of_executes hl ((hnamed flow).executes_opener hs hopener room a)
    have hends : Leads program 1 (a + 1 + body.span) (state.engine inner) (a + 1 + body.span + 1)
        (state.engine flow) :=
      .of_executes hclose ((hnamed inner).executes_closer rfl hcloser _)
    rw [add_span_nest]
    rcases ihbody hinner hbody with he | ⟨n, hn⟩
    · exact .inl (he.of_leads hstep)
    have hpassed := (hstep.trans hn).trans hends
    rcases ihrest hs hrest with he | ⟨m, hm⟩
    · exact .inl (he.of_leads hpassed)
    · exact .inr ⟨_, hpassed.trans hm⟩

/-! ## Lines of an evaluation in a run -/

section Lines

variable {construct : Construct} {opener closer line : Line} {fault : Fault}

/-- A header whose `condition` cannot be read `Fails`. -/
theorem fails_of_condition (h : state.Sound program) (hs : flow.suspended = false)
    (hopener : opener.keyword? = some (.opens construct)) (hm : construct ≠ .method)
    (hc : state.condition construct opener = .error fault) :
    Store.Fails opener a (state.engine flow).store fault (state.engine flow).store := by
  have hnonempty := Line.isEmpty_of_keyword? hopener
  simp only [State.condition, bind_error_iff] at hc
  rcases hc with hi | ⟨⟨command, tokens⟩, hi, hp⟩
  · exact .interprets hnonempty hs hi
  · obtain rfl := h.command_eq hopener hi
    refine .performs hnonempty hs hi (.checks ?_)
    cases construct with
    | method => exact absurd rfl hm
    | branch => exact map_eq_error_iff.2 hp
    | loop => exact map_eq_error_iff.2 hp

/-- The `condition` that the evaluation reads in an opener is the one that the engine reads. -/
theorem interpret_of_condition (h : state.Sound program) (flow : Flow)
    (hopener : opener.keyword? = some (.opens construct)) {condition : Condition}
    (hc : state.condition construct opener = .ok condition) :
    ∃ tokens, (state.engine flow).store.interpret opener.tokens =
        .ok (.keyword (.opens construct), tokens) ∧
      Condition.parse (.opens construct) tokens = .ok condition := by
  simp only [State.condition, bind_ok_iff] at hc
  obtain ⟨⟨command, tokens⟩, hi, hp⟩ := hc
  obtain rfl := h.command_eq hopener hi
  exact ⟨tokens, hi, hp⟩

/-- The header of a branch `Leads` to its first line, or the run is `Exhausted`. -/
theorem leads_of_branch {condition : Condition} (h : state.Sound program)
    (hs : flow.suspended = false) (hl : program.line? a = some opener)
    (hopener : opener.keyword? = some (.opens .branch))
    (hc : state.condition .branch opener = .ok condition) :
    Exhausted program a (state.engine flow) ∨
      Leads program 1 a (state.engine flow) (a + 1) (state.engine (flow.branching condition)) := by
  have hnonempty := Line.isEmpty_of_keyword? hopener
  obtain ⟨tokens, hi, hp⟩ := interpret_of_condition h flow hopener hc
  rcases (Nat.lt_or_ge flow.frames.height frameBound.size).symm with full | room
  · exact .inl (.of_fails hl (.performs hnonempty hs hi (.blocks (by decide) hp full)))
  exact .inr (.of_executes hl (.performs hnonempty hs hi (.branches hp room)))

/-- The header of a loop `Leads` to its first line, or the run is `Exhausted`. -/
theorem leads_of_loop {condition : Condition} (h : state.Sound program)
    (hs : flow.suspended = false) (hl : program.line? a = some opener)
    (hopener : opener.keyword? = some (.opens .loop))
    (hc : state.condition .loop opener = .ok condition) :
    Exhausted program a (state.engine flow) ∨
      Leads program 1 a (state.engine flow) (a + 1) (state.engine (flow.looping condition a)) := by
  have hnonempty := Line.isEmpty_of_keyword? hopener
  obtain ⟨tokens, hi, hp⟩ := interpret_of_condition h flow hopener hc
  rcases (Nat.lt_or_ge flow.frames.height frameBound.size).symm with full | room
  · exact .inl (.of_fails hl (.performs hnonempty hs hi (.blocks (by decide) hp full)))
  rcases (Nat.lt_or_ge flow.loops.height loopBound.size).symm with full | roomLoop
  · exact .inl (.of_fails hl (.performs hnonempty hs hi (.loops hp room full)))
  exact .inr (.of_executes hl (.performs hnonempty hs hi (.loops hp room roomLoop)))

/-- A closer that `checkCloser` refuses `Fails`. -/
theorem fails_of_checkCloser (h : state.Sound program) (hs : flow.suspended = false)
    (hcloser : closer.keyword? = some (.closes construct))
    (hc : state.checkCloser construct closer = .error fault) :
    Store.Fails closer a (state.engine flow).store fault (state.engine flow).store := by
  have hnonempty := Line.isEmpty_of_keyword? hcloser
  simp only [State.checkCloser, bind_error_iff] at hc
  rcases hc with hi | ⟨⟨command, tokens⟩, hi, hp⟩
  · exact .interprets hnonempty hs hi
  · obtain rfl := h.command_eq hcloser hi
    exact .performs hnonempty hs hi (.checks hp)

/-- A closer that `checkCloser` accepts is one that the engine accepts. -/
theorem interpret_of_checkCloser (h : state.Sound program) (flow : Flow)
    (hcloser : closer.keyword? = some (.closes construct))
    (hc : state.checkCloser construct closer = .ok ()) :
    ∃ tokens, (state.engine flow).store.interpret closer.tokens =
        .ok (.keyword (.closes construct), tokens) ∧
      Keyword.checkAlone (.closes construct) tokens = .ok () := by
  simp only [State.checkCloser, bind_ok_iff] at hc
  obtain ⟨⟨command, tokens⟩, hi, hp⟩ := hc
  obtain rfl := h.command_eq hcloser hi
  exact ⟨tokens, hi, hp⟩

/-- The closer of a branch `Leads` to the next line, whether the branch was executed or not. -/
theorem leads_of_endBranch {condition : Condition} (h : state.Sound program)
    (hl : program.line? a = some closer) (hcloser : closer.keyword? = some (.closes .branch))
    (hc : condition.holds = true → state.checkCloser .branch closer = .ok ()) :
    Leads program 1 a (state.engine (flow.branching condition)) (a + 1) (state.engine flow) := by
  have hnonempty := Line.isEmpty_of_keyword? hcloser
  have hs := flow.suspended_branching condition
  cases hholds : condition.holds with
  | true =>
    obtain ⟨tokens, hi, ha⟩ :=
      interpret_of_checkCloser h (flow.branching condition) hcloser (hc hholds)
    exact .of_executes hl (.performs hnonempty (by rw [hholds] at hs; exact hs) hi
      (.closesBranch ha rfl))
  | false =>
    exact .of_executes hl (.skips hnonempty (by rw [hholds] at hs; exact hs)
      (.closes (h.classify_eq _ hcloser) rfl (.inr rfl)))

/-- The closer of a loop `Leads` back to the header if the loop was executed. -/
theorem leads_of_endLoop {b : Address} {condition : Condition} (h : state.Sound program)
    (hl : program.line? b = some closer) (hcloser : closer.keyword? = some (.closes .loop))
    (hholds : condition.holds = true) (hc : state.checkCloser .loop closer = .ok ()) :
    Leads program 1 b (state.engine (flow.looping condition a)) a (state.engine flow) := by
  have hs : (flow.looping condition a).suspended = false := by
    rw [Flow.suspended_looping, hholds]
    rfl
  obtain ⟨tokens, hi, ha⟩ := interpret_of_checkCloser h (flow.looping condition a) hcloser hc
  have hends : Leads program 1 b (state.engine (flow.looping condition a))
      (rewound b (condition.rewind a) + 1) (state.engine flow) :=
    .of_executes hl (.performs (Line.isEmpty_of_keyword? hcloser) hs hi (.closesLoop ha rfl rfl))
  have hback : rewound b (condition.rewind a) + 1 = a := by
    simp [Condition.rewind, hholds, rewound]
  rw [hback] at hends
  exact hends

/-- The closer of a loop `Leads` to the next line if the loop was skipped. -/
theorem leads_past_loop {b : Address} {condition : Condition} (h : state.Sound program)
    (hl : program.line? b = some closer) (hcloser : closer.keyword? = some (.closes .loop))
    (hholds : condition.holds = false) :
    Leads program 1 b (state.engine (flow.looping condition a)) (b + 1) (state.engine flow) := by
  have hs : (flow.looping condition a).suspended = true := by
    rw [Flow.suspended_looping, hholds]
    rfl
  have hframes : (flow.looping condition a).frames = flow.frames.cons ⟨.loop, .skipping⟩ := by
    simp [Flow.looping, Condition.mode, hholds]
  exact .of_executes hl (.skips (Line.isEmpty_of_keyword? hcloser) hs
    (.endsLoop (h.classify_eq _ hcloser) hframes rfl))

/-- A header of a method that `defined` refuses `Fails`. -/
theorem fails_of_defined (h : state.Sound program) (hs : flow.suspended = false)
    (hopener : opener.keyword? = some (.opens .method)) {body : Body}
    (hd : state.defined opener a body = .error fault) :
    Store.Fails opener a (state.engine flow).store fault (state.engine flow).store := by
  have hnonempty := Line.isEmpty_of_keyword? hopener
  simp only [State.defined, bind_error_iff] at hd
  rcases hd with hi | ⟨⟨command, tokens⟩, hi, hd⟩
  · exact .interprets hnonempty hs hi
  obtain rfl := h.command_eq hopener hi
  refine .performs hnonempty hs hi ?_
  rcases hd with hr | ⟨signature, hr, hm | ⟨methods, -, h⟩⟩
  · exact .checks (map_eq_error_iff.2 hr)
  · exact .registers hr hm
  · cases h

/-- The header of a method `Leads` to a state in which the method has no last address yet. The block
is skipped from there, and closing the definition gives the state of the evaluation. -/
theorem leads_of_defined {b : Body} (h : state.Sound program) (hs : flow.suspended = false)
    (hl : program.line? a = some opener) (hopener : opener.keyword? = some (.opens .method))
    (hd : state.defined opener a b = .ok after) :
    Exhausted program a (state.engine flow) ∨
      ∃ (entered : State) (name : String),
        Leads program 1 a (state.engine flow) (a + 1) (entered.engine (flow.defining name)) ∧
        entered.store.Named ∧ entered.canvas = after.canvas ∧
        Store.closed { (entered.engine (flow.defining name)).store with flow.frames := flow.frames }
          (a + 1 + b.block.span) = (after.engine flow).store := by
  obtain ⟨command, tokens, signature, methods, hi, hr, hm, rfl⟩ := State.defined_eq_ok hd
  obtain rfl := h.command_eq hopener hi
  have hnonempty := Line.isEmpty_of_keyword? hopener
  have hi' : (state.engine flow).store.interpret opener.tokens =
      .ok (.keyword (.opens .method), tokens) := hi
  rcases (Nat.lt_or_ge flow.frames.height frameBound.size).symm with full | room
  · exact .inl (.of_fails hl (.performs hnonempty hs hi' (.defineFrame hr hm full)))
  rcases (Nat.lt_or_ge flow.definitions.height definitionBound.size).symm with full | roomName
  · exact .inl (.of_fails hl (.performs hnonempty hs hi' (.defineName hr hm room full)))
  refine .inr ⟨{ state with methods }, signature.head, ?_, ?_, rfl, ?_⟩
  · exact .of_executes hl (.performs hnonempty hs hi' (.defines hr hm room roomName))
  · exact ⟨h.vars, Store.Named.register h.methods hr hm⟩
  · simp [Store.closed, State.engine, Flow.defining]

/-- A call `Leads` to the first line of the block of its method, or the run is `Exhausted`. -/
theorem leads_of_call {invocation : Invocation} (hs : flow.suspended = false)
    (hl : program.line? a = some line) (hnonempty : line.isEmpty = false)
    (hi : (state.engine flow).store.interpret line.tokens = .ok (.call, tokens))
    (hr : (state.engine flow).store.findCall tokens = .ok invocation) :
    Exhausted program a (state.engine flow) ∨
      Leads program 1 a (state.engine flow) (invocation.method.start + 1)
        ((state.enter invocation.scope).engine (flow.called ⟨invocation.name, a⟩)) := by
  rcases (Nat.lt_or_ge state.vars.scopes.height scopeBound.size).symm with full | roomScope
  · exact .inl (.of_fails hl (.performs hnonempty hs hi (.scopes hr full)))
  rcases (Nat.lt_or_ge flow.calls.height callBound.size).symm with full | roomCall
  · exact .inl (.of_fails hl (.performs hnonempty hs hi (.calls hr roomScope full)))
  rcases (Nat.lt_or_ge flow.frames.height frameBound.size).symm with full | room
  · exact .inl (.of_fails hl (.performs hnonempty hs hi (.callFrame hr roomScope roomCall full)))
  exact .inr (.of_executes hl (.performs hnonempty hs hi (.calls hr roomScope roomCall room)))

end Lines

end Block

end Sketch
