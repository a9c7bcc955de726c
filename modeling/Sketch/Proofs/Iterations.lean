import Sketch.Proofs.Returns

/-!
# Iterations of a loop

From the header of a loop whose condition holds to the line that goes back to it lie any number of
lines: further loops, also in blocks that are skipped and count no loop, calls of methods with loops
of their own, and closers that have nothing to close. `Engine.Inside` is such a sequence of lines.
Main statement: `Engine.iteration_restores`, when as many blocks are open as before the header for
the first time, then the line is a closer of a loop, and all that was open before the header is open
again.

The argument is that of a call and its return, with the block of the loop for the ground: the lines
in between leave it alone, and only a closer of a loop that finds nothing above it takes it away.
-/

namespace Sketch

/-- `classify` gives a keyword only to a line that begins with it, whatever names are bound. -/
theorem Command.head?_of_classify {isBound : String → Bool} {tokens : List String}
    {keyword : Keyword} (h : classify isBound tokens = .ok (.keyword keyword)) :
    tokens.head? = some keyword.text := by
  unfold classify at h
  split at h
  · cases h
  · next first rest =>
    split at h
    · cases h
    · split at h
      · cases h
      · unfold ofWord at h
        split at h
        · next found hfound =>
          cases h
          rw [List.head?_cons, Keyword.ofText?_eq_some_iff.1 hfound]
        · split at h <;> cases h

namespace Store

variable {store after origin : Store} {line : Line} {cursor next header : Address} {result : Step}

/-- The line is the header of a loop, it is executed, and its condition holds. -/
def Iterates (store : Store) (line : Line) : Prop :=
  store.flow.suspended = false ∧ ∃ tokens condition,
    store.interpret line.tokens = .ok (.keyword (.opens .loop), tokens) ∧
      Condition.parse (.opens .loop) tokens = .ok condition ∧ condition.holds = true

/-- After the header of a loop that `Iterates`, the store `Stands` in the loop, with the newest
scope above. -/
theorem Executes.stands_looping (h : Executes line cursor store result after)
    (hi : store.Iterates line) : after.Stands (.looping store.control cursor) := by
  obtain ⟨hs, tokens, condition, hinterpret, hparse, hholds⟩ := hi
  cases h with
  | blank hl =>
    rw [Line.isEmpty_of_classify (interpret_eq_ok_iff.1 hinterpret).1] at hl
    cases hl
  | skips _ hsuspended _ =>
    rw [hs] at hsuspended
    cases hsuspended
  | performs _ _ hother hp =>
    rw [hinterpret, Except.ok.injEq, Prod.mk.injEq] at hother
    obtain ⟨rfl, rfl⟩ := hother
    cases hp with
    | @loops _ found hfound _ _ =>
      rw [hparse, Except.ok.injEq] at hfound
      subst hfound
      have hmode : condition.mode = .executing := by simp [Condition.mode, hholds]
      have hrewind : condition.rewind cursor = some cursor := by simp [Condition.rewind, hholds]
      have hscopes : store.vars.scopes.entries =
          store.vars.scopes.entries.take 1 ++ store.vars.scopes.entries.tail := by
        rw [← List.drop_one, List.take_append_drop]
      rw [hmode, hrewind]
      refine ⟨⟨[], [], [], [], store.vars.scopes.entries.take 1⟩,
        Control.ext rfl rfl rfl rfl hscopes, trivial, rfl, rfl, rfl, ?_⟩
      simp [Ground.own, Store.control]

/-- What `Stands` in a loop has more frames than there were before its header. -/
theorem Stands.frames_lt (h : store.Stands (.looping origin.control header)) :
    origin.flow.frames.height < store.flow.frames.height := by
  obtain ⟨upper, hc, -⟩ := h
  exact Stack.height_lt_of_entries_eq (congrArg Control.frames hc)

/-- What `Stands` in a loop has more loops than there were before its header. -/
theorem Stands.loops_lt (h : store.Stands (.looping origin.control header)) :
    origin.flow.loops.height < store.flow.loops.height := by
  obtain ⟨upper, hc, -⟩ := h
  exact Stack.height_lt_of_entries_eq (congrArg Control.loops hc)

/-- A line that `Executes` and takes a loop away is a closer of a loop. -/
theorem Executes.classify_of_loops_lt (h : Executes line cursor store result after)
    (hl : after.flow.loops.height < store.flow.loops.height) :
    store.classify line.tokens = .ok (.keyword (.closes .loop)) := by
  rcases h.loops_cases with heq | ⟨_, hk, -⟩ | ⟨condition, -, heq⟩
  · rw [heq] at hl
    exact absurd hl (Nat.lt_irrefl _)
  · exact hk
  · rw [heq, Stack.height_cons] at hl
    omega

namespace Returned

/-- A store that has `Returned` from a loop has the `flow` from before it. -/
theorem flow_eq (h : Returned (.looping origin.control header) next store) :
    store.flow = origin.flow := by
  cases h with
  | loop _ hc =>
    -- the scopes are the one thing in which the stacks may differ
    have hsame : ({ store with vars.scopes := origin.vars.scopes } : Store).control =
        origin.control := by
      rw [Control.ext_iff] at hc ⊢
      exact ⟨hc.1, hc.2.1, hc.2.2.1, hc.2.2.2.1, rfl⟩
    exact (flow_eq_of_control_eq hsame).1

/-- A store that has `Returned` from a loop has the cursor before its header. -/
theorem next_loop (h : Returned (.looping origin.control header) next store) :
    next = header - 1 := by
  cases h with
  | loop _ _ => rfl

/-- A store that has `Returned` from a loop has all scopes from before it but the newest one. -/
theorem scopes_eq (h : Returned (.looping origin.control header) next store) :
    store.vars.scopes.height = origin.vars.scopes.height ∧
      store.vars.scopes.entries.tail = origin.vars.scopes.entries.tail := by
  cases h with
  | @loop _ _ _ newest hlength hc =>
    have hscopes : store.vars.scopes.entries = newest ++ origin.vars.scopes.entries.tail :=
      congrArg Control.scopes hc
    have hone : newest.length = min 1 origin.vars.scopes.entries.length := hlength
    rw [store.vars.scopes.height_eq, origin.vars.scopes.height_eq, hscopes]
    cases horigin : origin.vars.scopes.entries with
    | nil =>
      rw [horigin] at hone
      simp [List.length_eq_zero_iff.1 hone]
    | cons scope rest =>
      rw [horigin, List.length_cons, Nat.min_eq_left (Nat.le_add_left 1 _)] at hone
      obtain ⟨scope', rfl⟩ := List.length_eq_one_iff.1 hone
      simp

end Returned

end Store

namespace Engine

variable {program : Program} {height n : Nat} {a b next back h : Address}
  {header closer line : Line}
  {engine first before after last : Engine} {origin : Store}

/-! ## The lines between a header and the line that goes back to it -/

/-- The next `n` lines after the cursor are executed and succeed, and before each of them the number
of open blocks is not `height`. -/
inductive Inside (program : Program) (height : Nat) :
    Nat → Address → Engine → Address → Engine → Prop where
  | refl {a : Address} {engine : Engine} : Inside program height 0 a engine a engine
  | step {n : Nat} {a b c : Address} {engine between after : Engine} {line : Line}
      (hopen : engine.store.flow.frames.height ≠ height) (hl : program.line? (a + 1) = some line)
      (he : execute line (a + 1) engine = .ok b between)
      (h : Inside program height n b between c after) :
      Inside program height (n + 1) a engine c after

namespace Inside

/-- A run `Leads` through the lines of `Inside`. -/
theorem leads (hu : Inside program height n a engine b after) :
    Leads program n (a + 1) engine (b + 1) after := by
  induction hu with
  | refl => exact .refl
  | step _ hl he _ ih =>
    rw [Nat.add_comm]
    exact .trans (.of_execute hl he) ih

/-- `Inside` keeps `Stands` as long as the loop is open. -/
theorem stands (hu : Inside program origin.flow.frames.height n a engine b after)
    (hs : engine.store.Stands (.looping origin.control h))
    (hopen : after.store.flow.frames.height ≠ origin.flow.frames.height) :
    after.store.Stands (.looping origin.control h) := by
  induction hu with
  | refl => exact hs
  | step _ _ he hrest ih =>
    obtain ⟨step, hx, -, -⟩ := execute_eq_ok_iff.1 he
    rcases hs.step hx with hinside | hreturned
    · exact ih hinside hopen
    · -- no line comes after the one that goes back
      have hheight := congrArg (fun flow : Flow => flow.frames.height) hreturned.flow_eq
      cases hrest with
      | refl => exact absurd hheight hopen
      | step hstill _ _ _ => exact absurd hheight hstill

end Inside

/-- A run that ends with so many frames goes through lines of `Inside` to the first after which
there are so many. -/
theorem exists_inside {fuel : Nat} (hopen : engine.store.flow.frames.height ≠ height)
    (hr : runFrom program fuel (a + 1) engine = some (.ok () last))
    (hback : last.store.flow.frames.height = height) :
    ∃ n b before closer back after, Inside program height n a engine b before ∧
      before.store.flow.frames.height ≠ height ∧ program.line? (b + 1) = some closer ∧
      execute closer (b + 1) before = .ok back after ∧
      after.store.flow.frames.height = height := by
  induction fuel generalizing a engine with
  | zero => cases hr
  | succ fuel ih =>
    rw [runFrom] at hr
    cases hl : program.line? (a + 1) with
    | none =>
      simp only [hl] at hr
      cases hr
      exact absurd hback hopen
    | some line =>
      simp only [hl] at hr
      cases he : execute line (a + 1) engine with
      | error fault after =>
        simp only [he] at hr
        cases hr
      | ok b between =>
        simp only [he] at hr
        -- the first line after which there are so many, or one that comes later
        by_cases hfirst : between.store.flow.frames.height = height
        · exact ⟨0, a, engine, line, b, between, .refl, hopen, hl, he, hfirst⟩
        · obtain ⟨n, c, before, closer, back, after, hu, hend⟩ := ih hfirst hr
          exact ⟨n + 1, c, before, closer, back, after, .step hopen hl he hu, hend⟩

/-! ## Going back -/

/-- **Iterations are balanced.** Let `execute` enter a loop by its header at `h`, and let lines of
any program follow that succeed (`Inside`). When the number of frames is for the first time what it
was before, the line is a closer of a loop, the `flow` is what it was, and so are all scopes but the
newest. The cursor is before `h`, and the header comes next. -/
theorem iteration_restores (hheader : program.line? h = some header)
    (hi : engine.store.Iterates header) (he : execute header h engine = .ok next first)
    (hu : Inside program engine.store.flow.frames.height n next first b before)
    (hopen : before.store.flow.frames.height ≠ engine.store.flow.frames.height)
    (hcloser : program.line? (b + 1) = some closer)
    (hlast : execute closer (b + 1) before = .ok back last)
    (hback : last.store.flow.frames.height = engine.store.flow.frames.height) :
    closer.tokens.head? = some "ENDWHILE" ∧
      before.store.classify closer.tokens = .ok (.keyword (.closes .loop)) ∧
      last.store.flow = engine.store.flow ∧
      last.store.vars.scopes.height = engine.store.vars.scopes.height ∧
      last.store.vars.scopes.entries.tail = engine.store.vars.scopes.entries.tail ∧
      back = h - 1 ∧ Leads program (n + 2) h engine h last := by
  obtain ⟨start, hstart, rfl, -⟩ := execute_eq_ok_iff.1 he
  obtain ⟨step, hx, rfl, -⟩ := execute_eq_ok_iff.1 hlast
  have hinside := hu.stands (hstart.stands_looping hi) hopen
  -- inside the loop there would be a frame more, so this line has closed the loop
  rcases hinside.step hx with hstill | hreturned
  · exact absurd hback (Nat.ne_of_gt hstill.frames_lt)
  have hflow : last.store.flow = engine.store.flow := hreturned.flow_eq
  have hclassify : before.store.classify closer.tokens = .ok (.keyword (.closes .loop)) := by
    apply hx.classify_of_loops_lt
    rw [hflow]
    exact hinside.loops_lt
  have hcursor : step.cursor = h - 1 := hreturned.next_loop
  have hagain : step.cursor + 1 = h := by rw [hcursor, UInt64.sub_add_cancel]
  obtain ⟨hheight, htail⟩ := hreturned.scopes_eq
  refine ⟨Command.head?_of_classify hclassify, hclassify, hflow, hheight, htail, hcursor, ?_⟩
  have hrun := ((Leads.of_execute hheader he).trans hu.leads).trans (.of_execute hcloser hlast)
  rw [hagain, Nat.add_comm 1 n] at hrun
  exact hrun

/-- A loop in the first line, with a skipped loop in it, a call of a method that loops itself, and
closers that close nothing. The methods stand in a branch, so that no call ends with them. -/
def countdown : Program :=
  .parse ("WHILE n > 0\nIF n > 5\nWHILE\nENDWHILE\nENDIF\nf(n)\nENDIF\nENDMETHOD\nn = n - 1\n" ++
    "ENDWHILE\nIF 1 < 2\nMETHOD f(k)\nWHILE k > 0\nk = k - 1\nENDWHILE\nENDMETHOD\n" ++
    "METHOD g(n)\nENDMETHOD\nENDIF\n")

/-- The loop counts down the parameter of an open call. Its header is at the first address, so that
the cursor goes to the last one. -/
theorem iteration_restores_countdown : ∃ (engine first before last : Engine) (closer : Line)
    (next b back : Address) (n : Nat),
    countdown.line? 0 = some (.ofText "WHILE n > 0") ∧
      engine.store.vars.scopes.height = 1 ∧
      engine.store.Iterates (.ofText "WHILE n > 0") ∧
      execute (.ofText "WHILE n > 0") 0 engine = .ok next first ∧
      Inside countdown engine.store.flow.frames.height n next first b before ∧
      before.store.flow.frames.height ≠ engine.store.flow.frames.height ∧
      countdown.line? (b + 1) = some closer ∧
      execute closer (b + 1) before = .ok back last ∧
      last.store.flow.frames.height = engine.store.flow.frames.height ∧
      closer.tokens.head? = some "ENDWHILE" ∧ last.store.flow = engine.store.flow ∧
      last.store.vars.scopes.height = 1 ∧ back = Address.last ∧
      Leads countdown (n + 2) 0 engine 0 last := by
  have hheader : countdown.line? 0 = some (.ofText "WHILE n > 0") := by decide +kernel
  have hrun : ((runFrom countdown 20 10 .initial).bind fun defined =>
      (value? (execute (.ofText "g(1)") 20 defined.engine)).bind fun called =>
        (value? (execute (.ofText "WHILE n > 0") 0 called.2)).bind fun opened =>
          ((runFrom countdown 40 (opened.1 + 1) opened.2).bind value?).map fun final =>
            (called.2.store.flow.suspended,
              (called.2.store.interpret (Line.ofText "WHILE n > 0").tokens).toOption,
              called.2.store.vars.scopes.height,
              [called.2, opened.2, final.2].map (·.store.flow.frames.height))) =
      some (false, some (.keyword (.opens .loop), ["WHILE", "1", ">", "0"]), 1, [1, 2, 1]) := by
    decide +kernel
  obtain ⟨_, -, hrun⟩ := Option.bind_eq_some_iff.1 hrun
  obtain ⟨⟨_, engine⟩, -, hrun⟩ := Option.bind_eq_some_iff.1 hrun
  obtain ⟨⟨next, first⟩, hopened, hrun⟩ := Option.bind_eq_some_iff.1 hrun
  obtain ⟨⟨_, final⟩, hfinal, hends⟩ := Option.map_eq_some_iff.1 hrun
  obtain ⟨outcome, houtcome, hvalue⟩ := Option.bind_eq_some_iff.1 hfinal
  rw [value?_eq_some_iff.1 hvalue] at houtcome
  have he := value?_eq_some_iff.1 hopened
  simp only [Prod.mk.injEq, List.map_cons, List.map_nil, List.cons.injEq] at hends
  obtain ⟨hs, hinterpret, hscopes, hheight, hfirst, hback, -⟩ := hends
  have hi : engine.store.Iterates (.ofText "WHILE n > 0") :=
    ⟨hs, _, ⟨1, .greater, 0⟩, toOption_eq_some_iff.1 hinterpret, rfl, by decide⟩
  have hopen : first.store.flow.frames.height ≠ engine.store.flow.frames.height := by
    rw [hfirst, hheight]
    decide
  obtain ⟨n, b, before, closer, back, last, hu, hstill, hcloser, hlast, hreturn⟩ :=
    exists_inside hopen houtcome (hback.trans hheight.symm)
  obtain ⟨hhead, -, hflow, hdepth, -, hcursor, hleads⟩ :=
    iteration_restores hheader hi he hu hstill hcloser hlast hreturn
  exact ⟨engine, first, before, last, closer, next, b, back, n, hheader, hscopes, hi, he, hu,
    hstill, hcloser, hlast, hreturn, hhead, hflow, hdepth.trans hscopes, hcursor, hleads⟩

end Engine

end Sketch
