import Sketch.Proofs.Names

/-!
# Structured programs

What a program means by its structure, with no cursor and no stacks of open blocks. A `Block` is a
well nested sequence of lines, and `Block.eval` evaluates it: a branch evaluates its block or goes
past it, a loop evaluates its block and then itself again, a method is entered together with its
block, and a call evaluates that block in a scope of its own.

The addresses that an evaluation is given are used for what a program can show of them: the table
records where a method begins and ends, and a failure names its line. The one trait that is not
read off the nesting is that a definition directly in the block of a called method ends the call.

Running a well nested program comes to the same end (`Proofs.Structure`).
-/

namespace Sketch

/-! ## Syntax -/

/-- The keyword of a line: its first token, unless the line has the shape of an assignment. -/
def Line.keyword? (line : Line) : Option Keyword :=
  if Command.hasAssignmentShape line.tokens then none else line.tokens.head?.bind Keyword.ofText?

/-- Whether the line neither opens nor closes a block. -/
def Line.isPlain (line : Line) : Bool :=
  line.keyword?.all fun keyword => !keyword.isStructural

/-- A keyword alone has not the shape of a call. -/
theorem Keyword.hasCallShape_text (keyword : Keyword) :
    Command.hasCallShape [keyword.text] = false := by
  rcases keyword with tool | construct | construct
  · cases tool <;> decide
  · cases construct <;> decide
  · cases construct <;> decide

/-- `keyword?` is the keyword that `Command.ofTokens` finds. -/
theorem Line.keyword?_eq_some_iff {line : Line} {keyword : Keyword} :
    line.keyword? = some keyword ↔ Command.ofTokens line.tokens = .ok (.keyword keyword) := by
  unfold keyword? Command.ofTokens Command.classify
  rcases line.tokens with _ | ⟨first, rest⟩
  · simp [Command.hasAssignmentShape]
  by_cases hshape : Command.hasAssignmentShape (first :: rest) = true
  · simp [hshape]
  have hword : Command.ofWord first = .ok (.keyword keyword) ↔ first = keyword.text := by
    unfold Command.ofWord
    rw [← Keyword.ofText?_eq_some_iff]
    cases Keyword.ofText? first with
    | none => simp only [reduceCtorEq, iff_false]; split <;> simp
    | some other => simp
  by_cases hcall : Command.hasCallShape (first :: rest) = true
  · -- a keyword has no brackets
    have hne : first ≠ keyword.text := by
      rintro rfl
      cases rest with
      | nil => rw [Keyword.hasCallShape_text] at hcall; cases hcall
      | cons second rest => cases hcall
    simp [hshape, hcall, Keyword.ofText?_eq_some_iff, hne]
  · simp [hshape, hcall, Keyword.ofText?_eq_some_iff, hword]

/-- In a `Named` store, `classify` gives a keyword exactly if it is the `keyword?` of the line. -/
theorem Store.Named.classify_line_iff {store : Store} (h : store.Named) {line : Line}
    {keyword : Keyword} :
    store.classify line.tokens = .ok (.keyword keyword) ↔ line.keyword? = some keyword := by
  rw [h.classify_eq_keyword_iff, Line.keyword?_eq_some_iff]

/-- A line with a `keyword?` has tokens. -/
theorem Line.isEmpty_of_keyword? {line : Line} {keyword : Keyword}
    (h : line.keyword? = some keyword) : line.isEmpty = false :=
  isEmpty_of_classify (keyword?_eq_some_iff.1 h)

/-- A line with a `keyword?` begins with its text. -/
theorem Line.head?_of_keyword? {line : Line} {keyword : Keyword}
    (h : line.keyword? = some keyword) : line.tokens.head? = some keyword.text := by
  unfold keyword? at h
  split at h
  · cases h
  · obtain ⟨first, hfirst, htext⟩ := Option.bind_eq_some_iff.1 h
    rw [hfirst, Keyword.ofText?_eq_some_iff.1 htext]

/-- A line that `isPlain` has no structural keyword. -/
theorem Line.keyword?_ne_of_isPlain {line : Line} {keyword : Keyword} (h : line.isPlain = true)
    (hk : keyword.isStructural = true) : line.keyword? ≠ some keyword := by
  intro heq
  simp [isPlain, heq, hk] at h

/-! ### Lines that are skipped -/

/-- The flow is `suspended` in a block that is not executed. -/
theorem Flow.suspended_of_cons {flow : Flow} {frame : Frame} {frames : Stack Frame}
    (hf : flow.frames = frames.cons frame) (hm : frame.mode ≠ .executing) :
    flow.suspended = true := by
  simp [suspended, top?, hf, hm]

namespace Store.Named

variable {store : Store} {line : Line} {construct : Construct}

/-- A skipped line that neither opens nor closes a block does nothing. -/
theorem executes_plain (h : store.Named) (hs : store.flow.suspended = true)
    (hline : line.isPlain = true) (a : Address) : Executes line a store ⟨a, none⟩ store := by
  cases hempty : line.isEmpty with
  | true => exact .blank hempty
  | false =>
    refine .skips hempty hs (.ignores ?_ ?_)
    · intro construct hc
      exact Line.keyword?_ne_of_isPlain hline rfl (h.classify_line_iff.1 hc)
    · intro construct hc
      exact absurd (h.classify_line_iff.1 hc) (Line.keyword?_ne_of_isPlain hline rfl)

/-- A skipped opener pushes a `nested` frame below the bound. -/
theorem executes_opener (h : store.Named) (hs : store.flow.suspended = true)
    (hopener : line.keyword? = some (.opens construct))
    (room : store.flow.frames.height < frameBound.size) (a : Address) :
    Executes line a store ⟨a, none⟩
      { store with flow.frames := store.flow.frames.cons ⟨construct, .nested⟩ } :=
  .skips (Line.isEmpty_of_keyword? hopener) hs (.nests (h.classify_line_iff.2 hopener) room)

/-- A skipped closer pops the `nested` frame that it matches. -/
theorem executes_closer (h : store.Named) {frames : Stack Frame}
    (hf : store.flow.frames = frames.cons ⟨construct, .nested⟩)
    (hcloser : line.keyword? = some (.closes construct)) (a : Address) :
    Executes line a store ⟨a, none⟩ { store with flow.frames := frames } := by
  have hs : store.flow.suspended = true := Flow.suspended_of_cons hf (by simp)
  exact .skips (Line.isEmpty_of_keyword? hcloser) hs
    (.closes (h.classify_line_iff.2 hcloser) hf (.inl rfl))

end Store.Named

/-- A well nested sequence of lines. -/
inductive Block where
  /-- no more lines -/
  | done
  /-- a line that neither opens nor closes a block -/
  | plain (line : Line) (hline : line.isPlain = true) (rest : Block)
  /-- a construct: its header, its block and its closing line -/
  | nest (construct : Construct) (opener : Line)
      (hopener : opener.keyword? = some (.opens construct))
      (body : Block) (closer : Line) (hcloser : closer.keyword? = some (.closes construct))
      (rest : Block)

namespace Block

/-- The lines of a block, in the order of the text. -/
def lines : Block → List Line
  | .done => []
  | .plain line _ rest => line :: rest.lines
  | .nest _ opener _ body closer _ rest => opener :: (body.lines ++ closer :: rest.lines)

/-- The number of lines of a block, as a distance of addresses. -/
def span (block : Block) : Address :=
  UInt64.ofNat block.lines.length

/-! ## States and results -/

/-- What a call of a method evaluates: the block of the method, and then its closing line. -/
structure Body where
  block : Block
  closer : Line
  hcloser : closer.keyword? = some (.closes .method)

/-- The state of an evaluation: variables, methods and their blocks, and the canvas. -/
structure State where
  vars : Variables
  methods : Methods
  bodies : Std.ExtTreeMap String Body
  canvas : Canvas

/-- How a block ends that does not fail. -/
inductive Ending where
  /-- after its last line -/
  | finished
  /-- with a definition that ends the call in whose method it stands -/
  | returned
  deriving DecidableEq

/-- What comes of an evaluation: nothing within its bound, a failure, or a value. -/
abbrev Result (α : Type) := Option (EStateM.Result Failure State α)

variable {α β : Type}

/-- Goes on from the value of an evaluation. -/
def Result.andThen (result : Result α) (next : α → State → Result β) : Result β :=
  match result with
  | none => none
  | some (.error failure state) => some (.error failure state)
  | some (.ok value state) => next value state

@[simp] theorem Result.andThen_none (next : α → State → Result β) :
    Result.andThen none next = none := rfl

@[simp] theorem Result.andThen_error (failure : Failure) (state : State)
    (next : α → State → Result β) :
    Result.andThen (some (.error failure state)) next = some (.error failure state) := rfl

@[simp] theorem Result.andThen_ok (value : α) (state : State) (next : α → State → Result β) :
    Result.andThen (some (.ok value state)) next = next value state := rfl

/-- `andThen` is associative. -/
theorem Result.andThen_assoc {γ : Type} (result : Result α) (next : α → State → Result β)
    (last : β → State → Result γ) :
    (Result.andThen result next).andThen last =
      Result.andThen result fun value state => (next value state).andThen last := by
  rcases result with _ | ⟨value, state⟩ | ⟨failure, state⟩ <;> rfl

namespace State

/-- The state at the start of an evaluation: only the canvas is given. -/
def initial (canvas : Canvas) : State :=
  ⟨.empty, .empty, ∅, canvas⟩

/-- The store against which the tokens of a line are read. -/
def store (state : State) : Store :=
  ⟨state.vars, state.methods, .empty⟩

/-- The number of open scopes. -/
def depth (state : State) : Nat :=
  state.vars.depth

/-- The value of a check of a line, or a failure at that line. -/
def attempt (state : State) (a : Address) (line : Line) : Except Fault α → Result α
  | .ok value => some (.ok value state)
  | .error fault => some (.error ⟨fault, some (.of a line)⟩ state)

@[simp] theorem attempt_ok (state : State) (a : Address) (line : Line) (value : α) :
    state.attempt a line (.ok value) = some (.ok value state) := rfl

@[simp] theorem attempt_error (state : State) (a : Address) (line : Line) (fault : Fault) :
    state.attempt a line (.error fault : Except Fault α) =
      some (.error ⟨fault, some (.of a line)⟩ state) := rfl

/-- The state after an assignment. -/
def assigned (state : State) (tokens : List String) : Except Fault State := do
  let assignment ← Assignment.parse tokens
  let value ← assignment.evaluate
  let vars ← state.vars.store assignment.name value
  .ok { state with vars }

/-- The state with a scope inside all others. -/
def enter (state : State) (scope : Scope) : State :=
  { state with vars.scopes := state.vars.scopes.cons scope }

/-- The state without its innermost scope. -/
def leave (state : State) : State :=
  { state with
    vars := match state.vars.leave with
      | .ok (_, vars) => vars
      | .error _ => state.vars }

/-- The condition of a header. -/
def condition (state : State) (construct : Construct) (opener : Line) :
    Except Fault Condition := do
  let (_, tokens) ← state.store.interpret opener.tokens
  Condition.parse (.opens construct) tokens

/-- A closing line has no other tokens. -/
def checkCloser (state : State) (construct : Construct) (closer : Line) : Except Fault Unit := do
  let (_, tokens) ← state.store.interpret closer.tokens
  Keyword.checkAlone (.closes construct) tokens

/-- The state after a method has been entered with its block and its first and last address. -/
def defined (state : State) (opener : Line) (a : Address) (body : Body) :
    Except Fault State := do
  let (_, tokens) ← state.store.interpret opener.tokens
  let signature ← state.store.readHeader tokens a
  let methods ← Store.register state.methods signature a
  .ok { state with
    methods := methods.close signature.head (a + 1 + body.block.span)
    bodies := state.bodies.insert signature.head body }

end State

/-! ## Evaluation -/

/-- Evaluates a call by the evaluation of blocks: the block of the method in a scope with the
parameters, and its closing line unless the call has ended before. -/
def evalCall (evalBody : Block → Address → State → Result Ending) (invocation : Invocation)
    (state : State) : Result Unit :=
  match state.bodies[invocation.name]? with
  | none => some (.error ⟨.bodyMissing, none⟩ state)
  | some body =>
    let first := invocation.method.start + 1
    (evalBody body.block first (state.enter invocation.scope)).andThen fun ending state =>
      match ending with
      | .finished =>
        (state.attempt (first + body.block.span) body.closer
          (state.checkCloser .method body.closer)).andThen fun _ state =>
            some (.ok () state.leave)
      | .returned => some (.ok () state.leave)

/-- Evaluates a line that neither opens nor closes a block. -/
def evalLine (evalBody : Block → Address → State → Result Ending) (line : Line) (a : Address)
    (state : State) : Result Unit :=
  if line.isEmpty then some (.ok () state)
  else
    (state.attempt a line (state.store.interpret line.tokens)).andThen
      fun (command, tokens) state =>
      match command with
      | .assignment =>
        (state.attempt a line (state.assigned tokens)).andThen fun after _ => some (.ok () after)
      | .call =>
        (state.attempt a line (state.store.findCall tokens)).andThen fun invocation state =>
          evalCall evalBody invocation state
      | .keyword keyword =>
        (state.attempt a line (Instruction.ofLine keyword tokens)).andThen fun instruction state =>
          some (.ok () { state with canvas := state.canvas.perform instruction })

/-- Evaluates a block whose first line has this address. `direct` says whether the block is that of
the method being called. The fuel bounds how deep the evaluation goes. -/
def eval : (fuel : Nat) → (direct : Bool) → Block → Address → State → Result Ending
  | 0, _, _, _, _ => none
  | _ + 1, _, .done, _, state => some (.ok .finished state)
  | fuel + 1, direct, .plain line _ rest, a, state =>
    (evalLine (eval fuel true) line a state).andThen fun _ state =>
      eval fuel direct rest (a + 1) state
  | fuel + 1, direct, .nest .branch opener _ body closer _ rest, a, state =>
    let close := a + 1 + body.span
    (state.attempt a opener (state.condition .branch opener)).andThen fun condition state =>
      if condition.holds then
        (eval fuel false body (a + 1) state).andThen fun _ state =>
          (state.attempt close closer (state.checkCloser .branch closer)).andThen fun _ state =>
            eval fuel direct rest (close + 1) state
      else eval fuel direct rest (close + 1) state
  | fuel + 1, direct, .nest .loop opener hopener body closer hcloser rest, a, state =>
    let close := a + 1 + body.span
    (state.attempt a opener (state.condition .loop opener)).andThen fun condition state =>
      if condition.holds then
        (eval fuel false body (a + 1) state).andThen fun _ state =>
          (state.attempt close closer (state.checkCloser .loop closer)).andThen fun _ state =>
            -- the header is the next line again
            eval fuel direct (.nest .loop opener hopener body closer hcloser rest) a state
      else eval fuel direct rest (close + 1) state
  | fuel + 1, direct, .nest .method opener _ body closer hcloser rest, a, state =>
    let close := a + 1 + body.span
    (state.attempt a opener (state.defined opener a ⟨body, closer, hcloser⟩)).andThen fun after _ =>
      if direct then some (.ok .returned after) else eval fuel direct rest (close + 1) after

end Block

end Sketch
