import Sketch.Proofs.Names

/-!
# Where a line goes

A line leaves the cursor where it is, or it enters a method, goes back to the header of a loop, or
returns from a call. `Store.Moves` lists these with what each of them does to the open calls, and
`Store.Executes.moves` says that there are no others. `Store.Executes.loops_cases` is the same for
the open loops.
-/

namespace Sketch

namespace Store

variable {store after : Store} {line : Line} {cursor next : Address} {result : Step}

/-- The store after a call at an address. -/
def entered (store : Store) (invocation : Invocation) (cursor : Address) : Store :=
  { store with
    vars.scopes := store.vars.scopes.cons invocation.scope
    flow.calls := store.flow.calls.cons ⟨invocation.name, cursor⟩
    flow.frames := store.flow.frames.cons ⟨.method, .executing⟩ }

/-- What a line does to the cursor and to the open calls. -/
inductive Moves (line : Line) (cursor : Address) (store : Store) : Address → Store → Prop where
  | stays {after : Store} (hc : after.flow.calls = store.flow.calls) :
      Moves line cursor store cursor after
  | enters {tokens : List String} {invocation : Invocation}
      (hr : store.findCall tokens = .ok invocation)
      (room : store.flow.calls.height < callBound.size) :
      Moves line cursor store invocation.method.start (store.entered invocation cursor)
  | rewinds {after : Store} {loops : Stack (Option Address)} {header : Address}
      (hk : store.classify line.tokens = .ok (.keyword (.closes .loop)))
      (hl : store.flow.loops = loops.cons (some header))
      (hc : after.flow.calls = store.flow.calls) : Moves line cursor store (header - 1) after
  | returns {after : Store} {call : Call}
      (hk : store.classify line.tokens = .ok (.keyword (.closes .method)))
      (hc : store.flow.calls = after.flow.calls.cons call) :
      Moves line cursor store call.returnTo after

/-- `closed` leaves the calls alone. -/
theorem calls_closed (store : Store) (cursor : Address) :
    (store.closed cursor).flow.calls = store.flow.calls := by
  unfold closed
  split <;> rfl

/-- `closed` leaves the loops alone. -/
theorem loops_closed (store : Store) (cursor : Address) :
    (store.closed cursor).flow.loops = store.flow.loops := by
  unfold closed
  split <;> rfl

/-- The return from a call is one of the `Moves`. -/
theorem Leaves.moves {between : Store} (hl : Leaves cursor between next after)
    (hk : store.classify line.tokens = .ok (.keyword (.closes .method)))
    (hc : between.flow.calls = store.flow.calls) : Moves line cursor store next after := by
  cases hl with
  | stays _ => exact .stays hc
  | returns _ hcalls _ => exact .returns hk (hc.symm.trans hcalls)

/-- Every line that `Executes` moves the cursor in one of the ways of `Moves`. -/
theorem Executes.moves (h : Executes line cursor store result after) :
    Moves line cursor store result.cursor after := by
  cases h with
  | blank _ => exact .stays rfl
  | skips _ _ h =>
    cases h with
    | ignores _ _ => exact .stays rfl
    | nests _ _ => exact .stays rfl
    | closes _ _ _ => exact .stays rfl
    | endsLoop _ _ _ => exact .stays rfl
    | endsDefinition hk _ hl => exact hl.moves hk (calls_closed _ cursor)
  | performs _ _ hi h =>
    have hk := (interpret_eq_ok_iff.1 hi).1
    cases h with
    | calls hr _ room _ => exact .enters hr room
    | @closesLoop _ _ _ _ rewind _ _ hl =>
      cases rewind with
      | none => exact .stays rfl
      | some header => exact .rewinds hk hl rfl
    | closesMethod _ hl => exact hl.moves hk rfl
    | _ => exact .stays rfl

/-- A call that is executed ends in the store that it has `entered`. -/
theorem Executes.entered (h : Executes line cursor store result after)
    (hs : store.flow.suspended = false) (hk : store.classify line.tokens = .ok .call) :
    ∃ invocation, after = store.entered invocation cursor := by
  cases h with
  | blank hl =>
    rw [Line.isEmpty_of_classify hk] at hl
    cases hl
  | skips _ hs' _ =>
    rw [hs] at hs'
    cases hs'
  | performs _ _ hi h =>
    obtain ⟨hcommand, -⟩ := interpret_eq_ok_iff.1 hi
    obtain rfl := Except.ok.inj (hk.symm.trans hcommand)
    cases h with
    | @calls _ invocation _ _ _ _ => exact ⟨invocation, rfl⟩

/-- A line that `Leaves` a call leaves the loops alone. -/
theorem loops_of_leaves (hl : Leaves cursor store next after) :
    after.flow.loops = store.flow.loops := by
  cases hl <;> rfl

/-- A line opens a loop at its own address, closes the innermost one, or leaves the loops alone. -/
theorem Executes.loops_cases (h : Executes line cursor store result after) :
    after.flow.loops = store.flow.loops ∨
      (∃ rewind, store.classify line.tokens = .ok (.keyword (.closes .loop)) ∧
        store.flow.loops = after.flow.loops.cons rewind) ∨
      ∃ condition : Condition, store.classify line.tokens = .ok (.keyword (.opens .loop)) ∧
        after.flow.loops = store.flow.loops.cons (condition.rewind cursor) := by
  cases h with
  | blank _ => exact .inl rfl
  | skips _ _ h =>
    cases h with
    | endsLoop hk _ hl => exact .inr (.inl ⟨_, hk, hl⟩)
    | endsDefinition _ _ hl => exact .inl ((loops_of_leaves hl).trans (loops_closed _ cursor))
    | _ => exact .inl rfl
  | performs _ _ hi h =>
    cases h with
    | @loops _ condition _ _ _ => exact .inr (.inr ⟨condition, (interpret_eq_ok_iff.1 hi).1, rfl⟩)
    | closesLoop _ _ hl => exact .inr (.inl ⟨_, (interpret_eq_ok_iff.1 hi).1, hl⟩)
    | closesMethod _ hl => exact .inl (loops_of_leaves hl)
    | _ => exact .inl rfl

end Store

end Sketch
