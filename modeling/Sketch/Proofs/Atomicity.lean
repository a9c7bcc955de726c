import Sketch.Proofs.Reachable

/-!
# Lines that fail

A line that fails leaves the cursor and the engine as they were, with one exception: a call or a new
definition that passes all its checks and fails with `full frameBound` on the push of its frame. The
call has then pushed its scope and its call, and the definition has inserted its method, and neither
is taken back (`Store.Leftover`). `failed_line_unchanged_iff` says that nothing else is ever left
behind, and `failed_line_can_change_engine` that the exception occurs.
-/

namespace Sketch

namespace Store

variable {store left : Store} {line : Line} {cursor : Address}

/-- With as many frames as `frameBound` allows, the line fails and leaves the `Leftover` behind. -/
theorem Leftover.fails (h : Leftover line cursor store left)
    (hs : store.flow.suspended = false) (full : frameBound.size ≤ store.flow.frames.height) :
    Fails line cursor store (.full frameBound) left := by
  have hnonempty : ∀ {command : Command} {tokens : List String},
      store.interpret line.tokens = .ok (command, tokens) → line.isEmpty = false := by
    intro command tokens hi
    obtain ⟨_, hc, -⟩ := bind_ok_iff.1 hi
    exact Line.isEmpty_of_classify hc
  cases h with
  | call hi hr hscopes hcalls =>
    exact .performs (hnonempty hi) hs hi (.callFrame hr hscopes hcalls full)
  | @method _ signature _ hi hr hn hm =>
    refine .performs (hnonempty hi) hs hi (.defineFrame hr ?_ full)
    simpa only [register, hn] using hm

/-- A `Leftover` is another store. -/
theorem Leftover.ne (h : Leftover line cursor store left) : left ≠ store := by
  intro heq
  cases h with
  | call _ _ _ _ =>
    have := congrArg (fun s : Store => s.flow.calls.height) heq
    simp at this
  | @method _ signature methods _ _ hn hm =>
    have hfind : methods.find? signature.head = none := by
      have := congrArg Store.methods heq
      simpa only [← this] using hn
    unfold Methods.insert at hm
    split at hm <;> cases hm
    simp [Methods.find?] at hfind

end Store

namespace Engine

variable {engine after : Engine} {line : Line} {cursor : Address} {stop : Stop}

/-- **What a line that fails leaves behind.** In every `Reachable` engine, a line that fails leaves
the cursor and the canvas as they were. It changes the store exactly if it is not skipped, there are
`frameBound` frames, and `Leftover` holds of some store: the line is a call or the header of a new
method and passes everything but the push of its frame. It then fails with `full frameBound` and
leaves such a store. -/
theorem failed_line_unchanged_iff (h : Reachable (fun _ => True) engine)
    (he : execute line cursor engine = .error stop after) :
    stop.cursor = cursor ∧ after.canvas = engine.canvas ∧
      (after.store = engine.store ∨
        stop.failure.fault = .full frameBound ∧
          Store.Leftover line cursor engine.store after.store) ∧
      (after.store = engine.store ↔
        ¬ (engine.store.flow.suspended = false ∧
          engine.store.flow.frames.height = frameBound.size ∧
          ∃ left, Store.Leftover line cursor engine.store left)) := by
  obtain ⟨lost, hr, -⟩ := h.regular
  obtain ⟨fault, rfl, hf, hcanvas⟩ := execute_eq_error_iff.1 he
  have hcases := hr.stands.fails hf
  refine ⟨rfl, hcanvas, ?_, ?_, ?_⟩
  · rcases hcases with hs | ⟨-, -, hfault, hl⟩
    · exact .inl hs
    · exact .inr ⟨hfault, hl⟩
  · rintro hs ⟨hrunning, full, left, hl⟩
    -- the line fails in one way only, and that way leaves something behind
    have hleft := Store.execute_of_fails (hl.fails hrunning (Nat.le_of_eq full.symm))
    rw [Store.execute_of_fails hf, hs] at hleft
    cases hleft
    exact hl.ne rfl
  · intro hn
    rcases hcases with hs | ⟨hrunning, full, -, hl⟩
    · exact hs
    · exact absurd ⟨hrunning, Nat.le_antisymm hr.bounded.frames full, _, hl⟩ hn

/-! ## The exception occurs -/

/-- An engine in which this many branches are open. -/
def withBranches (count : Nat) : Engine :=
  ⟨{ Store.empty with flow.frames := .ofEntries (List.replicate count ⟨.branch, .executing⟩) },
    .blank⟩

/-- In `withBranches` lines are executed. -/
theorem suspended_withBranches (count : Nat) :
    (withBranches count).store.flow.suspended = false := by
  rw [Flow.suspended_eq]
  cases count <;> rfl

/-- In `withBranches` there are as many frames as branches. -/
theorem height_withBranches (count : Nat) :
    (withBranches count).store.flow.frames.height = count := by
  simp [withBranches, Stack.ofEntries]

/-- Branches can be opened until there are `frameBound` frames. -/
theorem reachable_withBranches {tolerated : Fault → Prop} {count : Nat}
    (h : count ≤ frameBound.size) : Reachable tolerated (withBranches count) := by
  induction count with
  | zero => exact .initial
  | succ count ih =>
    have hinterpret : (withBranches count).store.interpret (Line.ofText "IF 1 < 2").tokens =
        .ok (.keyword (.opens .branch), ["IF", "1", "<", "2"]) := rfl
    have hparse : Condition.parse (.opens .branch) ["IF", "1", "<", "2"] = .ok ⟨1, .less, 2⟩ := rfl
    have hroom : (withBranches count).store.flow.frames.height < frameBound.size := by
      rw [height_withBranches]
      exact h
    have hexecute : execute (Line.ofText "IF 1 < 2") 0 (withBranches count) =
        .ok 0 (withBranches (count + 1)) :=
      execute_eq_ok_iff.2 ⟨⟨0, none⟩, .performs rfl (suspended_withBranches count) hinterpret
        (.branches hparse hroom), rfl, rfl⟩
    exact .execute (ih (by omega)) hexecute

/-- The `Leftover` of a definition in an engine with only branches open. -/
theorem leftover_definition (count : Nat) :
    Store.Leftover (Line.ofText "METHOD f()") 0 (withBranches count).store
      { (withBranches count).store with
        methods := ⟨(∅ : Std.ExtTreeMap String Method).insert "f" ⟨[], 0, none⟩⟩ } := by
  have hinterpret : (withBranches count).store.interpret (Line.ofText "METHOD f()").tokens =
      .ok (.keyword (.opens .method), ["METHOD", "f()"]) := rfl
  have hheader : (withBranches count).store.readHeader ["METHOD", "f()"] 0 = .ok ⟨"f", []⟩ := rfl
  exact .method hinterpret hheader rfl rfl

/-- With `frameBound` frames, a definition fails and has inserted its method all the same. -/
theorem execute_definition_of_full :
    execute (Line.ofText "METHOD f()") 0 (withBranches frameBound.size) =
      .error (Fault.stop (.full frameBound) 0)
        ⟨{ (withBranches frameBound.size).store with
            methods := ⟨(∅ : Std.ExtTreeMap String Method).insert "f" ⟨[], 0, none⟩⟩ }, .blank⟩ :=
  execute_eq_stop_iff.2 ⟨(leftover_definition _).fails (suspended_withBranches _)
    (Nat.le_of_eq (height_withBranches _).symm), rfl⟩

/-- The definition of a method with `frameBound` frames open leaves the cursor and the canvas alone,
and the store not. -/
theorem failed_line_unchanged_iff_definition :
    Reachable (fun _ => True) (withBranches frameBound.size) ∧
      ∃ stop after, execute (Line.ofText "METHOD f()") 0 (withBranches frameBound.size) =
          .error stop after ∧
        stop.cursor = 0 ∧ after.canvas = (withBranches frameBound.size).canvas ∧
        after.store ≠ (withBranches frameBound.size).store := by
  have hreach : Reachable (fun _ => True) (withBranches frameBound.size) :=
    reachable_withBranches (Nat.le_refl _)
  obtain ⟨hcursor, hcanvas, -, hiff⟩ := failed_line_unchanged_iff hreach execute_definition_of_full
  refine ⟨hreach, _, _, execute_definition_of_full, hcursor, hcanvas, fun hs => ?_⟩
  exact hiff.1 hs ⟨suspended_withBranches _, height_withBranches _, _, leftover_definition _⟩

/-- Not every line that fails leaves the engine as it was, not even in an engine that is reached
without any failure. -/
theorem failed_line_can_change_engine : ∃ (engine after : Engine) (line : Line) (cursor : Address)
    (stop : Stop), Reachable (fun _ => False) engine ∧
      execute line cursor engine = .error stop after ∧ after ≠ engine := by
  refine ⟨_, _, _, _, _, reachable_withBranches (Nat.le_refl _), execute_definition_of_full, ?_⟩
  intro heq
  exact (leftover_definition _).ne (congrArg Engine.store heq)

end Engine

end Sketch
