import Sketch.Proofs.Classification

/-!
# Blocks that are skipped

While lines are skipped, a well nested sequence of lines leaves nothing behind, whatever its lines
say. Main statement: `Engine.balanced_skipped`, which also follows the header of a branch or loop
whose condition does not hold to its closing line.

The nested blocks lie on top of what was open before and are closed in the reverse order, so that a
closer always finds its own block there. The induction is on the nesting (`Engine.skipsOver_block`).
-/

namespace Sketch

/-- How many blocks are open at once inside of a block. -/
def Block.depth : Block → Nat
  | .done => 0
  | .plain _ _ rest => rest.depth
  | .nest _ _ _ body _ _ rest => max (body.depth + 1) rest.depth

/-- The line is the header of a branch or loop whose condition does not hold. -/
def Store.Declines (store : Store) (line : Line) (construct : Construct) : Prop :=
  construct ≠ .method ∧ ∃ tokens condition,
    store.interpret line.tokens = .ok (.keyword (.opens construct), tokens) ∧
      Condition.parse (.opens construct) tokens = .ok condition ∧ condition.holds = false

namespace Engine

variable {engine between last : Engine} {line : Line} {a : Address}
  {places more : List (Line × Address)}

/-- Lines are executed one after the other, each at its address. Every one of them is met while
lines are skipped, succeeds and leaves the cursor where it is. -/
inductive SkipsOver : List (Line × Address) → Engine → Engine → Prop where
  | nil {engine : Engine} : SkipsOver [] engine engine
  | cons {line : Line} {a : Address} {places : List (Line × Address)}
      {engine between last : Engine} (hs : engine.store.flow.suspended = true)
      (he : execute line a engine = .ok a between) (hrest : SkipsOver places between last) :
      SkipsOver ((line, a) :: places) engine last

/-- `SkipsOver` is kept by going on. -/
theorem SkipsOver.append (h : SkipsOver places engine between)
    (hm : SkipsOver more between last) : SkipsOver (places ++ more) engine last := by
  induction h with
  | nil => exact hm
  | cons hs he _ ih => exact .cons hs he (ih hm)

/-- While lines are skipped, a block whose depth keeps to `frameBound` leaves no trace. -/
theorem skipsOver_block {block : Block} (hn : engine.store.Named)
    (hs : engine.store.flow.suspended = true)
    (room : engine.store.flow.frames.height + block.depth ≤ frameBound.size)
    (hb : places.map Prod.fst = block.lines) : SkipsOver places engine engine := by
  induction block generalizing engine places with
  | done =>
    obtain rfl := List.map_eq_nil_iff.1 hb
    exact .nil
  | plain line hline rest ih =>
    obtain ⟨⟨_, a⟩, places, rfl, rfl, hrest⟩ := List.map_eq_cons_iff.1 hb
    exact .cons hs (execute_of_step (hn.executes_plain hs hline a)) (ih hn hs room hrest)
  | nest construct opener hopener body closer hcloser rest ihbody ihrest =>
    obtain ⟨⟨opener, a⟩, _, rfl, rfl, htail⟩ := List.map_eq_cons_iff.1 hb
    obtain ⟨inside, _, rfl, hinside, htail⟩ := List.map_eq_append_iff.1 htail
    obtain ⟨⟨closer, b⟩, after, rfl, rfl, hafter⟩ := List.map_eq_cons_iff.1 htail
    simp only [Block.depth] at room
    -- the body is passed with the nested block on top, which the closer takes off again
    let inner : Engine := ⟨{ engine.store with
      flow.frames := engine.store.flow.frames.cons ⟨construct, .nested⟩ }, engine.canvas⟩
    have hinner : inner.store.Named := ⟨hn.vars, hn.methods⟩
    have hopens : execute opener a engine = .ok a inner :=
      execute_of_step (hn.executes_opener hs hopener (by omega) a)
    have hbody : SkipsOver inside inner inner := by
      refine ihbody hinner rfl ?_ hinside
      show engine.store.flow.frames.height + 1 + body.depth ≤ frameBound.size
      omega
    have hcloses : execute closer b inner = .ok b engine :=
      execute_of_step (hinner.executes_closer rfl hcloser b)
    have hrest : SkipsOver after engine engine := ihrest hn hs (by omega) hafter
    exact .cons hs hopens (hbody.append (.cons rfl hcloses hrest))

/-- The header of a branch or loop that `Declines` opens a skipped block, and its closer takes away
all that the header has opened. -/
theorem exists_declined {construct : Construct} {header closer : Line} {lost : Nat}
    (hr : engine.store.Regular lost) (hn : engine.store.Named)
    (hs : engine.store.flow.suspended = false)
    (room : engine.store.flow.frames.height < frameBound.size)
    (hd : engine.store.Declines header construct)
    (hcloser : closer.keyword? = some (.closes construct)) (a b : Address) :
    ∃ first, execute header a engine = .ok a first ∧ first.store.Named ∧
      first.store.flow.frames = engine.store.flow.frames.cons ⟨construct, .skipping⟩ ∧
      execute closer b first = .ok b engine := by
  obtain ⟨hm, tokens, condition, hi, hp, hfalse⟩ := hd
  have hheader : header.isEmpty = false :=
    Line.isEmpty_of_classify (Store.interpret_eq_ok_iff.1 hi).1
  have hempty := Line.isEmpty_of_keyword? hcloser
  have hmode : condition.mode = .skipping := by simp [Condition.mode, hfalse]
  cases construct with
  | method => exact absurd rfl hm
  | branch =>
    let first : Engine := ⟨{ engine.store with
      flow.frames := engine.store.flow.frames.cons ⟨.branch, condition.mode⟩ }, engine.canvas⟩
    have hfirst : first.store.Named := ⟨hn.vars, hn.methods⟩
    have hframes : first.store.flow.frames =
        engine.store.flow.frames.cons ⟨.branch, .skipping⟩ := by rw [← hmode]
    have hskips : first.store.flow.suspended = true :=
      Flow.suspended_of_cons hframes (by simp)
    refine ⟨first, execute_of_step (.performs hheader hs hi (.branches hp room)), hfirst, hframes,
      execute_of_step (.skips hempty hskips ?_)⟩
    exact .closes (hfirst.classify_line_iff.2 hcloser) hframes (.inr rfl)
  | loop =>
    -- every open loop has a block, so there is room for the loop if there is for its block
    have hloops : engine.store.flow.loops.height < loopBound.size :=
      Nat.lt_of_le_of_lt hr.stands.loops_le_frames room
    let first : Engine := ⟨{ engine.store with
      flow.frames := engine.store.flow.frames.cons ⟨.loop, condition.mode⟩
      flow.loops := engine.store.flow.loops.cons (condition.rewind a) }, engine.canvas⟩
    have hfirst : first.store.Named := ⟨hn.vars, hn.methods⟩
    have hframes : first.store.flow.frames =
        engine.store.flow.frames.cons ⟨.loop, .skipping⟩ := by rw [← hmode]
    have hskips : first.store.flow.suspended = true :=
      Flow.suspended_of_cons hframes (by simp)
    refine ⟨first, execute_of_step (.performs hheader hs hi (.loops hp room hloops)), hfirst,
      hframes, execute_of_step (.skips hempty hskips ?_)⟩
    exact .endsLoop (hfirst.classify_line_iff.2 hcloser) hframes rfl

/-- **What is skipped leaves nothing behind.** In every `Reachable` engine, let the lines of a
`Block` be executed at any addresses. If lines are skipped and the stack of frames can take the
depth of the block, then every line succeeds, keeps the cursor and is skipped, and the engine is as
it was (`SkipsOver`). If lines are executed and it can take one frame more, then the same holds from
the header of a branch or loop that `Declines` to its closer. -/
theorem balanced_skipped (h : Reachable (fun _ => True) engine) {block : Block}
    (hb : places.map Prod.fst = block.lines) :
    (engine.store.flow.suspended = true →
      engine.store.flow.frames.height + block.depth ≤ 65535 → SkipsOver places engine engine) ∧
    (engine.store.flow.suspended = false →
      engine.store.flow.frames.height + block.depth + 1 ≤ 65535 →
      ∀ (construct : Construct) (header closer : Line) (a b : Address),
        engine.store.Declines header construct → closer.keyword? = some (.closes construct) →
        ∃ first, execute header a engine = .ok a first ∧
          SkipsOver (places ++ [(closer, b)]) first engine) := by
  have hn := h.scoped.named
  obtain ⟨lost, hr, -⟩ := h.regular
  refine ⟨fun hs room => skipsOver_block hn hs room hb, ?_⟩
  intro hs room construct header closer a b hd hcloser
  have hroom : engine.store.flow.frames.height < frameBound.size := by
    simp only [frameBound, entryLimit]
    omega
  obtain ⟨first, he, hfirst, hframes, hends⟩ :=
    exists_declined hr hn hs hroom hd hcloser a b
  have hskips : first.store.flow.suspended = true :=
    Flow.suspended_of_cons hframes (by simp)
  have hbody : SkipsOver places first first := by
    refine skipsOver_block hfirst hskips ?_ hb
    rw [hframes, Stack.height_cons]
    simp only [frameBound, entryLimit]
    omega
  exact ⟨first, he, hbody.append (.cons hskips hends .nil)⟩

/-- Words that are no commands, headers that cannot be read and closers with too many words, in
blocks of all three kinds. -/
def clutter : Block :=
  .plain (.ofText "circle nowhere") rfl
    (.nest .method (.ofText "METHOD") rfl
      (.nest .loop (.ofText "WHILE unknown") rfl
        (.nest .branch (.ofText "IF") rfl .done (.ofText "ENDIF 5") rfl
          (.plain (.ofText "f(\"") rfl .done))
        (.ofText "ENDWHILE at once") rfl
        (.plain (.ofText "x = 1 / 0") rfl .done))
      (.ofText "ENDMETHOD") rfl
      (.nest .loop (.ofText "WHILE") rfl .done (.ofText "ENDWHILE") rfl .done))

/-- A loop that is declined inside a loop of a called method, and what is skipped in it. -/
theorem balanced_skipped_clutter : ∃ engine first : Engine,
    Reachable (fun _ => True) engine ∧ Reachable (fun _ => True) first ∧
      clutter.depth = 3 ∧ (clutter.lines.map (·, 7)).map Prod.fst = clutter.lines ∧
      engine.store.flow.frames.toList =
        [⟨.method, .executing⟩, ⟨.branch, .executing⟩, ⟨.loop, .executing⟩] ∧
      engine.store.Declines (.ofText "WHILE n > 9") .loop ∧
      execute (.ofText "WHILE n > 9") 5 engine = .ok 5 first ∧
      first.store.flow.suspended = true ∧ SkipsOver (clutter.lines.map (·, 7)) first first ∧
      SkipsOver (clutter.lines.map (·, 7) ++ [(.ofText "ENDWHILE n", 2)]) first engine := by
  have hrun : (run descent 40 .initial).map (fun outcome =>
      (outcome.engine.store.flow.frames.toList, outcome.engine.store.flow.frames.height,
        outcome.engine.store.flow.suspended)) =
      some ([⟨.method, .executing⟩, ⟨.branch, .executing⟩, ⟨.loop, .executing⟩], 3, false) := by
    decide +kernel
  have hheader : ((run descent 40 .initial).bind fun outcome =>
      (value? (execute (.ofText "WHILE n > 9") 5 outcome.engine)).map (fun next =>
        ((outcome.engine.store.interpret (Line.ofText "WHILE n > 9").tokens).toOption,
          next.2.store.flow.frames.height, next.2.store.flow.suspended))) =
      some (some (.keyword (.opens .loop), ["WHILE", "3", ">", "9"]), 4, true) := by
    decide +kernel
  obtain ⟨outcome, houtcome, hend⟩ := Option.map_eq_some_iff.1 hrun
  simp only [Prod.mk.injEq] at hend
  obtain ⟨hframes, hheight, hs⟩ := hend
  rw [houtcome, Option.bind_some] at hheader
  obtain ⟨⟨_, first⟩, he, hend⟩ := Option.map_eq_some_iff.1 hheader
  simp only [Prod.mk.injEq] at hend
  obtain ⟨hinterpret, hroom, hskips⟩ := hend
  have hreach : Reachable (fun _ => True) outcome.engine :=
    Reachable.initial.run houtcome fun _ _ => trivial
  have hd : outcome.engine.store.Declines (.ofText "WHILE n > 9") .loop :=
    ⟨by decide, _, ⟨3, .greater, 9⟩, toOption_eq_some_iff.1 hinterpret, rfl, rfl⟩
  have hb : (clutter.lines.map (·, (7 : Address))).map Prod.fst = clutter.lines := by
    rw [List.map_map]
    exact List.map_id _
  have hdepth : clutter.depth = 3 := rfl
  obtain ⟨first', he', hover⟩ := (balanced_skipped hreach hb).2 hs (by rw [hheight, hdepth]; decide)
    .loop (.ofText "WHILE n > 9") (.ofText "ENDWHILE n") 5 2 hd (by decide)
  have hsame := (value?_eq_some_iff.1 he).symm.trans he'
  cases hsame
  have hnext : Reachable (fun _ => True) first := hreach.execute he'
  exact ⟨outcome.engine, first, hreach, hnext, hdepth, hb, hframes, hd, he', hskips,
    (balanced_skipped hnext hb).1 hskips (by rw [hroom, hdepth]; decide), hover⟩

end Engine

end Sketch
