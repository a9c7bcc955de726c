import Sketch.Proofs.Blocks
import Sketch.Proofs.Environment

/-!
# What a line asks for does not depend on the run

The variables are looked at before anything else when a line is classified, so that the same line
could ask for different things at different times. Main statement: `Engine.classify_static`, it does
not in any engine that can be reached, but for lines that are of no use in any of them. In
particular the openers and closers of blocks are known from the text of a line alone.

A bound name is free and so neither a keyword nor a call. What is left are lines that begin with a
free name. Those with the form of an assignment are assignments whether the name is bound or not,
and the others can never be executed (`Store.Named.not_executes`).
-/

namespace Sketch

namespace Store

variable {store after : Store} {line : Line} {cursor : Address} {first : String}
  {rest : List String}

/-- The names of a `Scoped` store are free. -/
theorem Scoped.named (h : store.Scoped) : store.Named where
  vars :=
    { globals := fun name hmem => (Name.usable_iff.1 (h.globals name hmem)).1
      scopes := fun _ hs _ hmem => (Name.usable_iff.1 (h.usable_of_mem_scope hs hmem)).1 }
  methods := fun name method hm parameter hmem =>
    (Name.usable_iff.1 ((h.methods.entries name method hm).parameters parameter hmem)).1

/-- In a `Named` store, `classify` is `ofTokens`, unless the line begins with a free name and has
not the shape of an assignment. -/
theorem Named.classify_eq_ofTokens (h : store.Named)
    (hstatic : Name.isFree first = true → Command.hasAssignmentShape (first :: rest) = true) :
    store.classify (first :: rest) = Command.ofTokens (first :: rest) := by
  cases hc : store.vars.contains first with
  | false => simp [classify, Command.ofTokens, Command.classify, hc]
  | true =>
    have hshape := hstatic (h.vars.isFree_of_contains hc)
    simp [classify, Command.ofTokens, Command.classify, hc, hshape]

/-- In a `Named` store, a line that begins with a free name and has not the shape of an assignment
is not in `Executes`. -/
theorem Named.not_executes {step : Step} (h : store.Named) (hs : store.flow.suspended = false)
    (ht : line.tokens = first :: rest) (hfree : Name.isFree first = true)
    (hshape : Command.hasAssignmentShape line.tokens = false) :
    ¬ Executes line cursor store step after := by
  -- whatever the store binds, such a line can only be taken for an assignment
  have hassign : ∀ command, store.classify line.tokens = .ok command → command = .assignment := by
    intro command hc
    rcases h.classify_cases line.tokens with heq | ⟨heq, -⟩
    · rw [heq, ht] at hc
      rcases Command.ofTokens_of_isFree hfree rest with ho | ⟨fault, ho⟩
      · rw [ho] at hc
        cases hc
        rfl
      · rw [ho] at hc
        cases hc
    · rw [heq] at hc
      cases hc
      rfl
  intro he
  cases he with
  | blank hl =>
    rw [Line.isEmpty, ht] at hl
    cases hl
  | skips _ hsuspended _ =>
    rw [hs] at hsuspended
    cases hsuspended
  | performs _ _ hi hp =>
    obtain ⟨hclassify, hsubstitute⟩ := interpret_eq_ok_iff.1 hi
    obtain rfl := hassign _ hclassify
    cases hp with
    | assigns hparse _ _ =>
      rw [hasAssignmentShape_of_parse hsubstitute hparse] at hshape
      cases hshape

end Store

namespace Engine

/-- **Lines are classified by their text.** `classify` gives one result for a line in all
`Reachable` engines, or the line begins with a free name, has not the shape of an assignment and
fails wherever it is executed. It gives a keyword exactly if the line begins with its text and has
not the shape of an assignment. -/
theorem classify_static {line : Line} {first : String} {rest : List String}
    (ht : line.tokens = first :: rest) :
    ((∃ result, ∀ engine, Reachable (fun _ => True) engine →
        engine.store.classify line.tokens = result) ∨
      Name.isFree first = true ∧ Command.hasAssignmentShape line.tokens = false ∧
        ∀ engine cursor, Reachable (fun _ => True) engine → engine.store.flow.suspended = false →
          ∃ fault after, execute line cursor engine = .error fault after) ∧
      ∀ engine keyword, Reachable (fun _ => True) engine →
        (engine.store.classify line.tokens = .ok (.keyword keyword) ↔
          first = keyword.text ∧ Command.hasAssignmentShape line.tokens = false) := by
  refine ⟨?_, ?_⟩
  · -- the only lines that depend on the store begin with a free name, which may be bound or not
    by_cases hvaries : Name.isFree first = true ∧ Command.hasAssignmentShape line.tokens = false
    · obtain ⟨hfree, hshape⟩ := hvaries
      refine .inr ⟨hfree, hshape, fun engine cursor h hs => ?_⟩
      cases he : execute line cursor engine with
      | error fault after => exact ⟨fault, after, rfl⟩
      | ok next after =>
        obtain ⟨step, hx, -, -⟩ := execute_eq_ok_iff.1 he
        exact absurd hx (h.scoped.named.not_executes hs ht hfree hshape)
    · refine .inl ⟨Command.ofTokens line.tokens, fun engine h => ?_⟩
      rw [ht] at hvaries ⊢
      refine h.scoped.named.classify_eq_ofTokens fun hfree => ?_
      simpa [hfree] using hvaries
  · intro engine keyword h
    rw [h.scoped.named.classify_line_iff, Line.keyword?, ht, List.head?_cons, Option.bind_some]
    cases Command.hasAssignmentShape (first :: rest) with
    | true => simp
    | false => simp [Keyword.ofText?_eq_some_iff]

/-- `x + 1` is no command before `x` is bound and an assignment afterwards, which fails. A closer
with something after it is a closer at any time. -/
theorem classify_static_sum : ∃ engine, Reachable (fun _ => True) engine ∧
    initial.store.classify (Line.ofText "x + 1").tokens ≠ .ok .assignment ∧
    engine.store.classify (Line.ofText "x + 1").tokens = .ok .assignment ∧
    (∃ fault after, execute (.ofText "x + 1") 0 engine = .error fault after) ∧
    engine.store.classify (Line.ofText "ENDWHILE x").tokens = .ok (.keyword (.closes .loop)) := by
  have hrun : (run (.parse "x = 1\n") 3 .initial).map (fun outcome =>
      ((outcome.engine.store.classify (Line.ofText "x + 1").tokens).toOption,
        outcome.engine.store.flow.suspended)) = some (some .assignment, false) := by
    decide +kernel
  obtain ⟨outcome, houtcome, hend⟩ := Option.map_eq_some_iff.1 hrun
  obtain ⟨hoption, hs⟩ := Prod.mk.inj hend
  have hassign := toOption_eq_some_iff.1 hoption
  have hreach : Reachable (fun _ => True) outcome.engine :=
    Reachable.initial.run houtcome fun _ _ => trivial
  have hbefore : initial.store.classify (Line.ofText "x + 1").tokens ≠ .ok .assignment := by
    rw [Ne, ← toOption_eq_some_iff]
    decide +kernel
  refine ⟨outcome.engine, hreach, hbefore, hassign, ?_, ?_⟩
  · have htokens : (Line.ofText "x + 1").tokens = ["x", "+", "1"] := by decide +kernel
    rcases (classify_static htokens).1 with ⟨result, hsame⟩ | ⟨-, -, hfails⟩
    · exact absurd ((hsame initial .initial).trans ((hsame _ hreach).symm.trans hassign)) hbefore
    · exact hfails outcome.engine 0 hreach hs
  · have htokens : (Line.ofText "ENDWHILE x").tokens = ["ENDWHILE", "x"] := by decide +kernel
    exact ((classify_static htokens).2 outcome.engine (.closes .loop) hreach).2
      ⟨rfl, by rw [htokens]; rfl⟩

end Engine

end Sketch
