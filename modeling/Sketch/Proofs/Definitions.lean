import Sketch.Proofs.Cursor

/-!
# Methods in the text of a program

Where a method begins and ends can be read off the text. It begins at its header, and it ends where
the blocks that the text opens from the header on are all closed again for the first time
(`Program.Closes`). Main statement: `Engine.methods_lexical`, the table of a run holds nothing else,
whatever the order in which the run comes to the lines and however often.

A definition is skipped line by line from its header to its end, and while it is skipped the blocks
on the stack above its own are those that the text has opened (`Store.Defining`). So the line that
takes its block from the stack is the end that the text gives.
-/

namespace Sketch

/-! ## Blocks in the text -/

/-- The open blocks, innermost first, after a line of the text. A closer closes the innermost block
if it is of its construct, and no other. -/
def Line.nests (line : Line) (opened : List Construct) : List Construct :=
  match line.keyword? with
  | some (.opens construct) => construct :: opened
  | some (.closes construct) => if opened.head? = some construct then opened.tail else opened
  | _ => opened

namespace Line

variable {line : Line} {opened : List Construct} {construct : Construct}

/-- An opener `nests` a block of the text. -/
theorem nests_of_opens (h : line.keyword? = some (.opens construct)) :
    line.nests opened = construct :: opened := by
  rw [nests, h]

/-- A closer closes the innermost block of the text if that is of its construct. -/
theorem nests_of_closes (h : line.keyword? = some (.closes construct)) :
    line.nests (construct :: opened) = opened := by
  rw [nests, h]
  exact if_pos rfl

/-- A line that opens nothing and finds nothing to close does not matter. -/
theorem nests_of_ignored (ho : ∀ construct, line.keyword? ≠ some (.opens construct))
    (hc : ∀ construct, line.keyword? = some (.closes construct) → opened.head? ≠ some construct) :
    line.nests opened = opened := by
  unfold nests
  split
  · next construct h => exact absurd h (ho construct)
  · next construct h => exact if_neg (hc construct h)
  · rfl

end Line

namespace Program

/-- The blocks that are open, innermost first, after the header of a method and the `n` lines that
follow it. -/
def openAfter (program : Program) (start : Nat) : (n : Nat) → List Construct
  | 0 => [.method]
  | n + 1 =>
    match program.lines[start + n + 1]? with
    | some line => line.nests (program.openAfter start n)
    | none => program.openAfter start n

/-- The line at `finish` is the first one after the header at `start` with which all blocks are
closed. -/
def Closes (program : Program) (start finish : Address) : Prop :=
  ∃ n, finish.toNat = start.toNat + n ∧ program.openAfter start.toNat n = [] ∧
    ∀ k < n, program.openAfter start.toNat k ≠ []

variable {program : Program} {start finish : Address} {line : Line}

/-- `Closes` gives a method one end. -/
theorem Closes.unique {other : Address} (h : program.Closes start finish)
    (ho : program.Closes start other) : finish = other := by
  obtain ⟨n, hn, hempty, hfirst⟩ := h
  obtain ⟨m, hm, hempty', hfirst'⟩ := ho
  have hnm : n = m := by
    rcases Nat.lt_trichotomy n m with hlt | heq | hlt
    · exact absurd hempty (hfirst' n hlt)
    · exact heq
    · exact absurd hempty' (hfirst m hlt)
  apply UInt64.toNat_inj.1
  rw [hn, hm, hnm]

/-- One more line opens or closes blocks as `Line.nests` says. -/
theorem openAfter_succ {a : Address} {n : Nat} (ha : a.toNat = start.toNat + n + 1)
    (hl : program.line? a = some line) :
    program.openAfter start.toNat (n + 1) = line.nests (program.openAfter start.toNat n) := by
  rw [line?, ha] at hl
  rw [openAfter, hl]

end Program

/-! ## The table -/

/-- The method has its header in the program, with its name and its parameters, and if its end has
been met, that is the end that the text gives. -/
structure Method.Lexical (program : Program) (name : String) (method : Method) : Prop where
  start_lt : method.start.toNat < program.size
  header : ∃ line, program.line? method.start = some line ∧
    line.header? = some ⟨name, method.parameters⟩
  finish : ∀ finish, method.finish = some finish → program.Closes method.start finish

namespace Methods

variable {program : Program} {methods later last : Methods} {name : String}

/-- All methods of the table are those of the text. -/
def Lexical (program : Program) (methods : Methods) : Prop :=
  ∀ name method, methods.find? name = some method → method.Lexical program name

/-- The end of each method has been met. -/
def Complete (methods : Methods) : Prop :=
  ∀ name method, methods.find? name = some method → method.finish.isSome = true

/-- Every method is in the later table as it was, or its end has been met and was not known
before. -/
def Grows (program : Program) (methods later : Methods) : Prop :=
  ∀ name method, methods.find? name = some method →
    later.find? name = some method ∨
      ∃ finish, method.finish = none ∧ program.Closes method.start finish ∧
        later.find? name = some { method with finish := some finish }

/-- `Grows` is reflexive. -/
theorem Grows.refl : methods.Grows program methods :=
  fun _ _ hm => .inl hm

/-- `Grows` is transitive. -/
theorem Grows.trans (h : methods.Grows program later) (hl : later.Grows program last) :
    methods.Grows program last := by
  intro name method hm
  rcases h name method hm with hsame | ⟨finish, hnone, hcloses, hended⟩
  · exact hl name method hsame
  · rcases hl name _ hended with hsame | ⟨_, hsome, -⟩
    · exact .inr ⟨finish, hnone, hcloses, hsame⟩
    · cases hsome

/-- A table `Grows` when a method is inserted under a new name. -/
theorem grows_insert {entry : Method} (hnew : methods.find? name = none)
    (hi : methods.insert name entry = .ok later) : methods.Grows program later := by
  intro other method hm
  have hne : name ≠ other := by
    rintro rfl
    rw [hnew] at hm
    cases hm
  exact .inl (by rw [find?_insert hi, if_neg hne, hm])

/-- A table `Grows` when the end of a method in the text is recorded. -/
theorem grows_close {finish : Address}
    (hlexical : ∀ method, methods.find? name = some method →
      program.Closes method.start finish ∧
        ∀ known, method.finish = some known → program.Closes method.start known) :
    methods.Grows program (methods.close name finish) := by
  intro other method hm
  rw [find?_close, hm, Option.map_some]
  by_cases hname : name = other
  · subst hname
    obtain ⟨hcloses, hknown⟩ := hlexical method hm
    rw [if_pos rfl]
    cases hfinish : method.finish with
    | none => exact .inr ⟨finish, rfl, hcloses, rfl⟩
    | some known =>
      obtain rfl := (hknown known hfinish).unique hcloses
      exact .inl (by rw [← hfinish])
  · rw [if_neg hname]
    exact .inl rfl

end Methods

namespace Store

variable {program : Program} {store after : Store} {line : Line} {a b next start : Address}
  {tokens : List String} {result : Step}

/-! ## Skipping a definition -/

/-- The definition with its header at `start` is being skipped, and the line at `a` comes next. Of
the blocks that the text opens after the header, those are open that are on the stack. -/
def Defining (program : Program) (a : Address) (store : Store) (start : Address) : Prop :=
  ∃ nested below n, store.flow.frames.entries = nested ++ ⟨.method, .skipping⟩ :: below ∧
    (∀ frame ∈ nested, frame.mode = .nested) ∧ a.toNat = start.toNat + n + 1 ∧
    program.openAfter start.toNat n = nested.map Frame.construct ++ [.method] ∧
    ∀ k ≤ n, program.openAfter start.toNat k ≠ []

namespace Defining

/-- The flow is `suspended` while a definition is skipped (`Defining`). -/
theorem suspended (h : store.Defining program a start) : store.flow.suspended = true := by
  obtain ⟨nested, below, -, hframes, hnested, -⟩ := h
  rw [Flow.suspended_eq, hframes]
  cases nested with
  | nil => rfl
  | cons frame nested => simp [topSuspended, Frame.isExecuting, hnested frame]

/-- `Defining` begins after the header: only the block of the definition is open, in the text and on
the stack. -/
theorem begins {below : Stack Frame} (hsize : program.size < UInt64.size)
    (hl : program.line? a = some line)
    (hf : after.flow.frames = below.cons ⟨.method, .skipping⟩) :
    after.Defining program (a + 1) a := by
  refine ⟨[], below.entries, 0, by rw [hf]; rfl, by simp, ?_, rfl, ?_⟩
  · exact Program.toNat_add_one hsize (Program.toNat_lt_of_line? hl)
  · intro k hk
    obtain rfl : k = 0 := Nat.le_zero.1 hk
    exact List.cons_ne_nil _ _

/-- `Defining` goes on over a line that does to the stack what it `nests` in the text. -/
theorem advance {nested nested' below : List Frame} {n : Nat}
    (hsize : program.size < UInt64.size) (hl : program.line? a = some line)
    (ha : a.toNat = start.toNat + n + 1)
    (hopen : program.openAfter start.toNat n = nested.map Frame.construct ++ [.method])
    (hfirst : ∀ k ≤ n, program.openAfter start.toNat k ≠ [])
    (hframes : after.flow.frames.entries = nested' ++ ⟨.method, .skipping⟩ :: below)
    (hnested : ∀ frame ∈ nested', frame.mode = .nested)
    (hline : line.nests (nested.map Frame.construct ++ [.method]) =
      nested'.map Frame.construct ++ [.method]) :
    after.Defining program (a + 1) start := by
  have hnext : program.openAfter start.toNat (n + 1) =
      nested'.map Frame.construct ++ [.method] := by
    rw [Program.openAfter_succ ha hl, hopen, hline]
  refine ⟨nested', below, n + 1, hframes, hnested, ?_, hnext, ?_⟩
  · rw [Program.toNat_add_one hsize (Program.toNat_lt_of_line? hl), ha]
    rfl
  · intro k hk
    rcases Nat.lt_or_eq_of_le hk with hlt | rfl
    · exact hfirst k (Nat.le_of_lt_succ hlt)
    · rw [hnext]
      exact List.append_ne_nil_of_right_ne_nil _ (List.cons_ne_nil _ _)

/-- The innermost block is one that the text has opened after the header, or that of the
definition. -/
theorem top_cases {nested below : List Frame} {frame : Frame} {frames : Stack Frame}
    (hframes : store.flow.frames.entries = nested ++ ⟨.method, .skipping⟩ :: below)
    (hf : store.flow.frames = frames.cons frame) :
    (∃ rest, nested = frame :: rest ∧ frames.entries = rest ++ ⟨.method, .skipping⟩ :: below) ∨
      nested = [] ∧ frame = ⟨.method, .skipping⟩ := by
  rw [hf, Stack.entries_cons] at hframes
  cases nested with
  | nil =>
    rw [List.nil_append, List.cons.injEq] at hframes
    exact .inr ⟨rfl, hframes.1⟩
  | cons first rest =>
    rw [List.cons_append, List.cons.injEq] at hframes
    exact .inl ⟨rest, by rw [hframes.1], hframes.2⟩

/-- `Defining` goes on over a line that opens nothing and closes nothing. -/
theorem ignores (h : store.Defining program a start) (hsize : program.size < UInt64.size)
    (hl : program.line? a = some line)
    (ho : ∀ construct, line.keyword? ≠ some (.opens construct))
    (hc : ∀ construct, line.keyword? = some (.closes construct) → store.Unmatched construct) :
    store.Defining program (a + 1) start := by
  obtain ⟨nested, below, n, hframes, hnested, ha, hopen, hfirst⟩ := h
  refine advance hsize hl ha hopen hfirst hframes hnested (Line.nests_of_ignored ho ?_)
  intro construct hk htop
  -- the innermost block in the text is the one on the stack
  have hunmatched := hc construct hk
  unfold Unmatched Flow.top? Stack.top? at hunmatched
  rw [hframes] at hunmatched
  cases nested with
  | nil => exact hunmatched .skipping (by simpa using htop)
  | cons frame nested =>
    refine hunmatched frame.mode ?_
    obtain rfl : frame.construct = construct := by simpa using htop
    rfl

/-- `Defining` goes on over an opener, which nests a block. -/
theorem nests {construct : Construct} (h : store.Defining program a start)
    (hsize : program.size < UInt64.size) (hl : program.line? a = some line)
    (ho : line.keyword? = some (.opens construct)) :
    Defining program (a + 1)
      { store with flow.frames := store.flow.frames.cons ⟨construct, .nested⟩ } start := by
  obtain ⟨nested, below, n, hframes, hnested, ha, hopen, hfirst⟩ := h
  have hframes' : (store.flow.frames.cons ⟨construct, .nested⟩).entries =
      (⟨construct, .nested⟩ :: nested) ++ ⟨.method, .skipping⟩ :: below := by
    rw [Stack.entries_cons, hframes, List.cons_append]
  refine advance hsize hl ha hopen hfirst hframes' (List.forall_mem_cons.2 ⟨rfl, hnested⟩) ?_
  rw [Line.nests_of_opens ho, List.map_cons, List.cons_append]

/-- `Defining` goes on over a closer that matches a nested block. -/
theorem closes {construct : Construct} {mode : Mode} {frames : Stack Frame}
    (h : store.Defining program a start) (hsize : program.size < UInt64.size)
    (hl : program.line? a = some line) (hc : line.keyword? = some (.closes construct))
    (hf : store.flow.frames = frames.cons ⟨construct, mode⟩)
    (hm : mode = .nested ∨ construct = .branch) :
    Defining program (a + 1) { store with flow.frames := frames } start := by
  obtain ⟨nested, below, n, hframes, hnested, ha, hopen, hfirst⟩ := h
  rcases top_cases hframes hf with ⟨rest, rfl, hrest⟩ | ⟨-, htop⟩
  · refine advance hsize hl ha hopen hfirst hrest (List.forall_mem_cons.1 hnested).2 ?_
    exact Line.nests_of_closes hc
  · cases htop
    simp at hm

/-- While a definition is skipped (`Defining`), no loop is the skipped block. -/
theorem frames_ne_loop (h : store.Defining program a start) {frames : Stack Frame} :
    store.flow.frames ≠ frames.cons ⟨.loop, .skipping⟩ := by
  intro hf
  obtain ⟨nested, below, n, hframes, hnested, -⟩ := h
  rcases top_cases hframes hf with ⟨rest, rfl, -⟩ | ⟨-, htop⟩
  · cases (List.forall_mem_cons.1 hnested).1
  · cases htop

/-- The line that closes the block of a definition `Closes` it in the text. -/
theorem ends (h : store.Defining program a start) (hl : program.line? a = some line)
    (hc : line.keyword? = some (.closes .method)) {frames : Stack Frame}
    (hf : store.flow.frames = frames.cons ⟨.method, .skipping⟩) : program.Closes start a := by
  obtain ⟨nested, below, n, hframes, hnested, ha, hopen, hfirst⟩ := h
  rcases top_cases hframes hf with ⟨rest, rfl, -⟩ | ⟨rfl, -⟩
  · cases (List.forall_mem_cons.1 hnested).1
  · refine ⟨n + 1, ha, ?_, fun k hk => hfirst k (Nat.le_of_lt_succ hk)⟩
    rw [Program.openAfter_succ ha hl, hopen]
    exact Line.nests_of_closes hc

end Defining

/-! ## The table at every point of a run -/

/-- A line that `Leaves` a call leaves the open definitions alone. -/
theorem definitions_of_leaves (hl : Leaves a store next after) :
    after.flow.definitions = store.flow.definitions := by
  cases hl <;> rfl

/-- The invariant of the table where the line at `a` comes next: the ends in it are those of the
text, and a method without one is being skipped. -/
structure Tabled (program : Program) (a : Address) (store : Store) : Prop where
  running : store.Running program
  finish : ∀ name method, store.methods.find? name = some method →
    ∀ finish, method.finish = some finish → program.Closes method.start finish
  unfinished : ∀ name method, store.methods.find? name = some method →
    method.finish = none → name ∈ store.flow.definitions.entries
  defining : ∀ name ∈ store.flow.definitions.entries, ∃ method,
    store.methods.find? name = some method ∧ store.Defining program a method.start

namespace Tabled

/-- `Tabled` holds at the start. -/
theorem empty (program : Program) : Tabled program 0 .empty where
  running := ⟨.empty, .empty program⟩
  finish name method hm := by simp [Store.empty, Methods.empty, Methods.find?] at hm
  unfinished name method hm := by simp [Store.empty, Methods.empty, Methods.find?] at hm
  defining name hmem := by simp [Store.empty, Flow.empty] at hmem

/-- `Tabled` says that the methods are those of the text. -/
theorem lexical (h : store.Tabled program a) : store.methods.Lexical program := by
  intro name method hm
  obtain ⟨line, hl, hheader⟩ := h.running.faithful.declared name method hm
  exact ⟨Program.toNat_lt_of_line? hl, ⟨line, hl, hheader⟩, h.finish name method hm⟩

/-- In a `Tabled` store that is not `suspended`, no definition is open. -/
theorem definitions_eq_nil (h : store.Tabled program a) (hs : store.flow.suspended = false) :
    store.flow.definitions.entries = [] := by
  have hheight := h.running.regular.stands.definitions_eq_zero hs
  rwa [store.flow.definitions.height_eq, List.length_eq_zero_iff] at hheight

/-- In a `Tabled` store that is not `suspended`, the table is `Complete`. -/
theorem complete (h : store.Tabled program a) (hs : store.flow.suspended = false) :
    store.methods.Complete := by
  intro name method hm
  cases hfinish : method.finish with
  | some finish => rfl
  | none =>
    have hopen := h.unfinished name method hm hfinish
    rw [h.definitions_eq_nil hs] at hopen
    cases hopen

/-- `Tabled` is kept where the table and the open definitions stay, if `Defining` goes on. -/
theorem keep (h : store.Tabled program a) (hr : after.Running program)
    (hm : after.methods = store.methods)
    (hd : after.flow.definitions = store.flow.definitions)
    (hgoes : ∀ start, store.Defining program a start → after.Defining program b start) :
    after.Tabled program b ∧ store.methods.Grows program after.methods := by
  refine ⟨⟨hr, ?_, ?_, ?_⟩, ?_⟩
  · rw [hm]
    exact h.finish
  · rw [hm, hd]
    exact h.unfinished
  · rw [hm, hd]
    intro name hmem
    obtain ⟨method, hfind, hdefining⟩ := h.defining name hmem
    exact ⟨method, hfind, hgoes method.start hdefining⟩
  · rw [hm]
    exact .refl

/-- `Tabled` is kept by the closer of a definition, which records the end that the text gives. -/
theorem endsDefinition (h : store.Tabled program a) (hr : after.Running program)
    (hl : program.line? a = some line) (hk : line.keyword? = some (.closes .method))
    {frames : Stack Frame} (hf : store.flow.frames = frames.cons ⟨.method, .skipping⟩)
    (hleaves : Leaves a (closed { store with flow.frames := frames } a) next after) :
    after.Tabled program b ∧ store.methods.Grows program after.methods := by
  have htop : store.control.frames = ⟨.method, .skipping⟩ :: frames.entries :=
    (congrArg Stack.entries hf).trans (Stack.entries_cons _ _)
  obtain ⟨name, hname, -, -⟩ :=
    (stands_bottom_iff.1 h.running.regular.stands).closeDefinition htop
  have hd : store.flow.definitions = Stack.cons name .empty := Stack.ext_entries hname
  have hmethods : after.methods = store.methods.close name a := by
    rw [methods_of_leaves hleaves, closed, hd, Stack.pop_cons]
  have hdefinitions : after.flow.definitions = .empty := by
    rw [definitions_of_leaves hleaves, closed, hd, Stack.pop_cons]
  have hcloses : ∀ method, store.methods.find? name = some method →
      program.Closes method.start a := by
    intro method hm
    obtain ⟨found, hfound, hdefining⟩ := h.defining name (by simp [hd])
    obtain rfl := Option.some.inj (hm.symm.trans hfound)
    exact hdefining.ends hl hk hf
  -- it was the only method without an end, since definitions do not nest
  refine ⟨⟨hr, ?_, ?_, ?_⟩, ?_⟩
  · intro other method hm finish hfinish
    rw [hmethods, Methods.find?_close] at hm
    obtain ⟨old, hold, rfl⟩ := Option.map_eq_some_iff.1 hm
    split at hfinish
    · next heq =>
      subst heq
      cases hfinish
      rw [if_pos rfl]
      exact hcloses old hold
    · next hne =>
      rw [if_neg hne]
      exact h.finish other old hold finish hfinish
  · intro other method hm hnone
    rw [hmethods, Methods.find?_close] at hm
    obtain ⟨old, hold, rfl⟩ := Option.map_eq_some_iff.1 hm
    split at hnone
    · cases hnone
    · next hne =>
      have hopen := h.unfinished other old hold hnone
      rw [hd, Stack.entries_cons, Stack.entries_empty, List.mem_singleton] at hopen
      exact absurd hopen.symm hne
  · intro other hmem
    rw [hdefinitions] at hmem
    cases hmem
  · rw [hmethods]
    exact Methods.grows_close fun method hm => ⟨hcloses method hm, h.finish name method hm⟩

/-- `Tabled` is kept by a line that is skipped, and the table grows. -/
theorem skips (h : store.Tabled program a) (hr : after.Running program)
    (hsize : program.size < UInt64.size) (hl : program.line? a = some line)
    (he : Skips line.tokens a store next after) :
    after.Tabled program (next + 1) ∧ store.methods.Grows program after.methods := by
  have hkeyword : ∀ keyword, store.classify line.tokens = .ok (.keyword keyword) ↔
      line.keyword? = some keyword :=
    fun keyword => h.running.faithful.named.classify_line_iff
  cases he with
  | ignores ho hc =>
    refine h.keep hr rfl rfl fun start hd => hd.ignores hsize hl ?_ ?_
    · exact fun construct hk => ho construct ((hkeyword _).2 hk)
    · exact fun construct hk => hc construct ((hkeyword _).2 hk)
  | nests ho room =>
    exact h.keep hr rfl rfl fun start hd => hd.nests hsize hl ((hkeyword _).1 ho)
  | closes hc hf hm =>
    exact h.keep hr rfl rfl fun start hd => hd.closes hsize hl ((hkeyword _).1 hc) hf hm
  | endsLoop hc hf _ => exact h.keep hr rfl rfl fun start hd => absurd hf hd.frames_ne_loop
  | endsDefinition hc hf hleaves => exact h.endsDefinition hr hl ((hkeyword _).1 hc) hf hleaves

/-- `Tabled` is kept by a header, whether it is met for the first time or not. -/
theorem defines (h : store.Tabled program a) (hs : store.flow.suspended = false)
    (hsize : program.size < UInt64.size) (hl : program.line? a = some line)
    {signature : Bracketed} (hheader : store.readHeader tokens a = .ok signature)
    (hm : register store.methods signature a = .ok after.methods) (hr : after.Running program)
    (hf : after.flow.frames = store.flow.frames.cons ⟨.method, .skipping⟩)
    (hd : after.flow.definitions = store.flow.definitions.cons signature.head) :
    after.Tabled program (a + 1) ∧ store.methods.Grows program after.methods := by
  have hdefining : after.Defining program (a + 1) a := .begins hsize hl hf
  have hopen : after.flow.definitions.entries = [signature.head] := by
    rw [hd, Stack.entries_cons, h.definitions_eq_nil hs]
  have hfinished : ∀ name method, store.methods.find? name = some method →
      method.finish ≠ none :=
    fun name method hfind => Option.isSome_iff_ne_none.1 (h.complete hs name method hfind)
  -- the header has been met before and changes nothing, or it inserts the method
  rcases register_cases hheader hm with ⟨method, hfind, hstart, hsame⟩ | ⟨hnew, hinsert⟩
  · refine ⟨⟨hr, ?_, ?_, ?_⟩, ?_⟩
    · rw [hsame]
      exact h.finish
    · intro name other hother hnone
      rw [hsame] at hother
      exact absurd hnone (hfinished name other hother)
    · intro name hmem
      rw [hopen, List.mem_singleton] at hmem
      exact ⟨method, by rw [hsame, hmem, hfind], hstart ▸ hdefining⟩
    · rw [hsame]
      exact .refl
  · refine ⟨⟨hr, ?_, ?_, ?_⟩, Methods.grows_insert hnew hinsert⟩
    · intro name method hfind finish hfinish
      rw [Methods.find?_insert hinsert] at hfind
      split at hfind
      · cases hfind
        cases hfinish
      · exact h.finish name method hfind finish hfinish
    · intro name method hfind hnone
      rw [Methods.find?_insert hinsert] at hfind
      split at hfind
      · next heq => rw [hopen, heq, List.mem_singleton]
      · exact absurd hnone (hfinished name method hfind)
    · intro name hmem
      rw [hopen, List.mem_singleton] at hmem
      exact ⟨_, by rw [Methods.find?_insert hinsert, if_pos hmem.symm], hdefining⟩

/-- `Tabled` is kept by a command that succeeds, and the table grows. -/
theorem performs {command : Command} (h : store.Tabled program a) (hr : after.Running program)
    (hs : store.flow.suspended = false) (hsize : program.size < UInt64.size)
    (hl : program.line? a = some line) (he : Performs a store command tokens result after) :
    after.Tabled program (result.cursor + 1) ∧ store.methods.Grows program after.methods := by
  -- nothing is being skipped, so a line has no definition to go on with
  have hgoes : ∀ start, store.Defining program a start →
      after.Defining program (result.cursor + 1) start := by
    intro start hd
    rw [hd.suspended] at hs
    cases hs
  cases he with
  | defines hheader hm _ _ => exact h.defines hs hsize hl hheader hm hr rfl rfl
  | closesMethod _ hleaves =>
    exact h.keep hr (methods_of_leaves hleaves) (definitions_of_leaves hleaves) hgoes
  | _ => exact h.keep hr rfl rfl hgoes

/-- `Tabled` is kept by a line of the program, and the table `Grows`. -/
theorem step (h : store.Tabled program a) (hsize : program.size < UInt64.size)
    (hl : program.line? a = some line) (hx : Executes line a store result after) :
    after.Tabled program (result.cursor + 1) ∧ store.methods.Grows program after.methods := by
  have hr : after.Running program :=
    ⟨h.running.regular.step hx, h.running.faithful.step hl hx⟩
  cases hx with
  | blank hempty =>
    -- a blank line has no keyword
    have hnone : ∀ keyword, line.keyword? ≠ some keyword := by
      intro keyword hk
      rw [Line.isEmpty_of_keyword? hk] at hempty
      cases hempty
    refine h.keep hr rfl rfl fun start hd => hd.ignores hsize hl ?_ ?_
    · exact fun construct => hnone _
    · exact fun construct hk => absurd hk (hnone _)
  | skips _ _ he => exact h.skips hr hsize hl he
  | performs _ hs _ he => exact h.performs hr hs hsize hl he

/-- After a line that `Fails` the table is still `Lexical` and `Grows`. -/
theorem fails (h : store.Tabled program a) (hl : program.line? a = some line) {fault : Fault}
    (hf : Fails line a store fault after) :
    after.methods.Lexical program ∧ store.methods.Grows program after.methods := by
  rcases h.running.regular.stands.fails hf with rfl | ⟨-, -, -, hleft⟩
  · exact ⟨h.lexical, .refl⟩
  · cases hleft with
    | call _ _ _ _ => exact ⟨h.lexical, .refl⟩
    | @method _ signature methods hi hr hn hm =>
      refine ⟨fun name method hfind => ?_, Methods.grows_insert hn hm⟩
      rw [Methods.find?_insert hm] at hfind
      split at hfind
      · next heq =>
        cases hfind
        have hheader := h.running.faithful.named.header?_eq hi hr
        exact ⟨Program.toNat_lt_of_line? hl, ⟨line, hl, heq ▸ hheader⟩, nofun⟩
      · exact h.lexical name method hfind

end Tabled

end Store

namespace Engine

variable {program : Program} {n fuel : Nat} {a b : Address} {engine point : Engine}
  {outcome : Outcome Unit}

/-- The point of a run after `n` lines, if there are as many and they succeed: the address of the
line that comes next, and the engine. -/
def pointAfter (program : Program) : (n : Nat) → Address → Engine → Option (Address × Engine)
  | 0, a, engine => some (a, engine)
  | n + 1, a, engine =>
    match program.line? a with
    | none => none
    | some line =>
      match execute line a engine with
      | .ok next after => pointAfter program n (next + 1) after
      | .error _ _ => none

/-- `pointAfter` one more line: the first line succeeds, and the rest has such a point. -/
theorem pointAfter_succ_iff {last : Address × Engine} :
    pointAfter program (n + 1) a engine = some last ↔
      ∃ line next after, program.line? a = some line ∧ execute line a engine = .ok next after ∧
        pointAfter program n (next + 1) after = some last := by
  rw [pointAfter]
  cases hl : program.line? a with
  | none => simp
  | some line => cases he : execute line a engine <;> simp [he]

/-- `runFrom` from the start ends as it does from a `pointAfter`. -/
theorem runFrom_of_pointAfter (h : pointAfter program n a engine = some (b, point))
    (hr : runFrom program fuel a engine = some outcome) :
    runFrom program fuel b point = some outcome := by
  induction n generalizing a engine with
  | zero =>
    cases h
    exact hr
  | succ n ih =>
    obtain ⟨line, next, after, hl, he, hrest⟩ := pointAfter_succ_iff.1 h
    refine ih hrest ?_
    rw [← Leads.of_execute hl he fuel]
    exact runFrom_mono (Nat.le_add_left fuel 1) hr

/-- All points of a run are `Tabled`, and the table `Grows` between them. -/
theorem tabled_of_pointAfter (hsize : program.size < UInt64.size)
    (ht : engine.store.Tabled program a)
    (h : pointAfter program n a engine = some (b, point)) :
    point.store.Tabled program b ∧ engine.store.methods.Grows program point.store.methods := by
  induction n generalizing a engine with
  | zero =>
    cases h
    exact ⟨ht, .refl⟩
  | succ n ih =>
    obtain ⟨line, next, after, hl, he, hrest⟩ := pointAfter_succ_iff.1 h
    obtain ⟨step, hx, rfl, -⟩ := execute_eq_ok_iff.1 he
    obtain ⟨hafter, hgrows⟩ := ht.step hsize hl hx
    obtain ⟨hpoint, hgrows'⟩ := ih hafter hrest
    exact ⟨hpoint, hgrows.trans hgrows'⟩

/-- Where `runFrom` ends the table is `Lexical`, and it `Grows` up to there. -/
theorem methods_of_runFrom (hsize : program.size < UInt64.size)
    (ht : engine.store.Tabled program a) (hr : runFrom program fuel a engine = some outcome) :
    outcome.engine.store.methods.Lexical program ∧
      engine.store.methods.Grows program outcome.engine.store.methods := by
  have hstep : ∀ {line : Line} {b next : Address} {before after : Engine},
      program.line? b = some line →
      before.store.Tabled program b ∧ engine.store.methods.Grows program before.store.methods →
      execute line b before = .ok next after →
      after.store.Tabled program (next + 1) ∧
        engine.store.methods.Grows program after.store.methods := by
    rintro line b next before after hl ⟨hbefore, hgrows⟩ he
    obtain ⟨step, hx, rfl, -⟩ := execute_eq_ok_iff.1 he
    obtain ⟨hafter, hgrows'⟩ := hbefore.step hsize hl hx
    exact ⟨hafter, hgrows.trans hgrows'⟩
  rcases runFrom_cases (P := fun b before => before.store.Tabled program b ∧
      engine.store.methods.Grows program before.store.methods) hstep ⟨ht, .refl⟩ hr with
    ⟨b, last, rfl, -, hlast, hgrows⟩ |
    ⟨b, line, before, last, fault, hl, ⟨hbefore, hgrows⟩, he, rfl⟩
  · exact ⟨hlast.lexical, hgrows⟩
  · obtain ⟨hlexical, hgrows'⟩ := hbefore.fails hl (execute_eq_stop_iff.1 he).1
    exact ⟨hlexical, hgrows.trans hgrows'⟩

/-- **The table of methods is that of the text.** At every point of a run the table is `Lexical`:
each method has the name, the parameters and the addresses of a definition of the program. It is
`Complete` if nothing is being skipped, and it only `Grows` from there to every later point and to
the end, even if the run fails. -/
theorem methods_lexical (hsize : program.size < UInt64.size)
    (h : pointAfter program n 0 engine.start = some (a, point)) :
    point.store.methods.Lexical program ∧
      (point.store.flow.suspended = false → point.store.methods.Complete) ∧
      (∀ m b later, pointAfter program m a point = some (b, later) →
        point.store.methods.Grows program later.store.methods) ∧
      ∀ fuel outcome, run program fuel engine = some outcome →
        outcome.engine.store.methods.Lexical program ∧
          point.store.methods.Grows program outcome.engine.store.methods := by
  obtain ⟨hpoint, -⟩ := tabled_of_pointAfter hsize (.empty program) h
  refine ⟨hpoint.lexical, hpoint.complete, ?_, ?_⟩
  · intro m b later hlater
    exact (tabled_of_pointAfter hsize hpoint hlater).2
  · intro fuel outcome hr
    exact methods_of_runFrom hsize hpoint (runFrom_of_pointAfter h hr)

/-- A loop that defines a method, in which there is another method with closers that close
nothing. -/
def nested : Program :=
  .parse ("i = 0\nWHILE i < 2\nMETHOD f(n)\nMETHOD g()\nENDIF\nWHILE n > 0\nENDMETHOD\n" ++
    "ENDWHILE\nENDMETHOD\nENDMETHOD\nf(i)\ni = i + 1\nENDWHILE\n")

/-- In the middle of the outer definition its end is not known, and the inner one comes to the table
only when the outer method is called. -/
theorem methods_lexical_nested : ∃ (point : Engine) (outcome : Outcome Unit),
    pointAfter nested 5 0 initial.start = some (5, point) ∧
      point.store.methods.find? "f" = some ⟨["n"], 2, none⟩ ∧
      point.store.methods.find? "g" = none ∧
      run nested 60 .initial = some outcome ∧
      outcome.engine.store.methods.find? "f" = some ⟨["n"], 2, some 9⟩ ∧
      outcome.engine.store.methods.find? "g" = some ⟨[], 3, some 8⟩ ∧
      nested.Closes 2 9 ∧ nested.Closes 3 8 := by
  have hpoint : (pointAfter nested 5 0 initial.start).map (fun point =>
      (point.1, point.2.store.methods.find? "f", point.2.store.methods.find? "g")) =
      some (5, some ⟨["n"], 2, none⟩, none) := by
    decide +kernel
  have hrun : (run nested 60 .initial).map (fun outcome : Outcome Unit =>
      (outcome.engine.store.methods.find? "f", outcome.engine.store.methods.find? "g")) =
      some (some ⟨["n"], 2, some 9⟩, some ⟨[], 3, some 8⟩) := by
    decide +kernel
  obtain ⟨⟨a, point⟩, hafter, hfound⟩ := Option.map_eq_some_iff.1 hpoint
  obtain ⟨outcome, hr, hends⟩ := Option.map_eq_some_iff.1 hrun
  simp only [Prod.mk.injEq] at hfound hends
  obtain ⟨rfl, hf, hg⟩ := hfound
  obtain ⟨hfinal, hinner⟩ := hends
  have hsize : nested.size < UInt64.size := by decide +kernel
  obtain ⟨-, -, -, houtcome⟩ := methods_lexical hsize hafter
  obtain ⟨hlexical, -⟩ := houtcome 60 outcome hr
  exact ⟨point, outcome, hafter, hf, hg, hr, hfinal, hinner,
    (hlexical "f" _ hfinal).finish 9 rfl, (hlexical "g" _ hinner).finish 8 rfl⟩

end Engine

end Sketch
