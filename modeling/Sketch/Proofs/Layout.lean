import Sketch.Proofs.Cursor
import Sketch.Proofs.Relocation

/-!
# Blank lines and spaces

A program can be laid out in another way: with blank lines anywhere, and with other spaces between
the tokens of a line (`Respacing`). Main statement: `Respacing.layout_irrelevant`, a run of the
program so obtained does the same, and so does its check. The addresses in the two engines go with
each other as the lines do.

Between two lines of the program the other program may have blank ones to pass (`Due`). Apart from
them both take their steps together (`Meets`): the same tokens are executed at addresses that go
with each other.
-/

namespace Sketch

/-- The other program has the lines of the program in their order, with the same tokens, and blank
lines besides. -/
structure Respacing (program other : Program) where
  /-- where a line of the program stands in the other one -/
  index : Nat → Nat
  increasing : ∀ j < program.size, ∀ i < j, index i < index j
  tokens : ∀ i < program.size,
    other.lines[index i]?.map Line.tokens = program.lines[i]?.map Line.tokens
  blank : ∀ k < other.size, (∀ i < program.size, index i ≠ k) →
    other.lines[k]?.all Line.isEmpty = true

/-- The same is drawn, and the stores differ in their addresses only. -/
structure Engine.Moved (pairing : Pairing) (engine other : Engine) : Prop where
  store : engine.store.Moved pairing other.store
  canvas : other.canvas = engine.canvas

/-- `execute` on lines with the same tokens keeps engines `Moved`, with what they draw. -/
theorem Engine.execute_moved {pairing : Pairing} {line line' : Line} {a a' : Address}
    {engine engine' : Engine} (ht : line'.tokens = line.tokens) (hp : pairing.Pairs a a')
    (hm : engine.Moved pairing engine') :
    (∃ (fault : Fault) (last last' : Engine), execute line a engine = .error (fault.stop a) last ∧
        execute line' a' engine' = .error (fault.stop a') last' ∧ last.Moved pairing last') ∨
      ∃ next next' after after', execute line a engine = .ok next after ∧
        execute line' a' engine' = .ok next' after' ∧ pairing.Lands next next' ∧
        after.Moved pairing after' := by
  have hagrees := Store.execute_tracks ht ⟨engine.store, a⟩ ⟨engine'.store, a'⟩ ⟨hm.store, hp⟩
  generalize hx : Store.execute line ⟨engine.store, a⟩ = result,
    hx' : Store.execute line' ⟨engine'.store, a'⟩ = result' at hagrees
  cases hagrees with
  | error failure hs =>
    obtain ⟨fault, rfl, -, hf⟩ := Store.execute_eq_error_iff.1 hx
    obtain ⟨other, hother, -, hf'⟩ := Store.execute_eq_error_iff.1 hx'
    cases hother
    exact .inl ⟨fault, ⟨_, engine.canvas⟩, ⟨_, engine'.canvas⟩, execute_eq_stop_iff.2 ⟨hf, rfl⟩,
      execute_eq_stop_iff.2 ⟨hf', rfl⟩, hs.store, hm.canvas⟩
  | ok hdrawing hs =>
    refine .inr ⟨_, _, _, _, by rw [execute, hx], by rw [execute, hx'], hs.cursor, hs.store, ?_⟩
    rw [hdrawing, hm.canvas]

namespace Respacing

variable {program other : Program} (r : Respacing program other) {i j k : Nat} {line : Line}

/-! ## The places of the lines -/

/-- Every line has its `index` in the other program, with the same tokens. -/
theorem exists_line (hl : program.lines[i]? = some line) :
    ∃ line', other.lines[r.index i]? = some line' ∧ line'.tokens = line.tokens := by
  have ht := r.tokens i (Array.getElem?_eq_some_iff.1 hl).1
  rw [hl, Option.map_some] at ht
  exact Option.map_eq_some_iff.1 ht

/-- The `index` of a line is inside the other program. -/
theorem index_lt_size (hi : i < program.size) : r.index i < other.size := by
  obtain ⟨line', hl', -⟩ := r.exists_line (Array.getElem?_eq_getElem hi)
  exact (Array.getElem?_eq_some_iff.1 hl').1

/-- `index` is injective. -/
theorem index_inj (hi : i < program.size) (hj : j < program.size) :
    i = j ↔ r.index i = r.index j := by
  refine ⟨congrArg _, fun h => ?_⟩
  rcases Nat.lt_trichotomy i j with hlt | heq | hlt
  · exact absurd h (Nat.ne_of_lt (r.increasing j hj i hlt))
  · exact heq
  · exact absurd h.symm (Nat.ne_of_lt (r.increasing i hi j hlt))

/-- `index` puts no line earlier. -/
theorem le_index (hi : i < program.size) : i ≤ r.index i := by
  induction i with
  | zero => exact Nat.zero_le _
  | succ i ih =>
    exact Nat.lt_of_le_of_lt (ih (Nat.lt_of_succ_lt hi)) (r.increasing _ hi i i.lt_succ_self)

/-- The other program has at least as many lines. -/
theorem size_le (r : Respacing program other) : program.size ≤ other.size := by
  cases hsize : program.size with
  | zero => exact Nat.zero_le _
  | succ n =>
    have hn : n < program.size := by omega
    exact Nat.lt_of_le_of_lt (r.le_index hn) (r.index_lt_size hn)

/-- If the other program has an address for each line, so has the program. -/
theorem size_lt (r : Respacing program other) (hsize : other.size < UInt64.size) :
    program.size < UInt64.size :=
  Nat.lt_of_le_of_lt r.size_le hsize

/-- An address goes with that of the same line in the other program. -/
def pairing : Pairing where
  Pairs a a' := a.toNat < program.size ∧ a'.toNat = r.index a.toNat
  eq_iff := by
    rintro a a' b b' ⟨ha, ha'⟩ ⟨hb, hb'⟩
    rw [← UInt64.toNat_inj, ← UInt64.toNat_inj, ha', hb']
    exact r.index_inj ha hb

/-- `pairing` pairs the address of a line with that of its `index`. -/
theorem pairs_index (hsize : other.size < UInt64.size) {a : Address} (ha : a.toNat < program.size) :
    r.pairing.Pairs a (UInt64.ofNat (r.index a.toNat)) :=
  ⟨ha, UInt64.toNat_ofNat_of_lt' (Nat.lt_trans (r.index_lt_size ha) hsize)⟩

/-- The place of a line in the other program, and the end for the end. -/
def place (i : Nat) : Nat :=
  if i < program.size then r.index i else other.size

/-- The `place` of a line is its index in the other program. -/
theorem place_of_lt (hi : i < program.size) : r.place i = r.index i :=
  if_pos hi

/-- The `place` of the end is the end. -/
theorem place_size : r.place program.size = other.size :=
  if_neg (Nat.lt_irrefl _)

/-- `index` and `place` keep the order of the lines. -/
theorem index_lt_place (hj : j < program.size) (hij : j < i) : r.index j < r.place i := by
  unfold place
  split
  · next hi => exact r.increasing i hi j hij
  · exact r.index_lt_size hj

/-- Every `place` is inside the other program or at its end. -/
theorem place_le_size : r.place i ≤ other.size := by
  unfold place
  split
  · next hi => exact Nat.le_of_lt (r.index_lt_size hi)
  · exact Nat.le_refl _

/-! ## Passing blank lines -/

/-- The line `i` comes next in the program, and the other one has come past the line before it but
not past the line itself. -/
structure Due (i k : Nat) : Prop where
  le_size : i ≤ program.size
  le_place : k ≤ r.place i
  passed : ∀ j < i, r.index j < k

variable {r}

/-- At first the first line is `Due`. -/
theorem due_zero : r.Due 0 0 :=
  ⟨Nat.zero_le _, Nat.zero_le _, fun _ hj => absurd hj (Nat.not_lt_zero _)⟩

/-- After a line the next one is `Due`. -/
theorem due_succ (hi : i < program.size) : r.Due (i + 1) (r.index i + 1) where
  le_size := hi
  le_place := r.index_lt_place hi (Nat.lt_succ_self i)
  passed := by
    intro j hj
    rcases Nat.lt_or_eq_of_le (Nat.le_of_lt_succ hj) with hlt | rfl
    · exact Nat.lt_succ_of_lt (r.increasing i hi j hlt)
    · exact Nat.lt_succ_self _

/-- A line is `Due` at its own `index`. -/
theorem due_index (hi : i < program.size) : r.Due i (r.index i) where
  le_size := Nat.le_of_lt hi
  le_place := Nat.le_of_eq (r.place_of_lt hi).symm
  passed := r.increasing i hi

namespace Due

/-- Up to the line that is `Due` there are only blank lines. -/
theorem exists_blank (h : r.Due i k) (hk : k < r.place i) :
    ∃ line, other.lines[k]? = some line ∧ line.isEmpty = true := by
  have hlt : k < other.size := Nat.lt_of_lt_of_le hk r.place_le_size
  have hnone : ∀ j < program.size, r.index j ≠ k := by
    intro j hj heq
    rcases Nat.lt_trichotomy j i with hji | rfl | hij
    · exact absurd heq (Nat.ne_of_lt (h.passed j hji))
    · rw [r.place_of_lt hj, heq] at hk
      exact Nat.lt_irrefl _ hk
    · have hi : i < program.size := Nat.lt_trans hij hj
      have hafter := r.increasing j hj i hij
      rw [r.place_of_lt hi] at hk
      omega
  have hblank := r.blank k hlt hnone
  rw [Array.getElem?_eq_getElem hlt] at hblank
  exact ⟨_, Array.getElem?_eq_getElem hlt, hblank⟩

/-- A line stays `Due` while the blank lines before it are passed. -/
theorem succ (h : r.Due i k) (hk : k < r.place i) : r.Due i (k + 1) :=
  ⟨h.le_size, hk, fun j hj => Nat.lt_succ_of_lt (h.passed j hj)⟩

/-- Where a line is `Due`, a blank line comes next in the other program, or the same line in both,
or both end. -/
theorem cases (h : r.Due i k) :
    k < r.place i ∨ (i < program.size ∧ k = r.index i) ∨ (i = program.size ∧ k = other.size) := by
  rcases Nat.lt_or_eq_of_le h.le_place with hlt | heq
  · exact .inl hlt
  · rcases Nat.lt_or_eq_of_le h.le_size with hi | rfl
    · exact .inr (.inl ⟨hi, heq.trans (r.place_of_lt hi)⟩)
    · exact .inr (.inr ⟨rfl, heq.trans r.place_size⟩)

end Due

/-! ## Failures and outcomes -/

variable (r) in
/-- The same fault, at the same line of the program and under its number there. -/
def Fits (failure failure' : Failure) : Prop :=
  failure'.fault = failure.fault ∧ ∃ i line line', program.lines[i]? = some line ∧
    other.lines[r.index i]? = some line' ∧ failure.place = some ⟨i + 1, line⟩ ∧
    failure'.place = some ⟨r.index i + 1, line'⟩

variable (r) in
/-- Both runs succeed or fail with failures that fit, and their engines differ in their addresses
only. -/
inductive Agrees : Outcome Unit → Outcome Unit → Prop where
  | ok {engine engine' : Engine} (h : engine.Moved r.pairing engine') :
      Agrees (.ok () engine) (.ok () engine')
  | error {failure failure' : Failure} {engine engine' : Engine} (hf : r.Fits failure failure')
      (h : engine.Moved r.pairing engine') :
      Agrees (.error failure engine) (.error failure' engine')

variable (r) in
/-- Both checks succeed or fail with failures that fit. -/
inductive Settles {α : Type} : Except Failure α → Except Failure α → Prop where
  | ok (a b : α) : Settles (.ok a) (.ok b)
  | error {failure failure' : Failure} (h : r.Fits failure failure') :
      Settles (.error failure) (.error failure')

/-- Outcomes that are in `Agrees` fail at the same line. -/
theorem Agrees.exists_error {outcome outcome' : Outcome Unit} {fault : Fault}
    (h : r.Agrees outcome outcome') (he : error? outcome = some ⟨fault, some ⟨i + 1, line⟩⟩) :
    ∃ line', error? outcome' = some ⟨fault, some ⟨r.index i + 1, line'⟩⟩ := by
  cases h with
  | ok _ => cases he
  | @error failure failure' _ _ hf _ =>
    obtain ⟨hfault, j, found, found', -, -, hplace, hplace'⟩ := hf
    obtain rfl : failure = ⟨fault, some ⟨i + 1, line⟩⟩ := Option.some.inj he
    cases hplace
    refine ⟨found', congrArg some ?_⟩
    cases failure'
    cases hfault
    cases hplace'
    rfl

/-- A check that `Settles` with a success is one. -/
theorem Settles.eq_ok {x : Except Failure Unit} (h : r.Settles (.ok ()) x) : x = .ok () := by
  cases h
  rfl

/-- `Settles` is kept by mapping. -/
theorem Settles.map {α β : Type} {x y : Except Failure α} (h : r.Settles x y) (f : α → β) :
    r.Settles (x.map f) (y.map f) := by
  cases h with
  | ok a b => exact .ok _ _
  | error h => exact .error h

variable {a a' next next' : Address} {line' : Line} {fault : Fault} {engine engine' : Engine}
  {fuel : Nat} {outcome outcome' : Outcome Unit}

/-- A failure `Fits` one with the same fault at a paired line. -/
theorem fits_of_pairs (hsize : other.size < UInt64.size) (hp : r.pairing.Pairs a a')
    (hl : program.line? a = some line) (hl' : other.line? a' = some line') :
    r.Fits ⟨fault, some (.of a line)⟩ ⟨fault, some (.of a' line')⟩ := by
  obtain ⟨ha, ha'⟩ := hp
  have hnumber := Program.number_eq (r.size_lt hsize) ha
  have hnumber' := Program.number_eq hsize (Program.toNat_lt_of_line? hl')
  refine ⟨rfl, a.toNat, line, line', hl, ?_, ?_, ?_⟩
  · rw [← ha']
    exact hl'
  · rw [Place.of, hnumber]
  · rw [Place.of, hnumber', ha']

/-! ## Runs -/

/-- Next lines that are in `Lands` are `Due`. -/
theorem due_of_lands (hsize : other.size < UInt64.size) (h : r.pairing.Lands next next') :
    r.Due (next + 1).toNat (next' + 1).toNat := by
  rcases h with ⟨hn, hn'⟩ | ⟨hn, hn'⟩
  · have hlt : next'.toNat < other.size := hn' ▸ r.index_lt_size hn
    rw [Program.toNat_add_one (r.size_lt hsize) hn,
      Program.toNat_add_one hsize hlt, hn']
    exact due_succ hn
  · rw [hn']
    exact due_index hn

/-- The other program `Leads` to the line that is `Due` and changes nothing on the way. -/
theorem Due.leads (h : r.Due i k) (hsize : other.size < UInt64.size) (engine : Engine) :
    ∃ n, Engine.Leads other n (UInt64.ofNat k) engine (UInt64.ofNat (r.place i)) engine := by
  obtain ⟨n, hn⟩ := Nat.exists_eq_add_of_le h.le_place
  induction n generalizing k with
  | zero => exact ⟨0, hn ▸ .refl⟩
  | succ n ih =>
    have hk : k < r.place i := by omega
    obtain ⟨line, hl, hempty⟩ := h.exists_blank hk
    have hlt : k < UInt64.size :=
      Nat.lt_trans (Nat.lt_of_lt_of_le hk r.place_le_size) hsize
    have hstep : Engine.Leads other 1 (UInt64.ofNat k) engine (UInt64.ofNat k + 1) engine :=
      .of_executes ((Program.line?_ofNat hlt).trans hl) (.blank hempty)
    obtain ⟨m, hm⟩ := ih (h.succ hk) (by omega)
    rw [UInt64.ofNat_add] at hm
    exact ⟨1 + m, hstep.trans hm⟩

variable (r) in
/-- What both programs do where a line is due: they end, they fail with the same fault, or they go
on and the next lines are due. -/
inductive Meets (a : Address) (engine : Engine) (a' : Address) (engine' : Engine) : Prop where
  | ends (hl : program.line? a = none) (hl' : other.line? a' = none)
  | fails {line line' : Line} {fault : Fault} {last last' : Engine}
      (hl : program.line? a = some line) (hl' : other.line? a' = some line')
      (he : Engine.execute line a engine = .error (fault.stop a) last)
      (he' : Engine.execute line' a' engine' = .error (fault.stop a') last')
      (hf : r.Fits ⟨fault, some (.of a line)⟩ ⟨fault, some (.of a' line')⟩)
      (hm : last.Moved r.pairing last')
  | goes {line line' : Line} {next next' : Address} {after after' : Engine}
      (hl : program.line? a = some line) (hl' : other.line? a' = some line')
      (he : Engine.execute line a engine = .ok next after)
      (he' : Engine.execute line' a' engine' = .ok next' after')
      (hd : r.Due (next + 1).toNat (next' + 1).toNat) (hm : after.Moved r.pairing after')

/-- Where a line is `Due`, both programs take their steps together (`Meets`). -/
theorem meets (hsize : other.size < UInt64.size) (ha : a.toNat ≤ program.size)
    (hm : engine.Moved r.pairing engine') :
    r.Meets a engine (UInt64.ofNat (r.place a.toNat)) engine' := by
  cases hl : program.line? a with
  | none =>
    have hend : a.toNat = program.size :=
      Nat.le_antisymm ha (Array.getElem?_eq_none_iff.1 hl)
    refine .ends hl ?_
    rw [hend, r.place_size]
    exact Program.line?_size hsize
  | some line =>
    have hlt := Program.toNat_lt_of_line? hl
    obtain ⟨line', hfound, ht⟩ := r.exists_line hl
    have hp := r.pairs_index hsize hlt
    have hl' : other.line? (UInt64.ofNat (r.index a.toNat)) = some line' := by
      rw [Program.line?_ofNat (Nat.lt_trans (r.index_lt_size hlt) hsize), hfound]
    rw [r.place_of_lt hlt]
    rcases Engine.execute_moved ht hp hm with ⟨fault, last, last', he, he', hlast⟩ |
      ⟨next, next', after, after', he, he', hlands, hafter⟩
    · exact .fails hl hl' he he' (fits_of_pairs hsize hp hl hl') hlast
    · exact .goes hl hl' he he' (due_of_lands hsize hlands) hafter

/-- `runFrom` of the other program comes to an outcome that `Agrees`. -/
theorem exists_runFrom (hsize : other.size < UInt64.size) (hd : r.Due a.toNat a'.toNat)
    (hm : engine.Moved r.pairing engine')
    (hr : Engine.runFrom program fuel a engine = some outcome) :
    ∃ more outcome', Engine.runFrom other more a' engine' = some outcome' ∧
      r.Agrees outcome outcome' := by
  induction fuel generalizing a a' engine engine' with
  | zero => simp [Engine.runFrom] at hr
  | succ fuel ih =>
    obtain ⟨n, hn⟩ := hd.leads hsize engine'
    rw [UInt64.ofNat_toNat] at hn
    rw [Engine.runFrom] at hr
    -- after the blank lines both programs take one step
    have hstep : ∃ more outcome', Engine.runFrom other (more + 1) (UInt64.ofNat (r.place a.toNat))
        engine' = some outcome' ∧ r.Agrees outcome outcome' := by
      rcases meets hsize hd.le_size hm with ⟨hl, hl'⟩ | ⟨hl, hl', he, he', hf, hlast⟩ |
        ⟨hl, hl', he, he', hnext, hafter⟩
      · simp only [hl] at hr
        cases hr
        exact ⟨0, _, by simp only [Engine.runFrom, hl'], .ok hm⟩
      · simp only [hl, he] at hr
        cases hr
        exact ⟨0, _, by simp only [Engine.runFrom, hl', he', Fault.stop_failure,
          Failure.annotate_ofFault], .error hf hlast⟩
      · simp only [hl, he] at hr
        obtain ⟨more, outcome', hmore, hagrees⟩ := ih hnext hafter hr
        exact ⟨more, outcome', by simp only [Engine.runFrom, hl', he', hmore], hagrees⟩
    obtain ⟨more, outcome', hmore, hagrees⟩ := hstep
    exact ⟨n + (more + 1), outcome', (hn _).trans hmore, hagrees⟩

/-- `runFrom` of the program comes to an outcome that `Agrees` with that of the other, and with no
more lines. -/
theorem exists_runFrom_of_other (hsize : other.size < UInt64.size)
    (hd : r.Due a.toNat a'.toNat) (hm : engine.Moved r.pairing engine')
    (hr : Engine.runFrom other fuel a' engine' = some outcome') :
    ∃ outcome, Engine.runFrom program fuel a engine = some outcome ∧
      r.Agrees outcome outcome' := by
  induction fuel generalizing a a' engine engine' with
  | zero => simp [Engine.runFrom] at hr
  | succ fuel ih =>
    obtain ⟨n, hn⟩ := hd.leads hsize engine'
    rw [UInt64.ofNat_toNat] at hn
    have hplace := Engine.runFrom_mono (Nat.le_add_left (fuel + 1) n) hr
    rw [hn, Engine.runFrom] at hplace
    rw [Engine.runFrom]
    rcases meets hsize hd.le_size hm with ⟨hl, hl'⟩ | ⟨hl, hl', he, he', hf, hlast⟩ |
      ⟨hl, hl', he, he', hnext, hafter⟩
    · simp only [hl, hl'] at hplace ⊢
      cases hplace
      exact ⟨_, rfl, .ok hm⟩
    · simp only [hl, hl', he, he'] at hplace ⊢
      cases hplace
      exact ⟨_, rfl, .error hf hlast⟩
    · simp only [hl, hl', he, he'] at hplace ⊢
      exact ih hnext hafter hplace

/-! ## Checks -/

/-- The lines from an index on begin with the line at it. -/
theorem drop_lines {program : Program} (hl : program.lines[i]? = some line) :
    program.lines.toList.drop i = line :: program.lines.toList.drop (i + 1) := by
  obtain ⟨hi, rfl⟩ := Array.getElem?_eq_some_iff.1 hl
  exact List.drop_eq_getElem_cons hi

/-- There are no lines from the end on. -/
theorem drop_size (program : Program) : program.lines.toList.drop program.size = [] :=
  List.drop_of_length_le (Nat.le_of_eq Array.length_toList)

/-- `declareAll` passes a blank line. -/
theorem declareAll_blank {rest : List Line} {store : Store} (h : line.isEmpty = true) :
    Store.declareAll (line :: rest) (UInt64.ofNat k) store =
      Store.declareAll rest (UInt64.ofNat (k + 1)) store := by
  have hline : Store.declare line (UInt64.ofNat k) store = .ok () store := by
    rw [Store.declare, if_pos h]
    rfl
  rw [Store.declareAll, hline, UInt64.ofNat_add]
  rfl

/-- `declareAll` from lines on that are `Due` `Settles` with that of the other program. -/
theorem settles_declareAll (hsize : other.size < UInt64.size) (hd : r.Due i k)
    {store store' : Store} (hs : store.Moved r.pairing store') :
    r.Settles (Store.declareAll (program.lines.toList.drop i) (UInt64.ofNat i) store)
      (Store.declareAll (other.lines.toList.drop k) (UInt64.ofNat k) store') := by
  -- each line of the other program is passed once
  induction hn : other.size - k using Nat.strongRecOn generalizing i k store store' with
  | ind n ih =>
    rcases hd.cases with hk | ⟨hi, rfl⟩ | ⟨rfl, rfl⟩
    · obtain ⟨line, hl, hempty⟩ := hd.exists_blank hk
      have hlt : k < other.size := Nat.lt_of_lt_of_le hk r.place_le_size
      rw [drop_lines hl, declareAll_blank hempty]
      exact ih (other.size - (k + 1)) (by omega) (hd.succ hk) hs rfl
    · have hlt := r.index_lt_size hi
      have hl : program.lines[i]? = some _ := Array.getElem?_eq_getElem hi
      obtain ⟨line', hl', ht⟩ := r.exists_line hl
      have hindex : (UInt64.ofNat i).toNat = i :=
        UInt64.toNat_ofNat_of_lt' (Nat.lt_trans hi (r.size_lt hsize))
      have hp := r.pairs_index hsize (hindex.symm ▸ hi)
      rw [hindex] at hp
      have hagrees := Store.declare_tracks ht hp store store' hs
      rw [drop_lines hl, drop_lines hl', Store.declareAll, Store.declareAll]
      generalize hx : Store.declare _ (UInt64.ofNat i) store = result,
        Store.declare line' (UInt64.ofNat (r.index i)) store' = result' at hagrees ⊢
      cases hagrees with
      | ok _ hs =>
        have hrest := ih (other.size - (r.index i + 1)) (by omega) (due_succ hi) hs rfl
        rwa [UInt64.ofNat_add, UInt64.ofNat_add] at hrest
      | error failure _ =>
        obtain ⟨fault, rfl⟩ := Store.unplaced_declare _ _ _ _ _ hx
        refine .error (fits_of_pairs hsize hp ?_ ?_)
        · rw [Program.line?, hindex, hl]
        · rw [Program.line?_ofNat (Nat.lt_trans hlt hsize), hl']
    · rw [drop_size, drop_size]
      exact .ok _ _

/-- **The layout of a program does not matter.** Let `other` be a `Respacing` of `program`: blank
lines are put in, and the tokens of a line are spaced in another way. From the same engine, the runs
of both end alike (`Agrees`): with the same globals and canvas, with the same fault at the same line
if they fail, and with each address moved to that of the same line. The checks agree in the same way
(`Settles`). -/
theorem layout_irrelevant (r : Respacing program other) (hsize : other.size < UInt64.size)
    (engine : Engine) :
    (∀ fuel outcome, Engine.run program fuel engine = some outcome →
      ∃ more outcome', Engine.run other more engine = some outcome' ∧ r.Agrees outcome outcome') ∧
    (∀ fuel outcome', Engine.run other fuel engine = some outcome' →
      ∃ outcome, Engine.run program fuel engine = some outcome ∧ r.Agrees outcome outcome') ∧
    r.Settles program.check other.check := by
  have hstart : engine.start.Moved r.pairing engine.start := ⟨.empty _, rfl⟩
  refine ⟨fun fuel outcome hr => ?_, fun fuel outcome' hr => ?_, ?_⟩
  · exact exists_runFrom hsize due_zero hstart hr
  · exact exists_runFrom_of_other hsize due_zero hstart hr
  · exact (settles_declareAll hsize due_zero (.empty r.pairing)).map _

/-- A loop at the first line that defines a method and calls it. The call draws and then fails. -/
def dense : Program :=
  .parse "WHILE 1 < 2\nMETHOD f(n)\nCIRCLE n\nn = n / 0\nENDMETHOD\nf(1)\nENDWHILE\n"

/-- The same lines with blank ones between them and with more spaces. -/
def airy : Program :=
  .parse ("\nWHILE 1  < 2\n\n\tMETHOD f(n)\n CIRCLE   n \n n = n / 0\n \nENDMETHOD\n" ++
    "f(1)\n ENDWHILE\n")

/-- Where the lines of the one program stand in the other. -/
def aired : Respacing dense airy where
  index i := [1, 3, 4, 5, 7, 8, 9].getD i 0
  increasing := by decide +kernel
  tokens := by decide +kernel
  blank := by decide +kernel

/-- Both fail in the call, the one at its fourth line and the other at its sixth, with the loop and
the call still open; both pass their checks. -/
theorem layout_irrelevant_aired : ∃ (fuel : Nat) (outcome outcome' : Outcome Unit) (line : Line),
    Engine.run dense 20 .initial = some outcome ∧ Engine.run airy fuel .initial = some outcome' ∧
      aired.Agrees outcome outcome' ∧
      outcome.engine.store.flow.loops.entries = [some 0] ∧
      outcome.engine.store.flow.calls.entries = [⟨"f", 5⟩] ∧
      outcome.engine.store.methods.find? "f" = some ⟨["n"], 1, some 4⟩ ∧
      error? outcome = some ⟨.divisionByZero, some ⟨4, .ofText "n = n / 0"⟩⟩ ∧
      error? outcome' = some ⟨.divisionByZero, some ⟨6, line⟩⟩ ∧
      dense.check = .ok () ∧ airy.check = .ok () := by
  have hdense : (Engine.run dense 20 .initial).map (fun outcome : Outcome Unit =>
      (outcome.engine.store.flow.loops.entries, outcome.engine.store.flow.calls.entries,
        outcome.engine.store.methods.find? "f", error? outcome)) =
      some ([some 0], [⟨"f", 5⟩], some ⟨["n"], 1, some 4⟩,
        some ⟨.divisionByZero, some ⟨4, .ofText "n = n / 0"⟩⟩) := by
    decide +kernel
  have hcheck : dense.check = .ok () := by decide +kernel
  have hsize : airy.size < UInt64.size := by decide +kernel
  obtain ⟨outcome, hrun, hend⟩ := Option.map_eq_some_iff.1 hdense
  simp only [Prod.mk.injEq] at hend
  obtain ⟨hloops, hcalls, hmethod, herror⟩ := hend
  obtain ⟨hforth, -, hchecks⟩ := layout_irrelevant aired hsize .initial
  obtain ⟨fuel, outcome', hairy, hagrees⟩ := hforth 20 outcome hrun
  obtain ⟨line, hother⟩ := hagrees.exists_error herror
  rw [hcheck] at hchecks
  exact ⟨fuel, outcome, outcome', line, hrun, hairy, hagrees, hloops, hcalls, hmethod, herror,
    hother, hcheck, hchecks.eq_ok⟩

end Respacing

end Sketch
