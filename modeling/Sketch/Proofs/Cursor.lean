import Sketch.Proofs.Moves
import Sketch.Proofs.Stretches
import Sketch.Proofs.Validation

/-!
# Where the cursor is

Every address that a store holds is that of a line of the program (`Store.Placed`). So the cursor
never passes the end of a program, and a run that succeeds has come to the address after its last
line (`Engine.leads_of_runFrom`).
-/

namespace Sketch

/-! ## Addresses of a program -/

namespace Program

variable {program : Program} {a : Address} {line other : Line}

/-- A line that `line?` finds stands below the end. -/
theorem toNat_lt_of_line? (h : program.line? a = some line) : a.toNat < program.size :=
  (Array.getElem?_eq_some_iff.1 h).1

/-- The address after that of a line does not wrap around. -/
theorem toNat_add_one (hsize : program.size < UInt64.size) (ha : a.toNat < program.size) :
    (a + 1).toNat = a.toNat + 1 := by
  rw [UInt64.toNat_add]
  exact Nat.mod_eq_of_lt (Nat.lt_of_le_of_lt ha hsize)

/-- The `number` of a line is counted from one. -/
theorem number_eq (hsize : program.size < UInt64.size) (ha : a.toNat < program.size) :
    a.number = a.toNat + 1 := by
  have hlast : Address.last.toNat = UInt64.size - 1 := rfl
  unfold Address.number
  omega

/-- Where `line?` finds nothing, the program has ended. -/
theorem eq_size_of_line? (ha : a.toNat ≤ program.size) (h : program.line? a = none) :
    a = UInt64.ofNat program.size := by
  have hle : program.size ≤ a.toNat := Array.getElem?_eq_none_iff.1 h
  rw [Nat.le_antisymm hle ha, UInt64.ofNat_toNat]

/-- `push` leaves the other lines in their places. -/
theorem line?_push_of_some (h : program.line? a = some other) :
    (program.push line).line? a = some other := by
  have hlt : a.toNat < program.lines.size := toNat_lt_of_line? h
  rw [line?, push, Array.getElem?_push_lt hlt, ← h, line?, Array.getElem?_eq_getElem hlt]

/-- `push` puts the line at the end. -/
theorem line?_push_size (hsize : program.size < UInt64.size) (line : Line) :
    (program.push line).line? (UInt64.ofNat program.size) = some line := by
  rw [line?_ofNat hsize, push, size, Array.getElem?_push_size]

/-- `push` makes the program longer by one. -/
theorem size_push (program : Program) (line : Line) :
    (program.push line).size = program.size + 1 :=
  Array.size_push line

end Program

namespace Store

variable {program : Program} {store after : Store} {line : Line} {cursor next : Address}
  {result : Step}

/-! ## The addresses that a store holds -/

/-- Methods, open calls and open loops are those of lines of the program. -/
structure Placed (program : Program) (store : Store) : Prop where
  faithful : store.Faithful program
  calls : ∀ call ∈ store.flow.calls.entries, call.returnTo.toNat < program.size
  loops : ∀ header, some header ∈ store.flow.loops.entries → header.toNat < program.size

namespace Placed

/-- `Placed` holds of the empty store. -/
theorem empty (program : Program) : Placed program .empty where
  faithful := .empty program
  calls := by simp [Store.empty, Flow.empty]
  loops := by simp [Store.empty, Flow.empty]

/-- `Placed` is kept by a line of the program, which puts its own address on the stacks and no
other. -/
theorem step (h : store.Placed program) (hl : program.line? cursor = some line)
    (hx : Executes line cursor store result after) : after.Placed program where
  faithful := h.faithful.step hl hx
  calls := by
    intro call hmem
    have hcalls := h.calls
    have hmoves := hx.moves
    generalize result.cursor = next at hmoves
    cases hmoves with
    | stays hc => exact hcalls call (hc ▸ hmem)
    | rewinds _ _ hc => exact hcalls call (hc ▸ hmem)
    | returns _ hc =>
      rw [hc, Stack.entries_cons] at hcalls
      exact hcalls call (List.mem_cons_of_mem _ hmem)
    | enters _ _ =>
      rcases List.mem_cons.1 hmem with rfl | hmem
      · exact Program.toNat_lt_of_line? hl
      · exact hcalls call hmem
  loops := by
    intro header hmem
    have hloops := h.loops header
    -- the loops are left alone, one is closed, or one is opened with the address of this line
    rcases hx.loops_cases with heq | ⟨rewind, -, heq⟩ | ⟨condition, -, heq⟩
    · exact hloops (heq ▸ hmem)
    · rw [heq, Stack.entries_cons] at hloops
      exact hloops (List.mem_cons_of_mem _ hmem)
    · rw [heq, Stack.entries_cons] at hmem
      rcases List.mem_cons.1 hmem with hrewind | hmem
      · unfold Condition.rewind at hrewind
        split at hrewind
        · cases hrewind
          exact Program.toNat_lt_of_line? hl
        · cases hrewind
      · exact hloops hmem

/-- In a `Placed` store, after a line of the program comes another one or its end. -/
theorem toNat_next_le (h : store.Placed program) (hsize : program.size < UInt64.size)
    (hl : program.line? cursor = some line) (hx : Executes line cursor store result after) :
    (result.cursor + 1).toNat ≤ program.size := by
  have hnext : ∀ {a : Address}, a.toNat < program.size → (a + 1).toNat ≤ program.size := by
    intro a ha
    rw [Program.toNat_add_one hsize ha]
    exact ha
  have hmoves := hx.moves
  generalize result.cursor = next at hmoves
  cases hmoves with
  | stays _ => exact hnext (Program.toNat_lt_of_line? hl)
  | enters hr _ =>
    -- the method of a call has its header in the program
    obtain ⟨_, _, -, hm, -⟩ := findCall_eq_ok_iff.1 hr
    obtain ⟨_, hheader, -⟩ := h.faithful.declared _ _ hm
    exact hnext (Program.toNat_lt_of_line? hheader)
  | @rewinds _ loops header _ hloops _ =>
    rw [UInt64.sub_add_cancel]
    exact Nat.le_of_lt (h.loops header (by simp [hloops]))
  | @returns _ call _ hc => exact hnext (h.calls call (by simp [hc]))

end Placed

end Store

/-! ## The end of a run -/

namespace Engine

variable {program : Program} {fuel : Nat} {a : Address} {engine last : Engine}

/-- A run that succeeds `Leads` to the address after the last line, also if there are more lines
from there on. -/
theorem leads_of_runFrom (line : Line) (hsize : program.size < UInt64.size)
    (h : engine.store.Placed program) (ha : a.toNat ≤ program.size)
    (hr : runFrom program fuel a engine = some (.ok () last)) :
    last.store.Placed program ∧
      ∃ n, Leads (program.push line) n a engine (UInt64.ofNat program.size) last := by
  have hstep : ∀ {found : Line} {b next : Address} {before after : Engine},
      program.line? b = some found →
      (before.store.Placed program ∧ b.toNat ≤ program.size ∧
        ∃ n, Leads (program.push line) n a engine b before) →
      execute found b before = .ok next after →
      after.store.Placed program ∧ (next + 1).toNat ≤ program.size ∧
        ∃ n, Leads (program.push line) n a engine (next + 1) after := by
    rintro found b next before after hl ⟨hplaced, -, n, hn⟩ he
    obtain ⟨step, hx, rfl, -⟩ := execute_eq_ok_iff.1 he
    exact ⟨hplaced.step hl hx, hplaced.toNat_next_le hsize hl hx, n + 1,
      hn.trans (.of_execute (Program.line?_push_of_some hl) he)⟩
  rcases runFrom_cases (P := fun b before => before.store.Placed program ∧
      b.toNat ≤ program.size ∧ ∃ n, Leads (program.push line) n a engine b before)
      hstep ⟨h, ha, 0, .refl⟩ hr with
    ⟨b, last, heq, hl, hplaced, hb, n, hn⟩ | ⟨_, _, _, _, _, _, _, _, heq⟩
  · cases heq
    exact ⟨hplaced, n, Program.eq_size_of_line? hb hl ▸ hn⟩
  · cases heq

end Engine

end Sketch
