import Sketch.Fault

/-!
# Bounded stacks

A stack is a list with the newest entry first and knows its height. A push beyond the given bound
and a pop from the empty stack are faults, and neither changes the stack.
-/

namespace Sketch

/-- A list of entries, newest first, together with their number. -/
structure Stack (α : Type) where
  entries : List α
  height : Nat
  height_eq : height = entries.length
  deriving DecidableEq

namespace Stack

variable {α : Type}

/-- The stack without entries. -/
def empty : Stack α := ⟨[], 0, rfl⟩

instance : Inhabited (Stack α) := ⟨empty⟩

/-- The stack with these entries, newest first. -/
def ofEntries (entries : List α) : Stack α := ⟨entries, entries.length, rfl⟩

/-- The stack with one more entry, if the bound has room for it. -/
def push (bound : Bound) (a : α) (s : Stack α) : Except Fault (Stack α) :=
  if s.height < bound.size then
    .ok ⟨a :: s.entries, s.height + 1, by simp [s.height_eq]⟩
  else
    .error (.full bound)

/-- The newest entry and the stack without it. -/
def pop : Stack α → Except Fault (α × Stack α)
  | ⟨[], _, _⟩ => .error .underflow
  | ⟨a :: rest, height, h⟩ => .ok (a, ⟨rest, height - 1, by simp [h]⟩)

/-- The newest entry. -/
def top? (s : Stack α) : Option α :=
  s.entries.head?

/-- The stack with another entry in place of the newest one; the empty stack stays empty. -/
def setTop (a : α) : Stack α → Stack α
  | ⟨[], height, h⟩ => ⟨[], height, h⟩
  | ⟨_ :: rest, height, h⟩ => ⟨a :: rest, height, by simpa using h⟩

/-- The oldest entries, at most `n` of them. -/
def truncate (n : Nat) (s : Stack α) : Stack α :=
  ⟨s.entries.drop (s.height - n), min n s.height, by simp [s.height_eq]; omega⟩

/-- The entries from the oldest to the newest. -/
def toList (s : Stack α) : List α :=
  s.entries.reverse

/-! ## Laws of the entries -/

/-- A stack is determined by its entries. -/
@[ext] theorem ext_entries {s t : Stack α} (h : s.entries = t.entries) : s = t := by
  cases s with
  | mk entries height height_eq =>
    cases t with
    | mk entries' height' height_eq' =>
      cases h
      subst height_eq
      subst height_eq'
      rfl

@[simp] theorem entries_empty : (empty : Stack α).entries = [] := rfl

@[simp] theorem height_empty : (empty : Stack α).height = 0 := rfl

@[simp] theorem entries_ofEntries (l : List α) : (ofEntries l).entries = l := rfl

@[simp] theorem ofEntries_entries (s : Stack α) : ofEntries s.entries = s :=
  ext_entries rfl

/-- A push succeeds exactly when there is room, and then puts the entry in front. -/
theorem push_eq_ok_iff {bound : Bound} {a : α} {s t : Stack α} :
    s.push bound a = .ok t ↔ s.height < bound.size ∧ t.entries = a :: s.entries := by
  unfold push
  split
  · next h =>
    simp only [Except.ok.injEq, h, true_and]
    constructor
    · rintro rfl
      rfl
    · intro ht
      exact ext_entries ht.symm
  · next h => simp [h]

/-- A push fails only with `full bound`. -/
theorem push_eq_error_iff {bound : Bound} {a : α} {s : Stack α} {f : Fault} :
    s.push bound a = .error f ↔ bound.size ≤ s.height ∧ f = .full bound := by
  unfold push
  split
  · next h => simp; omega
  · next h =>
    simp only [Except.error.injEq]
    constructor
    · rintro rfl
      exact ⟨by omega, rfl⟩
    · rintro ⟨_, rfl⟩
      rfl

/-- A pop gives the newest entry and leaves the others. -/
theorem pop_eq_ok_iff {a : α} {s t : Stack α} :
    s.pop = .ok (a, t) ↔ s.entries = a :: t.entries := by
  cases s with
  | mk entries height height_eq =>
    cases entries with
    | nil => simp [pop]
    | cons b rest =>
      simp only [pop, Except.ok.injEq, Prod.mk.injEq, List.cons.injEq]
      constructor
      · rintro ⟨rfl, rfl⟩
        exact ⟨rfl, rfl⟩
      · rintro ⟨rfl, rfl⟩
        exact ⟨rfl, ext_entries rfl⟩

/-- A pop fails only on the empty stack. -/
theorem pop_eq_error_iff {s : Stack α} {f : Fault} :
    s.pop = .error f ↔ s.entries = [] ∧ f = .underflow := by
  cases s with
  | mk entries height height_eq =>
    cases entries with
    | nil => simp [pop, eq_comm]
    | cons b rest => simp [pop]

@[simp] theorem height_setTop (a : α) (s : Stack α) : (s.setTop a).height = s.height := by
  rcases s with ⟨_ | ⟨_, _⟩, _, _⟩ <;> rfl

/-- `setTop` changes the newest entry and no other. -/
theorem entries_setTop {a b : α} {s : Stack α} {rest : List α} (h : s.entries = b :: rest) :
    (s.setTop a).entries = a :: rest := by
  rcases s with ⟨_ | ⟨_, _⟩, _, _⟩
  · cases h
  · simp_all [setTop]

/-- Cutting a stack back to its own height changes nothing. -/
@[simp] theorem truncate_height (s : Stack α) : s.truncate s.height = s := by
  apply ext_entries
  simp [truncate]

/-- Cutting back to the height of an older part gives that part. -/
theorem truncate_of_entries_eq {s t : Stack α} {newer : List α}
    (h : s.entries = newer ++ t.entries) : s.truncate t.height = t := by
  apply ext_entries
  simp [truncate, s.height_eq, t.height_eq, h]

end Stack

end Sketch
