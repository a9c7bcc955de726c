import Mathlib.Algebra.Group.Nat.Defs
import Sketch.Proofs.Cursor

/-!
# Programs without loops end

A program without `WHILE` can still jump back: a call goes to its method wherever that is, and
methods may call themselves and each other without a condition. It ends all the same, because the
number of open calls is bounded. Main statement: `Engine.run_ends_of_loopFree`, with an explicit
bound on the number of lines that are executed.

The measure is the number whose digits, in a base larger than the program, say how many lines are
left after each open call, the outermost first, and then how many are left here. A line goes on and
lowers the last digit; a call lowers it too and starts a new one; a return drops the last digit, and
goes on where the one before it says.
-/

namespace Sketch

/-! ## The measure -/

namespace Call

variable {size limit : Nat} {calls : List Call} {call : Call} {a b : Address}

/-- What a digit counts after `calls` open calls. -/
def weight (size limit : Nat) (calls : List Call) : Nat :=
  (size + 2) ^ (limit - calls.length)

/-- The lines left after each of the open calls, newest call first. -/
def pending (size limit : Nat) : List Call → Nat
  | [] => 0
  | call :: calls =>
    pending size limit calls + (size - call.returnTo.toNat) * weight size limit calls

/-- What is left to do at an address. -/
def rank (size limit : Nat) (calls : List Call) (a : Address) : Nat :=
  pending size limit calls + (size - a.toNat + 1) * weight size limit calls

/-- The `weight` of calls is positive. -/
theorem weight_pos (size limit : Nat) (calls : List Call) : 0 < weight size limit calls :=
  Nat.pow_pos (Nat.succ_pos _)

/-- Below the limit, one more call makes the `weight` smaller by a factor. -/
theorem weight_eq_mul (h : calls.length < limit) (call : Call) :
    weight size limit calls = (size + 2) * weight size limit (call :: calls) := by
  have hlimit : limit - calls.length = limit - (call :: calls).length + 1 := by
    rw [List.length_cons]
    omega
  rw [weight, weight, hlimit, Nat.pow_succ, Nat.mul_comm]

/-- The `rank` of a point is positive. -/
theorem rank_pos (size limit : Nat) (calls : List Call) (a : Address) :
    0 < rank size limit calls a :=
  Nat.add_pos_right _ (Nat.mul_pos (Nat.succ_pos _) (weight_pos size limit calls))

/-- The next line has a smaller `rank`. -/
theorem rank_next_lt (ha : a.toNat < size) (hb : b.toNat = a.toNat + 1) :
    rank size limit calls b < rank size limit calls a := by
  have hfewer : size - b.toNat + 1 < size - a.toNat + 1 := by omega
  exact Nat.add_lt_add_left (Nat.mul_lt_mul_of_pos_right hfewer (weight_pos size limit calls)) _

/-- A call has a smaller `rank`: it is one line less where it is made, and no method is longer than
the program. -/
theorem rank_enter_lt (call : Call) (hroom : calls.length < limit) :
    rank size limit (call :: calls) b < rank size limit calls call.returnTo := by
  have hdigit : size - b.toNat + 1 < size + 2 := by omega
  calc rank size limit (call :: calls) b
      = pending size limit calls + (size - call.returnTo.toNat) * weight size limit calls +
          (size - b.toNat + 1) * weight size limit (call :: calls) := rfl
    _ < pending size limit calls + (size - call.returnTo.toNat) * weight size limit calls +
          (size + 2) * weight size limit (call :: calls) :=
        Nat.add_lt_add_left (Nat.mul_lt_mul_of_pos_right hdigit (weight_pos size limit _)) _
    _ = rank size limit calls call.returnTo := by
        rw [← weight_eq_mul hroom, rank, Nat.add_assoc, Nat.add_one_mul]

/-- A return has a smaller `rank`: what is left is what the call has put aside. -/
theorem rank_return_lt (hr : call.returnTo.toNat < size)
    (hb : b.toNat = call.returnTo.toNat + 1) :
    rank size limit calls b < rank size limit (call :: calls) a := by
  have hleft : size - b.toNat + 1 = size - call.returnTo.toNat := by omega
  rw [rank, hleft]
  exact Nat.lt_add_of_pos_right
    (Nat.mul_pos (Nat.succ_pos _) (weight_pos size limit (call :: calls)))

end Call

/-! ## Lines of a program without loops -/

/-- No line of the program has `WHILE` as its first token. -/
def Program.LoopFree (program : Program) : Prop :=
  ∀ line ∈ program.lines, line.tokens.head? ≠ some "WHILE"

instance (program : Program) : Decidable program.LoopFree :=
  inferInstanceAs (Decidable (∀ line ∈ program.lines, line.tokens.head? ≠ some "WHILE"))

namespace Store

variable {program : Program} {store after : Store} {line : Line} {a : Address} {result : Step}

/-- What is left to do when the line at `a` comes next. -/
def rank (program : Program) (store : Store) (a : Address) : Nat :=
  Call.rank program.size callBound.size store.flow.calls.entries a

/-- In a `LoopFree` program no loop is ever open. -/
theorem Placed.loops_eq_empty (h : store.Placed program) (hfree : program.LoopFree)
    (hloops : store.flow.loops = .empty) (hl : program.line? a = some line)
    (hx : Executes line a store result after) : after.flow.loops = .empty := by
  rcases hx.loops_cases with heq | ⟨rewind, -, heq⟩ | ⟨condition, hk, -⟩
  · rw [heq, hloops]
  · rw [hloops] at heq
    exact absurd heq Stack.empty_ne_cons
  · have hhead := Line.head?_of_keyword? (h.faithful.named.classify_line_iff.1 hk)
    exact absurd hhead (hfree line (Array.mem_of_getElem? hl))

/-- Every line that `Executes` makes the `rank` smaller, if no loop is open. -/
theorem Placed.rank_lt (h : store.Placed program) (hsize : program.size < UInt64.size)
    (hloops : store.flow.loops = .empty) (hl : program.line? a = some line)
    (hx : Executes line a store result after) :
    after.rank program (result.cursor + 1) < store.rank program a := by
  have ha := Program.toNat_lt_of_line? hl
  unfold rank
  have hmoves := hx.moves
  generalize result.cursor = next at hmoves
  cases hmoves with
  | stays hc =>
    rw [hc]
    exact Call.rank_next_lt ha (Program.toNat_add_one hsize ha)
  | @enters _ invocation _ hroom =>
    rw [store.flow.calls.height_eq] at hroom
    exact Call.rank_enter_lt ⟨invocation.name, a⟩ hroom
  | rewinds _ hl' _ =>
    rw [hloops] at hl'
    exact absurd hl' Stack.empty_ne_cons
  | @returns _ call _ hc =>
    have hr : call.returnTo.toNat < program.size := h.calls call (by simp [hc])
    rw [hc, Stack.entries_cons]
    exact Call.rank_return_lt hr (Program.toNat_add_one hsize hr)

end Store

/-! ## Runs -/

namespace Engine

variable {program : Program} {fuel : Nat} {a : Address} {engine : Engine}

/-- `runFrom` has an outcome if the bound is at least the `rank`. -/
theorem exists_outcome_of_rank_le (hsize : program.size < UInt64.size) (hfree : program.LoopFree)
    (h : engine.store.Placed program) (hloops : engine.store.flow.loops = .empty)
    (hfuel : engine.store.rank program a ≤ fuel) :
    ∃ outcome, runFrom program fuel a engine = some outcome := by
  induction fuel generalizing a engine with
  | zero =>
    have hpos := Call.rank_pos program.size callBound.size engine.store.flow.calls.entries a
    exact absurd hfuel (Nat.not_le_of_gt hpos)
  | succ fuel ih =>
    rw [runFrom]
    cases hl : program.line? a with
    | none => exact ⟨_, rfl⟩
    | some line =>
      cases he : execute line a engine with
      | error fault after =>
        simp only [he]
        exact ⟨_, rfl⟩
      | ok next after =>
        simp only [he]
        obtain ⟨step, hx, rfl, -⟩ := execute_eq_ok_iff.1 he
        have hless := h.rank_lt hsize hloops hl hx
        exact ih (h.step hl hx) (h.loops_eq_empty hfree hloops hl hx) (by omega)

/-- **Programs without loops end.** The run of a `LoopFree` program with an address for each line
has an outcome within `(size + 1) * (size + 2) ^ callLimit` lines, however its branches and methods
are nested. -/
theorem run_ends_of_loopFree (hsize : program.size < UInt64.size) (hfree : program.LoopFree)
    (engine : Engine) : ∃ outcome,
      run program ((program.size + 1) * (program.size + 2) ^ callLimit) engine = some outcome := by
  refine exists_outcome_of_rank_le hsize hfree (.empty program) rfl (Nat.le_of_eq ?_)
  -- no call is open and all lines are left, so there is one digit
  exact Nat.zero_add _

/-- Two methods that call each other without end, between closing lines that close nothing and a
branch that is never closed. -/
def mutualRecursion : Program :=
  .parse ("ENDWHILE\nENDMETHOD\nMETHOD f(n)\nIF n > 0\ng(n)\nENDIF\nENDMETHOD\n" ++
    "METHOD g(n)\nf(n)\nENDMETHOD\nIF 1 < 2\nf(1)\n")

/-- Two methods that call each other for ever, up to the bound for calls. -/
theorem run_ends_of_loopFree_mutualRecursion :
    mutualRecursion.size < UInt64.size ∧ mutualRecursion.LoopFree ∧ ∃ outcome,
      run mutualRecursion ((mutualRecursion.size + 1) * (mutualRecursion.size + 2) ^ callLimit)
        .initial = some outcome := by
  have hsize : mutualRecursion.size < UInt64.size := by decide +kernel
  have hfree : mutualRecursion.LoopFree := by decide +kernel
  exact ⟨hsize, hfree, run_ends_of_loopFree hsize hfree .initial⟩

end Engine

end Sketch
