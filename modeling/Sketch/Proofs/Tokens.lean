import Mathlib.Data.List.Forall2
import Sketch.Proofs.Names

/-!
# Tokens that differ in their values only

The tokens of a line after substitution depend on the store, but only in which literals stand for
the variables: in two stores they are alike, that is equal or both literals
(`Store.substitute_alike`). What a line asks for does not depend on the values of its literals. If
it can be read in one store, then it can be read in the other, but for sizes that have to be
positive (`Instruction.passes_of_alike`).
-/

namespace Sketch

/-- Two tokens are equal or both literals. -/
def Alike (s t : String) : Prop :=
  s = t ∨ Number.isLiteral s = true ∧ Number.isLiteral t = true

namespace Alike

variable {s t : String}

/-- `Alike` is reflexive. -/
theorem refl (s : String) : Alike s s := .inl rfl

/-- A token that is no literal is `Alike` to itself only. -/
theorem eq_of_not_isLiteral (h : Alike s t) (hs : Number.isLiteral s = false) : s = t := by
  rcases h with rfl | ⟨hl, -⟩
  · rfl
  · rw [hs] at hl
    cases hl

/-- What is `Alike` to a literal is a literal. -/
theorem isLiteral (h : Alike s t) (hs : Number.isLiteral s = true) : Number.isLiteral t = true := by
  rcases h with rfl | ⟨-, ht⟩
  · exact hs
  · exact ht

/-- What is `Alike` to a token that is read as a number is read as one. -/
theorem read (h : Alike s t) {n : Number} (hs : Number.read s = .ok n) :
    ∃ m, Number.read t = .ok m :=
  Number.isLiteral_iff_read.1 (h.isLiteral (Number.isLiteral_iff_read.2 ⟨n, hs⟩))

end Alike

/-- A text with a character that no literal has is none (`isLiteral`). -/
theorem Number.isLiteral_eq_false {s : String} {c : Char} (hc : c ∈ s.toList)
    (hd : c.isDigit = false) (hp : c ≠ '+') (hm : c ≠ '-') : isLiteral s = false := by
  refine Bool.eq_false_iff.2 fun h => ?_
  rcases char_of_isLiteral h hc with h | h | h
  · rw [hd] at h
    cases h
  · exact hp h
  · exact hm h

/-- An operator is no literal. -/
theorem Operator.not_isLiteral {s : String} {operator : Operator}
    (h : ofText? s = some operator) : Number.isLiteral s = false := by
  unfold ofText? at h
  split at h
  · decide
  · decide
  · decide
  · decide
  · cases h

/-- A comparison is no literal. -/
theorem Comparison.not_isLiteral {s : String} {comparison : Comparison}
    (h : ofText? s = some comparison) : Number.isLiteral s = false := by
  unfold ofText? at h
  split at h
  · decide
  · decide
  · decide
  · decide
  · decide
  · decide
  · cases h

/-- A text that `unquote?` accepts is no literal. -/
theorem Instruction.not_isLiteral_of_unquote? {s content : String}
    (h : unquote? s = some content) : Number.isLiteral s = false := by
  unfold unquote? at h
  split at h
  · next rest hs =>
    exact Number.isLiteral_eq_false (c := '"') (by simp [hs]) (by decide) (by decide) (by decide)
  · cases h

/-- What `Bracketed.parse?` accepts is its head, an opening bracket, the items and a closing
bracket. -/
theorem Bracketed.parse?_eq_some {s : String} {b : Bracketed} (h : parse? s = some b) :
    ∃ inner, s.toList = b.head.toList ++ '(' :: (inner ++ [')']) ∧ b.items = itemsOf inner := by
  unfold parse? at h
  dsimp only at h
  split at h
  · cases h
  · next c rest hdrop =>
    obtain ⟨inner, hinner, rfl⟩ := Option.map_eq_some_iff.1 h
    have hbracket : c = '(' := by
      have := List.head_dropWhile_not (· != '(') (l := s.toList) (by simp [hdrop])
      simpa [hdrop] using this
    have hrest : rest = inner ++ [')'] := by
      unfold inner? at hinner
      split at hinner
      · next hlast =>
        cases hinner
        exact (List.dropLast_append_getLast? ')' hlast.1).symm
      · cases hinner
    rw [hbracket, hrest] at hdrop
    exact ⟨inner, by rw [String.toList_ofList, ← hdrop, List.takeWhile_append_dropWhile], rfl⟩

/-- A bracketed list has an opening bracket. -/
theorem Bracketed.not_isLiteral {s : String} {b : Bracketed} (h : parse? s = some b) :
    Number.isLiteral s = false := by
  obtain ⟨inner, hs, -⟩ := parse?_eq_some h
  have hmem : '(' ∈ s.toList := by
    rw [hs]
    exact List.mem_append_right _ List.mem_cons_self
  exact Number.isLiteral_eq_false hmem (by decide) (by decide) (by decide)

/-! ## Substitution -/

/-- `mapM` succeeds exactly if each element does. -/
theorem mapM_eq_ok_iff {ε α β : Type} {f : α → Except ε β} {xs : List α} {ys : List β} :
    xs.mapM f = .ok ys ↔ List.Forall₂ (fun x y => f x = .ok y) xs ys := by
  induction xs generalizing ys with
  | nil =>
    rw [List.forall₂_nil_left_iff, List.mapM_nil]
    exact ⟨fun h => by cases h; rfl, fun h => h ▸ rfl⟩
  | cons x xs ih =>
    rw [List.mapM_cons, bind_ok_iff, List.forall₂_cons_left_iff]
    constructor
    · rintro ⟨y, hy, h⟩
      obtain ⟨ys', hys, h⟩ := bind_ok_iff.1 h
      cases h
      exact ⟨y, ys', hy, ih.1 hys, rfl⟩
    · rintro ⟨y, ys', hy, hys, rfl⟩
      exact ⟨y, hy, bind_ok_iff.2 ⟨ys', ih.2 hys, rfl⟩⟩

/-- `mapM` fails at an element that fails. -/
theorem exists_of_mapM_eq_error {ε α β : Type} {f : α → Except ε β} {xs : List α} {e : ε}
    (h : xs.mapM f = .error e) : ∃ x ∈ xs, f x = .error e := by
  induction xs with
  | nil => cases h
  | cons x xs ih =>
    rw [List.mapM_cons, bind_error_iff] at h
    rcases h with h | ⟨y, -, h⟩
    · exact ⟨x, List.mem_cons_self, h⟩
    · rcases bind_error_iff.1 h with h | ⟨_, -, h⟩
      · obtain ⟨x', hmem, hx⟩ := ih h
        exact ⟨x', List.mem_cons_of_mem x hmem, hx⟩
      · cases h

namespace Store

variable {a b : Store} {tokens xs ys : List String} {command : Command}

/-- `substituteToken` gives tokens that are `Alike` in any two stores. -/
theorem substituteToken_alike {token s t : String} (ha : a.substituteToken token = .ok s)
    (hb : b.substituteToken token = .ok t) : Alike s t := by
  unfold substituteToken at ha hb
  split at ha
  · next h =>
    rw [if_pos h] at hb
    cases ha
    cases hb
    exact .refl token
  · next h =>
    rw [if_neg h] at hb
    obtain ⟨n, -, rfl⟩ := map_eq_ok_iff.1 ha
    obtain ⟨m, -, rfl⟩ := map_eq_ok_iff.1 hb
    exact .inr ⟨Number.isLiteral_text n, Number.isLiteral_text m⟩

/-- `substitute` replaces the arguments one by one. -/
theorem forall₂_of_substitute (hc : command.substitutes = true) {first : String}
    {arguments : List String} (h : a.substitute command (first :: arguments) = .ok xs) :
    ∃ xs', xs = first :: xs' ∧
      List.Forall₂ (fun token s => a.substituteToken token = .ok s) arguments xs' := by
  rw [substitute, if_pos hc] at h
  obtain ⟨xs', hxs, rfl⟩ := map_eq_ok_iff.1 h
  exact ⟨xs', rfl, mapM_eq_ok_iff.1 hxs⟩

/-- `substitute` keeps the first token of a line and gives others that are `Alike` in any two
stores. -/
theorem substitute_alike {first : String} {rest : List String}
    (ha : a.substitute command (first :: rest) = .ok xs)
    (hb : b.substitute command (first :: rest) = .ok ys) :
    ∃ xs' ys', xs = first :: xs' ∧ ys = first :: ys' ∧ List.Forall₂ Alike xs' ys' ∧
      (command.substitutes = false → xs' = ys') := by
  cases hc : command.substitutes with
  | true =>
    obtain ⟨xs', rfl, hxs⟩ := forall₂_of_substitute hc ha
    obtain ⟨ys', rfl, hys⟩ := forall₂_of_substitute hc hb
    refine ⟨xs', ys', rfl, rfl, ?_, nofun⟩
    clear ha hb
    induction hxs generalizing ys' with
    | nil =>
      obtain rfl := List.forall₂_nil_left_iff.1 hys
      exact .nil
    | cons hs _ ih =>
      obtain ⟨t, ys', ht, hrest, rfl⟩ := List.forall₂_cons_left_iff.1 hys
      exact .cons (substituteToken_alike hs ht) (ih ys' hrest)
  | false =>
    rw [substitute, if_neg (by simp [hc])] at ha hb
    cases ha
    cases hb
    exact ⟨rest, rest, rfl, rfl, List.forall₂_same.2 fun s _ => .refl s, fun _ => rfl⟩

/-- `substituteToken` has changed nothing where the result is no literal. -/
theorem eq_of_substituteToken {token s : String} (h : a.substituteToken token = .ok s)
    (hs : Number.isLiteral s = false) : token = s := by
  unfold substituteToken at h
  split at h
  · cases h
    rfl
  · obtain ⟨n, -, rfl⟩ := map_eq_ok_iff.1 h
    rw [Number.isLiteral_text] at hs
    cases hs

/-- What `Assignment.parse` reads after `substitute` has the shape of an assignment before. -/
theorem hasAssignmentShape_of_parse {assignment : Assignment}
    (hs : a.substitute .assignment tokens = .ok xs) (hp : Assignment.parse xs = .ok assignment) :
    Command.hasAssignmentShape tokens = true := by
  obtain ⟨value, rest, rfl, hname, -, hrest⟩ := Assignment.parse_eq_ok_iff.1 hp
  have hlength : rest.length ≤ 2 := by
    unfold Assignment.parseOperation at hrest
    split at hrest
    · exact Nat.zero_le _
    · split at hrest
      · cases hrest
      · split at hrest
        · cases hrest
        · obtain ⟨_, -, hrest⟩ := bind_ok_iff.1 hrest
          split at hrest
          · next hnil => simp [List.isEmpty_iff.1 hnil]
          · cases hrest
  cases tokens with
  | nil => cases hs
  | cons first arguments =>
    obtain ⟨_, heq, hargs⟩ := forall₂_of_substitute rfl hs
    simp only [List.cons.injEq] at heq
    obtain ⟨rfl, rfl⟩ := heq
    obtain ⟨equals, _, hequals, hvalue, rfl⟩ := List.forall₂_cons_right_iff.1 hargs
    obtain ⟨value', rest', -, hmore, rfl⟩ := List.forall₂_cons_right_iff.1 hvalue
    obtain rfl := eq_of_substituteToken hequals (by decide)
    have hisName : Name.isName assignment.name = true := (Bool.and_eq_true_iff.1 hname).1
    rw [Command.hasAssignmentShape, hmore.length_eq]
    simp [hlength, hisName]

/-- What is read as a header after `substitute` is the same before. -/
theorem eq_of_substitute_header {first word : String} {signature : Bracketed}
    (hs : a.substitute (.keyword (.opens .method)) tokens = .ok [first, word])
    (hp : Bracketed.parse? word = some signature) : tokens = [first, word] := by
  cases tokens with
  | nil => cases hs
  | cons head arguments =>
    obtain ⟨_, heq, hargs⟩ := forall₂_of_substitute rfl hs
    simp only [List.cons.injEq] at heq
    obtain ⟨rfl, rfl⟩ := heq
    obtain ⟨word', _, hword, hnil, rfl⟩ := List.forall₂_cons_right_iff.1 hargs
    obtain rfl := List.forall₂_nil_right_iff.1 hnil
    rw [eq_of_substituteToken hword (Bracketed.not_isLiteral hp)]

/-- `resolve` fails with `undefinedVariable` only. -/
theorem resolve_eq_error {token : String} {fault : Fault} (h : a.resolve token = .error fault) :
    ∃ name, fault = .undefinedVariable name := by
  unfold resolve at h
  split at h
  · cases h
  · split at h
    · cases h
    · cases h
      exact ⟨token, rfl⟩

/-- `substitute` fails only with `undefinedVariable`. -/
theorem substitute_eq_error {fault : Fault} (h : a.substitute command tokens = .error fault) :
    ∃ name, fault = .undefinedVariable name := by
  cases tokens with
  | nil => cases h
  | cons first rest =>
    rw [substitute] at h
    split at h
    · obtain ⟨token, -, ht⟩ := exists_of_mapM_eq_error (map_eq_error_iff.1 h)
      unfold substituteToken at ht
      split at ht
      · cases ht
      · exact resolve_eq_error (map_eq_error_iff.1 ht)
    · cases h

end Store

/-! ## Reading alike tokens -/

namespace Assignment

variable {first : String} {xs ys : List String}

/-- If `parseOperation` reads tokens, then it reads tokens that are `Alike`. -/
theorem parseOperation_of_alike {operation : Option (Operator × Number)}
    (hx : parseOperation xs = .ok operation) (h : List.Forall₂ Alike xs ys) :
    ∃ other, parseOperation ys = .ok other := by
  cases h with
  | nil => exact ⟨none, rfl⟩
  | @cons word word' rest rest' hword hrest =>
    simp only [parseOperation] at hx
    split at hx
    · cases hx
    · next operator ho =>
      obtain rfl := hword.eq_of_not_isLiteral (Operator.not_isLiteral ho)
      cases hrest with
      | nil => cases hx
      | @cons operand operand' rest rest' hoperand hrest =>
        obtain ⟨b, hb, hx⟩ := bind_ok_iff.1 hx
        obtain ⟨b', hb'⟩ := hoperand.read hb
        split at hx
        · next hnil =>
          rw [List.isEmpty_iff] at hnil
          subst hnil
          cases hrest
          exact ⟨some (operator, b'), by simp [parseOperation, ho, hb', bind, Except.bind]⟩
        · cases hx

/-- `Assignment.parse` reads tokens that are `Alike` to those of an assignment. -/
theorem parse_of_alike {assignment : Assignment} (hx : parse (first :: xs) = .ok assignment)
    (h : List.Forall₂ Alike xs ys) : ∃ other, parse (first :: ys) = .ok other := by
  obtain ⟨value, rest, heq, hname, hvalue, hrest⟩ := parse_eq_ok_iff.1 hx
  simp only [List.cons.injEq] at heq
  obtain ⟨rfl, rfl⟩ := heq
  cases h with
  | @cons _ equals _ ys hequals h =>
    obtain rfl := hequals.eq_of_not_isLiteral (by decide)
    cases h with
    | @cons _ value' _ rest' hvalue' h =>
      obtain ⟨n, hn⟩ := hvalue'.read hvalue
      obtain ⟨operation, ho⟩ := parseOperation_of_alike hrest h
      exact ⟨⟨assignment.name, n, operation⟩,
        parse_eq_ok_iff.2 ⟨value', rest', rfl, hname, hn, ho⟩⟩

end Assignment

namespace Condition

/-- `Condition.parse` reads tokens that are `Alike` to those of a condition. -/
theorem parse_of_alike {keyword : Keyword} {first : String} {xs ys : List String}
    {condition : Condition} (hx : parse keyword (first :: xs) = .ok condition)
    (h : List.Forall₂ Alike xs ys) : ∃ other, parse keyword (first :: ys) = .ok other := by
  unfold parse at hx
  split at hx
  · next _ left word right heq =>
    simp only [List.cons.injEq] at heq
    obtain ⟨-, rfl⟩ := heq
    obtain ⟨a, ha, hx⟩ := bind_ok_iff.1 hx
    cases hword : Comparison.ofText? word with
    | none =>
      simp only [hword] at hx
      cases hx
    | some comparison =>
      simp only [hword] at hx
      obtain ⟨b, hb, -⟩ := bind_ok_iff.1 hx
      obtain ⟨left', _, hleft, hrest, rfl⟩ := List.forall₂_cons_left_iff.1 h
      obtain ⟨word', _, hword', hlast, rfl⟩ := List.forall₂_cons_left_iff.1 hrest
      obtain ⟨right', _, hright, hnil, rfl⟩ := List.forall₂_cons_left_iff.1 hlast
      obtain rfl := List.forall₂_nil_left_iff.1 hnil
      obtain rfl := hword'.eq_of_not_isLiteral (Comparison.not_isLiteral hword)
      obtain ⟨a', ha'⟩ := hleft.read ha
      obtain ⟨b', hb'⟩ := hright.read hb
      exact ⟨⟨a', comparison, b'⟩, by simp [parse, ha', hword, hb', bind, Except.bind]⟩
  · cases hx

end Condition

namespace Instruction

/-- The tokens can be read, or a size is not positive. -/
def Passes {α : Type} (result : Except Fault α) : Prop :=
  (∃ a, result = .ok a) ∨ ∃ measure, result = .error (.notPositive measure)

/-- A bind `Passes` if its parts do. -/
theorem Passes.bind {α β : Type} {x : Except Fault α} {f : α → Except Fault β} (hx : Passes x)
    (hf : ∀ a, Passes (f a)) : Passes (x >>= f) := by
  rcases hx with ⟨a, rfl⟩ | ⟨measure, rfl⟩
  · exact hf a
  · exact .inr ⟨measure, rfl⟩

theorem Passes.ok {α : Type} (a : α) : Passes (.ok a) := .inl ⟨a, rfl⟩

/-- `Number.read` accepts what is `Alike` to a number. -/
theorem passes_read {s t : String} {n : Number} (h : Alike s t) (hs : Number.read s = .ok n) :
    Passes (Number.read t) :=
  .inl (h.read hs)

/-- If a token is read as a size, then one that is like it is read or is `notPositive`. -/
theorem passes_readSize {s t : String} {measure : Measure} {n : Number} (h : Alike s t)
    (hs : readSize measure s = .ok n) : Passes (readSize measure t) := by
  obtain ⟨m, hm, -⟩ := bind_ok_iff.1 hs
  refine (passes_read h hm).bind fun k => ?_
  split
  · exact .ok k
  · exact .inr ⟨measure, rfl⟩

/-- What `readQuoted` accepts is `Alike` to itself only. -/
theorem eq_of_readQuoted {s t content : String} (h : Alike s t)
    (hs : readQuoted s = .ok content) : s = t := by
  unfold readQuoted at hs
  split at hs
  · next hq => exact h.eq_of_not_isLiteral (not_isLiteral_of_unquote? hq)
  · cases hs

/-- `readContent` accepts what is `Alike` to a content. -/
theorem passes_readContent {s t content : String} (h : Alike s t)
    (hs : readContent s = .ok content) : Passes (readContent t) := by
  rcases h with rfl | ⟨-, ht⟩
  · exact .inl ⟨content, hs⟩
  · obtain ⟨n, hn⟩ := Option.isSome_iff_exists.1 ht
    exact .inl ⟨Number.text n, by simp [readContent, hn]⟩

/-- `Instruction.parse` reads arguments that are `Alike`, unless a size is `notPositive`. -/
theorem passes_of_alike {tool : Tool} {xs ys : List String} {instruction : Instruction}
    (hx : parse tool xs = .ok instruction) (h : List.Forall₂ Alike xs ys)
    (hsame : (Keyword.draws tool).substitutes = false → xs = ys) : Passes (parse tool ys) := by
  -- the two tools whose arguments are not numbers are left as they are; the others read one by one
  cases tool with
  | color => exact hsame rfl ▸ .inl ⟨instruction, hx⟩
  | fill => exact hsame rfl ▸ .inl ⟨instruction, hx⟩
  | clear =>
    cases h with
    | nil => exact .ok _
    | cons _ _ => cases hx
  | reset =>
    cases h with
    | nil => exact .ok _
    | cons _ _ => cases hx
  | circle =>
    rcases h with _ | ⟨h₁, _ | ⟨_, _⟩⟩
    · cases hx
    · obtain ⟨radius, hradius, -⟩ := bind_ok_iff.1 hx
      exact (passes_readSize h₁ hradius).bind fun _ => .ok _
    · cases hx
  | move =>
    rcases h with _ | ⟨h₁, _ | ⟨h₂, _ | ⟨_, _⟩⟩⟩
    · cases hx
    · cases hx
    · obtain ⟨x, hx₁, hx⟩ := bind_ok_iff.1 hx
      obtain ⟨y, hy, -⟩ := bind_ok_iff.1 hx
      exact (passes_read h₁ hx₁).bind fun _ => (passes_read h₂ hy).bind fun _ => .ok _
    · cases hx
  | rectangle =>
    rcases h with _ | ⟨h₁, _ | ⟨h₂, _ | ⟨_, _⟩⟩⟩
    · cases hx
    · cases hx
    · obtain ⟨width, hwidth, hx⟩ := bind_ok_iff.1 hx
      obtain ⟨height, hheight, -⟩ := bind_ok_iff.1 hx
      exact (passes_readSize h₁ hwidth).bind fun _ =>
        (passes_readSize h₂ hheight).bind fun _ => .ok _
    · cases hx
  | triangle =>
    rcases h with _ | ⟨h₁, _ | ⟨h₂, _ | ⟨_, _⟩⟩⟩
    · cases hx
    · cases hx
    · obtain ⟨base, hbase, hx⟩ := bind_ok_iff.1 hx
      obtain ⟨height, hheight, -⟩ := bind_ok_iff.1 hx
      exact (passes_readSize h₁ hbase).bind fun _ =>
        (passes_readSize h₂ hheight).bind fun _ => .ok _
    · cases hx
  | draw =>
    rcases h with _ | ⟨h₁, _ | ⟨h₂, _ | ⟨_, _⟩⟩⟩
    · cases hx
    · obtain ⟨x, hx₁, -⟩ := bind_ok_iff.1 hx
      exact (passes_read h₁ hx₁).bind fun _ => .ok _
    · obtain ⟨y, hy, hx⟩ := bind_ok_iff.1 hx
      obtain ⟨x, hx₁, -⟩ := bind_ok_iff.1 hx
      exact (passes_read h₂ hy).bind fun _ => (passes_read h₁ hx₁).bind fun _ => .ok _
    · cases hx
  | write =>
    rcases h with _ | ⟨h₁, _ | ⟨h₂, _ | ⟨_, _⟩⟩⟩
    · cases hx
    · obtain ⟨content, hcontent, -⟩ := bind_ok_iff.1 hx
      exact (passes_readContent h₁ hcontent).bind fun _ => .ok _
    · obtain ⟨size, hsize, hx⟩ := bind_ok_iff.1 hx
      obtain ⟨content, hcontent, -⟩ := bind_ok_iff.1 hx
      obtain rfl := eq_of_readQuoted h₂ hcontent
      exact (passes_readSize h₁ hsize).bind fun _ => .inl ⟨_, by rw [hcontent]; rfl⟩
    · cases hx

end Instruction

end Sketch
