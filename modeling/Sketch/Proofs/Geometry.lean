import Sketch.Proofs.Assignments
import Sketch.Proofs.Computation
import Sketch.Proofs.Iterations

/-!
# What is drawn, and where

What a line adds to the picture, said by its tokens and by the pen before it (`Store.Draws`). The
integers are exact and are moved into the range only in the end.

Main statement: `Engine.geometry_exact`. Lines draw what `Draws` says, every figure and every text
of the picture has a positive size, and a stroke begins where the pen was left. The last is said
about histories (`Engine.History`), since a picture does not tell what else was done.
-/

namespace Sketch

/-! ## Reading arguments -/

/-- `Number.read` accepts what `Number.parse?` does. -/
theorem Number.read_eq_ok_iff {word : String} {n : Number} :
    read word = .ok n ↔ parse? word = some n := by
  unfold read
  cases parse? word <;> simp

namespace Instruction

variable {word content : String} {measure : Measure} {n : Number}

/-- `readSize` accepts the literals of positive numbers. -/
theorem readSize_eq_ok_iff :
    readSize measure word = .ok n ↔ Number.parse? word = some n ∧ 0 < n.toInt := by
  rw [readSize, bind_ok_iff]
  constructor
  · rintro ⟨m, hm, h⟩
    split at h
    · next hpos =>
      cases h
      exact ⟨Number.read_eq_ok_iff.1 hm, hpos⟩
    · cases h
  · rintro ⟨hn, hpos⟩
    exact ⟨n, Number.read_eq_ok_iff.2 hn, if_pos hpos⟩

/-- `unquote?` gives what stands between the quotes at both ends. -/
theorem unquote?_eq_some_iff : unquote? word = some content ↔ word = "\"" ++ content ++ "\"" := by
  have hquotes : ("\"" ++ content ++ "\"").toList = '"' :: (content.toList ++ ['"']) := by simp
  rw [← String.toList_inj, hquotes]
  unfold unquote?
  split
  · next rest hword =>
    rw [hword, List.cons.injEq]
    split
    · next hlast =>
      have hrest := List.dropLast_append_getLast? '"' hlast
      rw [Option.some.injEq, ← String.toList_inj, String.toList_ofList]
      constructor
      · intro h
        exact ⟨rfl, by rw [← h, hrest]⟩
      · rintro ⟨-, h⟩
        rw [h, List.dropLast_concat]
    · next hlast =>
      simp only [reduceCtorEq, true_and, false_iff]
      rintro rfl
      simp at hlast
  · next hno =>
    simp only [reduceCtorEq, false_iff]
    exact hno _

/-- `readQuoted` gives what stands between the quotes. -/
theorem readQuoted_eq_ok_iff :
    readQuoted word = .ok content ↔ word = "\"" ++ content ++ "\"" := by
  rw [← unquote?_eq_some_iff]
  unfold readQuoted
  cases unquote? word <;> simp

/-- `readContent` accepts a literal, and gives the text of its number, or a quoted text. -/
theorem readContent_eq_ok_iff : readContent word = .ok content ↔
    (∃ n, Number.parse? word = some n ∧ Number.text n = content) ∨
      word = "\"" ++ content ++ "\"" := by
  unfold readContent
  cases hp : Number.parse? word with
  | none => simp [readQuoted_eq_ok_iff]
  | some n =>
    -- a literal has no quotes
    have hquotes : word ≠ "\"" ++ content ++ "\"" := by
      intro hword
      have hliteral := not_isLiteral_of_unquote? (unquote?_eq_some_iff.2 hword)
      simp [Number.isLiteral, hp] at hliteral
    simp [hquotes]

/-- `readSwitch` accepts `ON` and `OFF`, whatever their case. -/
theorem readSwitch_eq_ok_iff {filling : Bool} :
    readSwitch word = .ok filling ↔ Text.upper word = if filling then "ON" else "OFF" := by
  unfold readSwitch
  split
  · next h => cases filling <;> simp [h]
  · next h => cases filling <;> simp [h]
  · next hon hoff =>
    simp only [reduceCtorEq, false_iff]
    cases filling
    · exact hoff
    · exact hon

/-- `readColor` accepts the words of `Color.ofWord?`. -/
theorem readColor_eq_ok_iff {color : Color} :
    readColor word = .ok color ↔ Color.ofWord? word = some color := by
  unfold readColor
  cases Color.ofWord? word <;> simp

end Instruction

namespace Store

variable {store : Store} {token word content : String} {n : Number}

/-- An argument `Denotes` the number that is read in what is substituted for it. -/
theorem denotes_of_substituteToken (hw : store.substituteToken token = .ok word)
    (hn : Number.parse? word = some n) : store.Denotes token n := by
  unfold substituteToken at hw
  split at hw
  · cases hw
    exact .literal hn
  · obtain ⟨m, hm, rfl⟩ := map_eq_ok_iff.1 hw
    rw [Number.parse?_text, Option.some.injEq] at hn
    exact hn ▸ denotes_of_resolve hm

/-- An argument that `Number.read` accepts `Denotes` the number. -/
theorem denotes_of_read (hw : store.substituteToken token = .ok word)
    (hn : Number.read word = .ok n) : store.Denotes token n :=
  denotes_of_substituteToken hw (Number.read_eq_ok_iff.1 hn)

/-- An argument that `readSize` accepts `Denotes` a positive number. -/
theorem denotes_of_readSize {measure : Measure} (hw : store.substituteToken token = .ok word)
    (hn : Instruction.readSize measure word = .ok n) : store.Denotes token n ∧ 0 < n.toInt := by
  obtain ⟨hparse, hpos⟩ := Instruction.readSize_eq_ok_iff.1 hn
  exact ⟨denotes_of_substituteToken hw hparse, hpos⟩

/-- `substituteToken` keeps a quoted text. -/
theorem substituteToken_quoted (content : String) :
    store.substituteToken ("\"" ++ content ++ "\"") = .ok ("\"" ++ content ++ "\"") := by
  simp [substituteToken, Name.hasReserved, Name.reserved]

/-- `substituteToken` gives a quoted text only for itself. -/
theorem eq_of_substituteToken_quoted
    (hw : store.substituteToken token = .ok ("\"" ++ content ++ "\"")) :
    token = "\"" ++ content ++ "\"" :=
  eq_of_substituteToken hw
    (Instruction.not_isLiteral_of_unquote? (Instruction.unquote?_eq_some_iff.2 rfl))

end Store

/-! ## The drawing of a line -/

open Number (clamp) in
/-- What a line with these tokens adds to the picture, and the pen after it. -/
inductive Store.Draws (store : Store) (pen : Pen) :
    List String → Option Primitive → Pen → Prop where
  | move {a b : String} {x y : Number} (hx : store.Denotes a x) (hy : store.Denotes b y) :
      Draws store pen ["MOVE", a, b] (some (.move ⟨x, y⟩)) { pen with position := ⟨x, y⟩ }
  | draw {a b : String} {x y : Number} (hx : store.Denotes a x) (hy : store.Denotes b y) :
      Draws store pen ["DRAW", a, b] (some (.line pen.position ⟨x, y⟩ pen.color))
        { pen with position := ⟨x, y⟩ }
  | drawLevel {a : String} {x : Number} (hx : store.Denotes a x) :
      Draws store pen ["DRAW", a] (some (.line pen.position ⟨x, pen.position.y⟩ pen.color))
        { pen with position := ⟨x, pen.position.y⟩ }
  | circle {a : String} {r : Number} (hr : store.Denotes a r) (hpos : 0 < r.toInt) :
      Draws store pen ["CIRCLE", a]
        (some (.ellipse
          ⟨⟨clamp (pen.position.x.toInt - r.toInt), clamp (pen.position.y.toInt - r.toInt)⟩,
            clamp (2 * r.toInt), clamp (2 * r.toInt)⟩ pen.color pen.filling)) pen
  | rectangle {a b : String} {width height : Number} (hw : store.Denotes a width)
      (hh : store.Denotes b height) (hwpos : 0 < width.toInt) (hhpos : 0 < height.toInt) :
      Draws store pen ["RECTANGLE", a, b]
        (some (.rectangle ⟨pen.position, width, height⟩ pen.color pen.filling)) pen
  | triangle {a b : String} {base height : Number} (hb : store.Denotes a base)
      (hh : store.Denotes b height) (hbpos : 0 < base.toInt) (hhpos : 0 < height.toInt) :
      Draws store pen ["TRIANGLE", a, b]
        (some (.polygon
          [pen.position, ⟨clamp (pen.position.x.toInt + base.toInt), pen.position.y⟩,
            ⟨clamp (pen.position.x.toInt + base.toInt.fdiv 2),
              clamp (pen.position.y.toInt - height.toInt)⟩] pen.color pen.filling)) pen
  | writeNumber {a : String} {n : Number} (hn : store.Denotes a n) :
      Draws store pen ["WRITE", a] (some (.text pen.position 12 (Number.text n) pen.color)) pen
  | write {content : String} :
      Draws store pen ["WRITE", "\"" ++ content ++ "\""]
        (some (.text pen.position 12 content pen.color)) pen
  | writeSized {a content : String} {size : Number} (hs : store.Denotes a size)
      (hpos : 0 < size.toInt) :
      Draws store pen ["WRITE", a, "\"" ++ content ++ "\""]
        (some (.text pen.position size content pen.color)) pen
  | clear : Draws store pen ["CLEAR"] (some .clear) pen
  | color {word : String} {color : Color} (hc : Color.ofWord? word = some color) :
      Draws store pen ["COLOR", word] none { pen with color }
  | fill {word : String} {filling : Bool}
      (hf : Text.upper word = if filling then "ON" else "OFF") :
      Draws store pen ["FILL", word] none { pen with filling }
  | reset : Draws store pen ["RESET"] none .initial

namespace Store

variable {store : Store} {pen pen' : Pen} {tool : Tool} {arguments words tokens : List String}
  {instruction : Instruction} {mark : Option Primitive}

/-- For a base that is not negative, to cut off half of an odd one is to round down. -/
theorem perform_triangle (pen : Pen) {base : Number} (height : Number) (h : 0 < base.toInt) :
    Canvas.perform ⟨pen, #[]⟩ (.triangle base height) =
      ⟨pen, #[.polygon
        [pen.position, ⟨Number.clamp (pen.position.x.toInt + base.toInt), pen.position.y⟩,
          ⟨Number.clamp (pen.position.x.toInt + base.toInt.fdiv 2),
            Number.clamp (pen.position.y.toInt - height.toInt)⟩] pen.color pen.filling]⟩ := by
  have hhalf : base.toInt.tdiv 2 = base.toInt.fdiv 2 := by
    rw [Int.tdiv_eq_ediv_of_nonneg (Int.le_of_lt h),
      Int.fdiv_eq_ediv_of_nonneg base.toInt (by decide)]
  simp [Canvas.perform, Canvas.add, Instruction.triangleCorners, hhalf]

/-- The instruction does to a canvas what a line with these tokens draws. -/
def DrawsAs (store : Store) (pen : Pen) (tokens : List String) (instruction : Instruction) : Prop :=
  ∃ mark pen', store.Draws pen tokens mark pen' ∧
    Canvas.perform ⟨pen, #[]⟩ instruction = ⟨pen', mark.toArray⟩

/-- The words are what `substituteToken` makes of the arguments. -/
def Substitutes (store : Store) (arguments words : List String) : Prop :=
  List.Forall₂ (fun token word => store.substituteToken token = .ok word) arguments words

/-- `substitute` treats each word after the keyword of a tool, unless the tool takes them as they
are. -/
theorem substitutes_or_eq
    (hs : store.substitute (.keyword (.draws tool)) (tool.text :: arguments) =
      .ok (tool.text :: words)) :
    if Command.substitutes (.keyword (.draws tool)) then store.Substitutes arguments words
    else arguments = words := by
  split
  · next hc =>
    obtain ⟨_, heq, hall⟩ := forall₂_of_substitute hc hs
    cases heq
    exact hall
  · next hc =>
    rw [substitute, if_neg hc] at hs
    cases hs
    rfl

/-- `MOVE` and `DRAW` read numbers. -/
theorem drawsAs_of_numbers (pen : Pen) (ht : tool = .move ∨ tool = .draw)
    (hargs : store.Substitutes arguments words)
    (hp : Instruction.parse tool words = .ok instruction) :
    store.DrawsAs pen (tool.text :: arguments) instruction := by
  rcases ht with rfl | rfl
  · rcases hargs with _ | ⟨ha, _ | ⟨hb, _ | _⟩⟩
    · cases hp
    · cases hp
    · obtain ⟨x, hx, hp⟩ := bind_ok_iff.1 hp
      obtain ⟨y, hy, hp⟩ := bind_ok_iff.1 hp
      cases hp
      exact ⟨_, _, .move (denotes_of_read ha hx) (denotes_of_read hb hy), rfl⟩
    · cases hp
  · rcases hargs with _ | ⟨ha, _ | ⟨hb, _ | _⟩⟩
    · cases hp
    · obtain ⟨x, hx, hp⟩ := bind_ok_iff.1 hp
      cases hp
      exact ⟨_, _, .drawLevel (denotes_of_read ha hx), rfl⟩
    · obtain ⟨y, hy, hp⟩ := bind_ok_iff.1 hp
      obtain ⟨x, hx, hp⟩ := bind_ok_iff.1 hp
      cases hp
      exact ⟨_, _, .draw (denotes_of_read ha hx) (denotes_of_read hb hy), rfl⟩
    · cases hp

/-- Two arguments that are read with `readSize` stand for positive numbers. -/
theorem exists_sizes {a b v w : String} {first second : Measure}
    {shape : Number → Number → Instruction} (ha : store.substituteToken a = .ok v)
    (hb : store.substituteToken b = .ok w)
    (hp : (do
      let x ← Instruction.readSize first v
      let y ← Instruction.readSize second w
      Except.ok (shape x y)) = .ok instruction) :
    ∃ x y, store.Denotes a x ∧ store.Denotes b y ∧ 0 < x.toInt ∧ 0 < y.toInt ∧
      instruction = shape x y := by
  obtain ⟨x, hx, hp⟩ := bind_ok_iff.1 hp
  obtain ⟨y, hy, hp⟩ := bind_ok_iff.1 hp
  cases hp
  obtain ⟨hx, hxpos⟩ := denotes_of_readSize ha hx
  obtain ⟨hy, hypos⟩ := denotes_of_readSize hb hy
  exact ⟨x, y, hx, hy, hxpos, hypos, rfl⟩

/-- `CIRCLE`, `RECTANGLE` and `TRIANGLE` read sizes. -/
theorem drawsAs_of_sizes (pen : Pen) (ht : tool = .circle ∨ tool = .rectangle ∨ tool = .triangle)
    (hargs : store.Substitutes arguments words)
    (hp : Instruction.parse tool words = .ok instruction) :
    store.DrawsAs pen (tool.text :: arguments) instruction := by
  rcases ht with rfl | rfl | rfl
  · rcases hargs with _ | ⟨ha, _ | _⟩
    · cases hp
    · obtain ⟨r, hr, hp⟩ := bind_ok_iff.1 hp
      cases hp
      obtain ⟨hr, hpos⟩ := denotes_of_readSize ha hr
      exact ⟨_, _, .circle hr hpos, rfl⟩
    · cases hp
  · rcases hargs with _ | ⟨ha, _ | ⟨hb, _ | _⟩⟩
    · cases hp
    · cases hp
    · obtain ⟨width, height, hw, hh, hwpos, hhpos, rfl⟩ := exists_sizes ha hb hp
      exact ⟨_, _, .rectangle hw hh hwpos hhpos, rfl⟩
    · cases hp
  · rcases hargs with _ | ⟨ha, _ | ⟨hb, _ | _⟩⟩
    · cases hp
    · cases hp
    · obtain ⟨base, height, hbase, hh, hbpos, hhpos, rfl⟩ := exists_sizes ha hb hp
      exact ⟨_, _, .triangle hbase hh hbpos hhpos, perform_triangle pen height hbpos⟩
    · cases hp

/-- `COLOR` and `FILL` read one word, which is not substituted. -/
theorem drawsAs_of_word (pen : Pen) (ht : tool = .color ∨ tool = .fill)
    (hp : Instruction.parse tool words = .ok instruction) :
    store.DrawsAs pen (tool.text :: words) instruction := by
  rcases ht with rfl | rfl
  · rcases words with _ | ⟨word, _ | _⟩
    · cases hp
    · obtain ⟨color, hc, hp⟩ := bind_ok_iff.1 hp
      cases hp
      exact ⟨_, _, .color (Instruction.readColor_eq_ok_iff.1 hc), rfl⟩
    · cases hp
  · rcases words with _ | ⟨word, _ | _⟩
    · cases hp
    · obtain ⟨filling, hf, hp⟩ := bind_ok_iff.1 hp
      cases hp
      exact ⟨_, _, .fill (Instruction.readSwitch_eq_ok_iff.1 hf), rfl⟩
    · cases hp

/-- `WRITE` reads a number or a quoted text, or a size and a quoted text. -/
theorem drawsAs_of_text (pen : Pen) (hargs : store.Substitutes arguments words)
    (hp : Instruction.parse .write words = .ok instruction) :
    store.DrawsAs pen (Tool.write.text :: arguments) instruction := by
  rcases hargs with _ | ⟨ha, _ | ⟨hb, _ | _⟩⟩
  · cases hp
  · obtain ⟨content, hc, hp⟩ := bind_ok_iff.1 hp
    cases hp
    rcases Instruction.readContent_eq_ok_iff.1 hc with ⟨n, hn, rfl⟩ | rfl
    · exact ⟨_, _, .writeNumber (denotes_of_substituteToken ha hn), rfl⟩
    · obtain rfl := eq_of_substituteToken_quoted ha
      exact ⟨_, _, .write, rfl⟩
  · obtain ⟨size, hsize, hp⟩ := bind_ok_iff.1 hp
    obtain ⟨content, hc, hp⟩ := bind_ok_iff.1 hp
    cases hp
    obtain ⟨hsize, hpos⟩ := denotes_of_readSize ha hsize
    obtain rfl := Instruction.readQuoted_eq_ok_iff.1 hc
    obtain rfl := eq_of_substituteToken_quoted hb
    exact ⟨_, _, .writeSized hsize hpos, rfl⟩
  · cases hp

/-- What has been read from the arguments of a tool is drawn as `Draws` says. -/
theorem draws_of_parse (pen : Pen)
    (hs : store.substitute (.keyword (.draws tool)) (tool.text :: arguments) =
      .ok (tool.text :: words))
    (hp : Instruction.parse tool words = .ok instruction) :
    store.DrawsAs pen (tool.text :: arguments) instruction := by
  have hargs := substitutes_or_eq hs
  cases tool with
  | move => exact drawsAs_of_numbers pen (.inl rfl) hargs hp
  | draw => exact drawsAs_of_numbers pen (.inr rfl) hargs hp
  | circle => exact drawsAs_of_sizes pen (.inl rfl) hargs hp
  | rectangle => exact drawsAs_of_sizes pen (.inr (.inl rfl)) hargs hp
  | triangle => exact drawsAs_of_sizes pen (.inr (.inr rfl)) hargs hp
  | color =>
    obtain rfl : arguments = words := hargs
    exact drawsAs_of_word pen (.inl rfl) hp
  | fill =>
    obtain rfl : arguments = words := hargs
    exact drawsAs_of_word pen (.inr rfl) hp
  | clear =>
    have hall : store.Substitutes arguments words := hargs
    rcases hall with _ | _ <;> cases hp
    exact ⟨_, _, .clear, rfl⟩
  | reset =>
    have hall : store.Substitutes arguments words := hargs
    rcases hall with _ | _ <;> cases hp
    exact ⟨_, _, .reset, rfl⟩
  | write => exact drawsAs_of_text pen hargs hp

/-- `interpret` finds a tool only in a line that begins with the word for it. -/
theorem exists_words_of_interpret
    (hi : store.interpret tokens = .ok (.keyword (.draws tool), words)) :
    ∃ arguments values, tokens = tool.text :: arguments ∧ words = tool.text :: values ∧
      store.substitute (.keyword (.draws tool)) (tool.text :: arguments) =
        .ok (tool.text :: values) := by
  obtain ⟨hclass, hs⟩ := interpret_eq_ok_iff.1 hi
  obtain ⟨arguments, rfl⟩ := List.head?_eq_some_iff.1 (Command.head?_of_classify hclass)
  have hwords : ∃ values, words = tool.text :: values := by
    rw [substitute] at hs
    split at hs
    · obtain ⟨values, -, rfl⟩ := map_eq_ok_iff.1 hs
      exact ⟨values, rfl⟩
    · cases hs
      exact ⟨arguments, rfl⟩
  obtain ⟨values, rfl⟩ := hwords
  exact ⟨arguments, values, rfl, rfl, hs⟩

/-- `interpret` finds the tool in a line that begins with the word for it and is no assignment. -/
theorem Scoped.interpret_tool (h : store.Scoped) (tool : Tool) (arguments : List String)
    (hshape : Command.hasAssignmentShape (tool.text :: arguments) = false)
    (hs : store.substitute (.keyword (.draws tool)) (tool.text :: arguments) = .ok words) :
    store.interpret (tool.text :: arguments) = .ok (.keyword (.draws tool), words) := by
  have hcall : Command.hasCallShape (tool.text :: arguments) = false := by
    cases arguments with
    | nil => cases tool <;> decide
    | cons _ _ => rfl
  have hword : Command.ofWord tool.text = .ok (.keyword (.draws tool)) := by
    simp [Command.ofWord, show tool.text = (Keyword.draws tool).text from rfl]
  refine interpret_eq_ok_iff.2 ⟨h.named.classify_eq_keyword_iff.2 ?_, hs⟩
  simp [Command.ofTokens, Command.classify, hshape, hcall, hword]

/-- `Number.read` accepts an argument that `Denotes` a number. -/
theorem Scoped.exists_read (h : store.Scoped) {a : String} {n : Number}
    (hn : store.Denotes a n) :
    ∃ word, store.substituteToken a = .ok word ∧ Number.read word = .ok n := by
  obtain ⟨word, hword, hparse⟩ := h.exists_substituted hn
  exact ⟨word, hword, Number.read_eq_ok_iff.2 hparse⟩

/-- `readSize` accepts an argument that `Denotes` a positive number. -/
theorem Scoped.exists_readSize (h : store.Scoped) (measure : Measure) {a : String} {n : Number}
    (hn : store.Denotes a n) (hpos : 0 < n.toInt) :
    ∃ word, store.substituteToken a = .ok word ∧ Instruction.readSize measure word = .ok n := by
  obtain ⟨word, hword, hparse⟩ := h.exists_substituted hn
  exact ⟨word, hword, Instruction.readSize_eq_ok_iff.2 ⟨hparse, hpos⟩⟩

/-- `interpret` of a line with a tool and one argument. -/
theorem Scoped.interpret_one (h : store.Scoped) (tool : Tool) {a x : String}
    (hc : (Keyword.draws tool).substitutes = true) (ha : store.substituteToken a = .ok x) :
    store.interpret [tool.text, a] = .ok (.keyword (.draws tool), [tool.text, x]) := by
  refine h.interpret_tool tool [a] rfl ?_
  have hargs : [a].mapM store.substituteToken = .ok [x] := mapM_eq_ok_iff.2 (.cons ha .nil)
  simp [substitute, Command.substitutes, hc, hargs, Except.map]

/-- `interpret` of a line with a tool and two arguments, the first of them a number. -/
theorem Scoped.interpret_two (h : store.Scoped) (tool : Tool) {a b x y : String} {n : Number}
    (hc : (Keyword.draws tool).substitutes = true) (hn : store.Denotes a n)
    (ha : store.substituteToken a = .ok x) (hb : store.substituteToken b = .ok y) :
    store.interpret [tool.text, a, b] = .ok (.keyword (.draws tool), [tool.text, x, y]) := by
  -- what stands for a number is not the sign of an assignment
  have hequals : a ≠ "=" := by
    rintro rfl
    cases hn with
    | literal hp => cases hp
    | bound hl => exact (h.usable_of_lookup? hl).not_reserved '=' (by simp) (by decide)
  refine h.interpret_tool tool [a, b] (by simp [Command.hasAssignmentShape, hequals]) ?_
  have hargs : [a, b].mapM store.substituteToken = .ok [x, y] :=
    mapM_eq_ok_iff.2 (.cons ha (.cons hb .nil))
  simp [substitute, Command.substitutes, hc, hargs, Except.map]

/-- What `Draws` says of the tokens is what `interpret`, `parse` and `perform` make of them. -/
theorem Scoped.parses_of_draws (h : store.Scoped) (hd : store.Draws pen tokens mark pen') :
    ∃ tool values instruction,
      store.interpret tokens = .ok (.keyword (.draws tool), tool.text :: values) ∧
      Instruction.parse tool values = .ok instruction ∧
      Canvas.perform ⟨pen, #[]⟩ instruction = ⟨pen', mark.toArray⟩ := by
  -- one case for each form of line, with its tokens read in the order of the tool
  cases hd with
  | move hx hy =>
    obtain ⟨v, hv, hx'⟩ := h.exists_read hx
    obtain ⟨w, hw, hy'⟩ := h.exists_read hy
    exact ⟨.move, [v, w], .move _, h.interpret_two .move rfl hx hv hw,
      bind_ok_iff.2 ⟨_, hx', bind_ok_iff.2 ⟨_, hy', rfl⟩⟩, rfl⟩
  | draw hx hy =>
    obtain ⟨v, hv, hx'⟩ := h.exists_read hx
    obtain ⟨w, hw, hy'⟩ := h.exists_read hy
    exact ⟨.draw, [v, w], .draw _ (some _), h.interpret_two .draw rfl hx hv hw,
      bind_ok_iff.2 ⟨_, hy', bind_ok_iff.2 ⟨_, hx', rfl⟩⟩, rfl⟩
  | drawLevel hx =>
    obtain ⟨v, hv, hx'⟩ := h.exists_read hx
    exact ⟨.draw, [v], .draw _ none, h.interpret_one .draw rfl hv,
      bind_ok_iff.2 ⟨_, hx', rfl⟩, rfl⟩
  | circle hr hpos =>
    obtain ⟨v, hv, hr'⟩ := h.exists_readSize .radius hr hpos
    exact ⟨.circle, [v], .circle _, h.interpret_one .circle rfl hv,
      bind_ok_iff.2 ⟨_, hr', rfl⟩, rfl⟩
  | rectangle hwidth hh hwpos hhpos =>
    obtain ⟨v, hv, hwidth'⟩ := h.exists_readSize .width hwidth hwpos
    obtain ⟨w, hw, hh'⟩ := h.exists_readSize .height hh hhpos
    exact ⟨.rectangle, [v, w], .rectangle _ _, h.interpret_two .rectangle rfl hwidth hv hw,
      bind_ok_iff.2 ⟨_, hwidth', bind_ok_iff.2 ⟨_, hh', rfl⟩⟩, rfl⟩
  | triangle hb hh hbpos hhpos =>
    obtain ⟨v, hv, hb'⟩ := h.exists_readSize .base hb hbpos
    obtain ⟨w, hw, hh'⟩ := h.exists_readSize .height hh hhpos
    exact ⟨.triangle, [v, w], .triangle _ _, h.interpret_two .triangle rfl hb hv hw,
      bind_ok_iff.2 ⟨_, hb', bind_ok_iff.2 ⟨_, hh', rfl⟩⟩, perform_triangle pen _ hbpos⟩
  | @writeNumber a n hn =>
    obtain ⟨v, hv, hn'⟩ := h.exists_substituted hn
    have hread := Instruction.readContent_eq_ok_iff.2 (.inl ⟨n, hn', rfl⟩)
    exact ⟨.write, [v], .write _ _, h.interpret_one .write rfl hv,
      bind_ok_iff.2 ⟨_, hread, rfl⟩, rfl⟩
  | @write content =>
    have hread := Instruction.readContent_eq_ok_iff.2 (.inr (Eq.refl ("\"" ++ content ++ "\"")))
    exact ⟨.write, _, .write _ _, h.interpret_one .write rfl (substituteToken_quoted content),
      bind_ok_iff.2 ⟨_, hread, rfl⟩, rfl⟩
  | @writeSized a content size hs hpos =>
    obtain ⟨v, hv, hs'⟩ := h.exists_readSize .textSize hs hpos
    exact ⟨.write, _, .write _ _,
      h.interpret_two .write rfl hs hv (substituteToken_quoted content), bind_ok_iff.2 ⟨_, hs',
        bind_ok_iff.2 ⟨_, Instruction.readQuoted_eq_ok_iff.2 rfl, rfl⟩⟩, rfl⟩
  | clear =>
    exact ⟨.clear, [], .clear, h.interpret_tool .clear [] rfl rfl, rfl, rfl⟩
  | @color word color hc =>
    exact ⟨.color, [word], .color color, h.interpret_tool .color [word] rfl rfl,
      bind_ok_iff.2 ⟨_, Instruction.readColor_eq_ok_iff.2 hc, rfl⟩, rfl⟩
  | @fill word filling hf =>
    exact ⟨.fill, [word], .fill filling, h.interpret_tool .fill [word] rfl rfl,
      bind_ok_iff.2 ⟨_, Instruction.readSwitch_eq_ok_iff.2 hf, rfl⟩, rfl⟩
  | reset =>
    exact ⟨.reset, [], .reset, h.interpret_tool .reset [] rfl rfl, rfl, rfl⟩

end Store

namespace Engine

variable {line : Line} {cursor next : Address} {engine after : Engine}

/-- A line that succeeds `Draws`, or it leaves the canvas alone. -/
theorem draws_of_execute (he : execute line cursor engine = .ok next after) :
    after.canvas = engine.canvas ∨ engine.store.flow.suspended = false ∧
      ∃ mark, engine.store.Draws engine.canvas.pen line.tokens mark after.canvas.pen ∧
        after.canvas.picture = engine.canvas.picture ++ mark.toArray := by
  obtain ⟨step, hx, -, hcanvas⟩ := execute_eq_ok_iff.1 he
  rw [hcanvas]
  generalize after.store = store at hx
  cases hx with
  | blank _ => exact .inl rfl
  | skips _ _ _ => exact .inl rfl
  | performs hl hs hi hp =>
    cases hp with
    | draws hparse =>
      obtain ⟨arguments, values, htokens, rfl, hsubst⟩ := Store.exists_words_of_interpret hi
      obtain ⟨mark, pen', hd, hperform⟩ := Store.draws_of_parse engine.canvas.pen hsubst hparse
      rw [htokens, drawn, Canvas.perform_eq, hperform]
      exact .inr ⟨hs, mark, hd, rfl⟩
    | _ => exact .inl rfl

/-- `execute` that fails leaves the canvas alone. -/
theorem canvas_of_execute_error {stop : Stop}
    (he : execute line cursor engine = .error stop after) :
    after.canvas = engine.canvas := by
  obtain ⟨fault, -, -, hcanvas⟩ := execute_eq_error_iff.1 he
  exact hcanvas

/-- What a line `Draws` comes of it at every address. -/
theorem execute_of_draws (h : engine.store.Scoped) (hs : engine.store.flow.suspended = false)
    {mark : Option Primitive} {pen : Pen}
    (hd : engine.store.Draws engine.canvas.pen line.tokens mark pen) (cursor : Address) :
    execute line cursor engine =
      .ok cursor ⟨engine.store, ⟨pen, engine.canvas.picture ++ mark.toArray⟩⟩ := by
  obtain ⟨tool, values, instruction, hi, hp, hperform⟩ := h.parses_of_draws hd
  have hl : line.isEmpty = false := Line.isEmpty_of_classify (Store.interpret_eq_ok_iff.1 hi).1
  refine execute_eq_ok_iff.2 ⟨⟨cursor, some instruction⟩, .performs hl hs hi (.draws hp), rfl, ?_⟩
  rw [drawn, Canvas.perform_eq, hperform]

end Engine

/-! ## Sizes -/

/-- Figures and texts have positive sizes, and an ellipse is a circle that is at least two wide. -/
def Primitive.Sized : Primitive → Prop
  | .ellipse bounds _ _ => bounds.width = bounds.height ∧ 2 ≤ bounds.width.toInt
  | .rectangle bounds _ _ => 0 < bounds.width.toInt ∧ 0 < bounds.height.toInt
  | .text _ size _ _ => 0 < size.toInt
  | _ => True

/-- What a line `Draws` is `Sized`. -/
theorem Store.Draws.sized {store : Store} {pen pen' : Pen} {tokens : List String}
    {primitive : Primitive} (h : store.Draws pen tokens (some primitive) pen') :
    primitive.Sized := by
  cases h with
  | circle _ hpos =>
    refine ⟨rfl, ?_⟩
    rw [Number.toInt_clamp]
    simp only [Number.least, Number.greatest]
    omega
  | rectangle _ _ hw hh => exact ⟨hw, hh⟩
  | writeNumber _ => exact (by decide : 0 < (12 : Number).toInt)
  | write => exact (by decide : 0 < (12 : Number).toInt)
  | writeSized _ hpos => exact hpos
  | move _ _ => trivial
  | draw _ _ => trivial
  | drawLevel _ => trivial
  | triangle _ _ _ _ => trivial
  | clear => trivial

/-! ## Histories -/

/-- One step of the history of an engine. -/
inductive Event where
  /-- a line is executed -/
  | performs (line : Line)
  /-- a line inside a skipped block is passed over -/
  | skips (line : Line)
  /-- a line fails -/
  | fails (line : Line)
  /-- variables, methods and what is open are forgotten -/
  | starts
  /-- the engine is reset -/
  | resets
  /-- the picture is taken out -/
  | takesPicture
  /-- what was opened since some point is closed -/
  | unwinds

/-- Whether it decides where the pen is. -/
def Event.placesPen : Event → Bool
  | .performs line => line.tokens.head?.any ["MOVE", "DRAW", "RESET"].contains
  | .resets => true
  | _ => false

namespace Engine

/-- What an event makes of an engine. -/
inductive Happens (engine : Engine) : Event → Engine → Prop where
  | performs {line : Line} {cursor next : Address} {after : Engine}
      (hs : engine.store.flow.suspended = false)
      (he : execute line cursor engine = .ok next after) : Happens engine (.performs line) after
  | skips {line : Line} {cursor next : Address} {after : Engine}
      (hs : engine.store.flow.suspended = true)
      (he : execute line cursor engine = .ok next after) : Happens engine (.skips line) after
  | fails {line : Line} {cursor : Address} {stop : Stop} {after : Engine}
      (he : execute line cursor engine = .error stop after) : Happens engine (.fails line) after
  | starts : Happens engine .starts engine.start
  | resets : Happens engine .resets engine.reset
  | takesPicture : Happens engine .takesPicture engine.takePicture.2
  | unwinds (checkpoint : Checkpoint) : Happens engine .unwinds (engine.unwind checkpoint)

/-- The events of an engine since it was `initial`, each with the engine after it, the newest
first. -/
inductive History : List (Event × Engine) → Engine → Prop where
  | fresh : History [] .initial
  | next {past : List (Event × Engine)} {engine after : Engine} {event : Event}
      (h : History past engine) (hd : Happens engine event after) :
      History ((event, after) :: past) after

/-- Where the pen was left by the last event that placed it. -/
def left : List (Event × Engine) → Point
  | [] => ⟨0, 0⟩
  | (event, after) :: past => if event.placesPen then after.canvas.pen.position else left past

variable {engine after : Engine} {line : Line} {event : Event} {past : List (Event × Engine)}

/-- A stroke that a line `Draws` goes from where the pen was to where it is. -/
theorem stroke_of_draws {store : Store} {pen pen' : Pen} {tokens : List String}
    {source target : Point} {color : Color}
    (hd : store.Draws pen tokens (some (.line source target color)) pen') :
    tokens.head? = some "DRAW" ∧ source = pen.position ∧ target = pen'.position ∧
      color = pen.color := by
  cases hd with
  | draw _ _ => exact ⟨rfl, rfl, rfl, rfl⟩
  | drawLevel _ => exact ⟨rfl, rfl, rfl, rfl⟩

/-- A line that does not place the pen (`placesPen`) leaves it where it is. -/
theorem position_of_draws {store : Store} {pen pen' : Pen} {mark : Option Primitive}
    (hd : store.Draws pen line.tokens mark pen') (hp : (Event.performs line).placesPen = false) :
    pen'.position = pen.position := by
  generalize htokens : line.tokens = tokens at hd
  cases hd with
  | move _ _ => simp [Event.placesPen, htokens] at hp
  | draw _ _ => simp [Event.placesPen, htokens] at hp
  | drawLevel _ => simp [Event.placesPen, htokens] at hp
  | reset => simp [Event.placesPen, htokens] at hp
  | _ => rfl

namespace Happens

/-- An event that does not place the pen (`placesPen`) leaves it where it is. -/
theorem position_eq (h : Happens engine event after) (hp : event.placesPen = false) :
    after.canvas.pen.position = engine.canvas.pen.position := by
  cases h with
  | performs _ he =>
    rcases draws_of_execute he with hsame | ⟨-, mark, hd, -⟩
    · rw [hsame]
    · exact position_of_draws hd hp
  | skips hs he =>
    rcases draws_of_execute he with hsame | ⟨hfree, -⟩
    · rw [hsame]
    · rw [hs] at hfree
      cases hfree
  | fails he => rw [canvas_of_execute_error he]
  | starts => rfl
  | resets => cases hp
  | takesPicture => rfl
  | unwinds _ => rfl

/-- A primitive of the picture was there before the event `Happens`, or the event has put it behind
the others. -/
theorem mem_picture (h : Happens engine event after) {primitive : Primitive}
    (hmem : primitive ∈ after.canvas.picture) :
    primitive ∈ engine.canvas.picture ∨
      after.canvas.picture = engine.canvas.picture.push primitive ∧
        (primitive = .clear ∨ ∃ line, event = .performs line ∧
          engine.store.Draws engine.canvas.pen line.tokens (some primitive) after.canvas.pen) := by
  -- only a line that is executed and a reset put anything behind the picture
  cases h with
  | @performs line _ _ _ hs he =>
    rcases draws_of_execute he with hsame | ⟨-, mark, hd, hpicture⟩
    · exact .inl (hsame ▸ hmem)
    · cases mark with
      | none => exact .inl (by simpa [hpicture] using hmem)
      | some drawn =>
        rcases Array.mem_push.1 (by simpa [hpicture] using hmem) with hold | rfl
        · exact .inl hold
        · exact .inr ⟨by simpa using hpicture, .inr ⟨line, rfl, hd⟩⟩
  | skips hs he =>
    rcases draws_of_execute he with hsame | ⟨hfree, -⟩
    · exact .inl (hsame ▸ hmem)
    · rw [hs] at hfree
      cases hfree
  | fails he => exact .inl (canvas_of_execute_error he ▸ hmem)
  | starts => exact .inl hmem
  | resets =>
    rcases Array.mem_push.1 hmem with hold | rfl
    · exact .inl hold
    · exact .inr ⟨rfl, .inl rfl⟩
  | takesPicture => exact absurd hmem (by simp [takePicture])
  | unwinds _ => exact .inl hmem

end Happens

namespace History

/-- In every `History` the pen is where it was `left`. -/
theorem position_eq (h : History past engine) : engine.canvas.pen.position = left past := by
  induction h with
  | fresh => rfl
  | next _ hd ih =>
    unfold left
    split
    · rfl
    · next hp => rw [hd.position_eq (by simpa using hp), ih]

/-- In every `History`, a primitive of the picture was put there by a line, or it is the `clear` of
a reset. -/
theorem exists_of_mem_picture (h : History past engine) {primitive : Primitive}
    (hmem : primitive ∈ engine.canvas.picture) :
    primitive = .clear ∨ ∃ later line after earlier before,
      past = later ++ (.performs line, after) :: earlier ∧ History earlier before ∧
      before.store.Draws before.canvas.pen line.tokens (some primitive) after.canvas.pen ∧
      after.canvas.picture = before.canvas.picture.push primitive := by
  induction h with
  | fresh => simp [Engine.initial, Canvas.blank] at hmem
  | @next past engine after event h hd ih =>
    rcases hd.mem_picture hmem with hold | ⟨hpush, hclear | ⟨line, rfl, hdraws⟩⟩
    · rcases ih hold with hclear | ⟨later, line, last, earlier, before, rfl, hrest⟩
      · exact .inl hclear
      · exact .inr ⟨(event, after) :: later, line, last, earlier, before, rfl, hrest⟩
    · exact .inl hclear
    · exact .inr ⟨[], line, after, past, engine, rfl, h, hdraws, hpush⟩

/-- In every `History`, the primitives of the picture are `Sized`. -/
theorem sized (h : History past engine) : ∀ primitive ∈ engine.canvas.picture, primitive.Sized := by
  intro primitive hmem
  rcases h.exists_of_mem_picture hmem with rfl | ⟨_, _, _, _, _, -, -, hd, -⟩
  · trivial
  · exact hd.sized

/-- In every `History`, a stroke of the picture was drawn from where the pen had been `left`. -/
theorem exists_of_mem_stroke (h : History past engine) {source target : Point} {color : Color}
    (hmem : .line source target color ∈ engine.canvas.picture) :
    ∃ later line after earlier before, past = later ++ (.performs line, after) :: earlier ∧
      History earlier before ∧ line.tokens.head? = some "DRAW" ∧
      after.canvas.picture = before.canvas.picture.push (.line source target color) ∧
      source = left earlier ∧ target = after.canvas.pen.position ∧
      color = before.canvas.pen.color := by
  rcases h.exists_of_mem_picture hmem with
    hclear | ⟨later, line, after, earlier, before, hpast, hbefore, hd, hpush⟩
  · cases hclear
  · obtain ⟨hword, hsource, htarget, hcolor⟩ := stroke_of_draws hd
    exact ⟨later, line, after, earlier, before, hpast, hbefore, hword, hpush,
      hsource.trans hbefore.position_eq, htarget, hcolor⟩

/-- A `History` goes on with a line that succeeds. -/
theorem execute (h : History past engine) {cursor next : Address}
    (he : Engine.execute line cursor engine = .ok next after) : ∃ past, History past after := by
  cases hs : engine.store.flow.suspended with
  | false => exact ⟨_, h.next (.performs hs he)⟩
  | true => exact ⟨_, h.next (.skips hs he)⟩

/-- A `History` goes on with the lines of `Underway`. -/
theorem underway {program : Program} {depth n : Nat} {a b : Address} (h : History past engine)
    (hu : Underway program depth n a engine b after) : ∃ past, History past after := by
  induction hu generalizing past with
  | refl => exact ⟨past, h⟩
  | step _ _ he _ ih =>
    obtain ⟨_, hbetween⟩ := h.execute he
    exact ih hbetween

/-- A `History` goes on with `direct`: with the lines that it comes to, and at most one `unwind`
after them. -/
theorem direct {program : Program} {interrupt : Nat → Bool} {fuel : Nat}
    {outcome : Outcome (Option Address)} (h : History past engine)
    (hd : Engine.direct program interrupt fuel line engine = some outcome) :
    ∃ past, History past outcome.engine := by
  rcases direct_cases hd with ⟨next, first, he, hf⟩ | ⟨fault, after, he, rfl⟩
  · obtain ⟨_, hfirst⟩ := h.execute he
    obtain ⟨n, b, last, hu, hend⟩ := follow_ends hf
    obtain ⟨_, hlast⟩ := hfirst.underway hu
    rcases hend with ⟨-, rfl⟩ | ⟨-, hbreaks⟩
    · exact ⟨_, hlast⟩
    · cases hbreaks with
      | interrupted _ => exact ⟨_, hlast.next (.unwinds _)⟩
      | missing _ => exact ⟨_, hlast.next (.unwinds _)⟩
      | fails _ he => exact ⟨_, (hlast.next (.fails he)).next (.unwinds _)⟩
  · exact ⟨_, (h.next (.fails he)).next (.unwinds _)⟩

end History

/-- Every `Reachable` engine has a `History`. -/
theorem Reachable.exists_history {tolerated : Fault → Prop} (h : Reachable tolerated engine) :
    ∃ past, History past engine := by
  induction h with
  | initial => exact ⟨[], .fresh⟩
  | start _ ih =>
    obtain ⟨_, hpast⟩ := ih
    exact ⟨_, hpast.next .starts⟩
  | reset _ ih =>
    obtain ⟨_, hpast⟩ := ih
    exact ⟨_, hpast.next .resets⟩
  | takePicture _ ih =>
    obtain ⟨_, hpast⟩ := ih
    exact ⟨_, hpast.next .takesPicture⟩
  | execute _ he ih =>
    obtain ⟨_, hpast⟩ := ih
    exact hpast.execute he
  | refuse _ he _ ih =>
    obtain ⟨_, hpast⟩ := ih
    exact ⟨_, hpast.next (.fails he)⟩
  | direct _ hd ih =>
    obtain ⟨_, hpast⟩ := ih
    exact hpast.direct hd

/-- **What is drawn is exact.** In every `Reachable` engine, a line that succeeds draws what `Draws`
says and nothing else, or it leaves the canvas alone, and a line that fails leaves it alone too.
What `Draws` says of a line comes of it, unless the line is skipped. All primitives of the picture
are `Sized`. The engine has a `History`, and for each one the pen is where the last event that
placed it has `left` it, and each line of the picture was drawn by a `DRAW` from where the pen had
been left to its next position. -/
theorem geometry_exact (h : Reachable (fun _ => True) engine) :
    (∀ line cursor,
      (∀ next after, execute line cursor engine = .ok next after →
        after.canvas = engine.canvas ∨ engine.store.flow.suspended = false ∧
          ∃ mark, engine.store.Draws engine.canvas.pen line.tokens mark after.canvas.pen ∧
            after.canvas.picture = engine.canvas.picture ++ mark.toArray ∧
            ∀ primitive ∈ mark, primitive.Sized) ∧
      (∀ stop after, execute line cursor engine = .error stop after →
        after.canvas = engine.canvas) ∧
      (engine.store.flow.suspended = false → ∀ mark pen,
        engine.store.Draws engine.canvas.pen line.tokens mark pen →
          execute line cursor engine =
            .ok cursor ⟨engine.store, ⟨pen, engine.canvas.picture ++ mark.toArray⟩⟩)) ∧
    (∀ primitive ∈ engine.canvas.picture, primitive.Sized) ∧
    (∃ past, History past engine) ∧
    ∀ past, History past engine →
      engine.canvas.pen.position = left past ∧
      ∀ source target color, .line source target color ∈ engine.canvas.picture →
        ∃ later line after earlier before, past = later ++ (.performs line, after) :: earlier ∧
          History earlier before ∧ line.tokens.head? = some "DRAW" ∧
          after.canvas.picture = before.canvas.picture.push (.line source target color) ∧
          source = left earlier ∧ target = after.canvas.pen.position ∧
          color = before.canvas.pen.color := by
  obtain ⟨past, hpast⟩ := h.exists_history
  refine ⟨fun line cursor => ⟨?_, ?_, ?_⟩, hpast.sized, ⟨past, hpast⟩, ?_⟩
  · intro next after he
    rcases draws_of_execute he with hsame | ⟨hs, mark, hd, hpicture⟩
    · exact .inl hsame
    · refine .inr ⟨hs, mark, hd, hpicture, ?_⟩
      rintro primitive rfl
      exact hd.sized
  · intro stop after he
    exact canvas_of_execute_error he
  · intro hs mark pen hd
    exact execute_of_draws h.scoped hs hd cursor
  · intro past hpast
    exact ⟨hpast.position_eq, fun _ _ _ => hpast.exists_of_mem_stroke⟩

/-- Draws at the ends of the range, and again after the pen has been put back. -/
def corner : Program :=
  .parse ("MOVE 2147483647 -2147483648\nb = 7\nTRIANGLE b 5\nCIRCLE 2000000000\nDRAW 3\n" ++
    "RESET\nDRAW 1 2\n")

/-- What is drawn there: all three corners of the triangle fall together, and the circle is cut. -/
def cornerPicture : Array Primitive :=
  #[.move ⟨2147483647, -2147483648⟩,
    .polygon [⟨2147483647, -2147483648⟩, ⟨2147483647, -2147483648⟩, ⟨2147483647, -2147483648⟩]
      .black false,
    .ellipse ⟨⟨147483647, -2147483648⟩, 2147483647, 2147483647⟩ .black false,
    .line ⟨2147483647, -2147483648⟩ ⟨3, -2147483648⟩ .black,
    .line ⟨0, 0⟩ ⟨1, 2⟩ .black]

/-- The last stroke begins at the origin, where the pen was put back. A triangle over an odd base
that is a variable can follow it. -/
theorem geometry_exact_corner : ∃ engine : Engine, Reachable (fun _ => True) engine ∧
    engine.canvas.picture = cornerPicture ∧
    (∀ primitive ∈ engine.canvas.picture, primitive.Sized) ∧
    (∃ past later line after earlier, History past engine ∧ left past = ⟨1, 2⟩ ∧
      past = later ++ (.performs line, after) :: earlier ∧ line.tokens.head? = some "DRAW" ∧
      left earlier = ⟨0, 0⟩ ∧ after.canvas.pen.position = ⟨1, 2⟩) ∧
    ∃ after, execute (.ofText "TRIANGLE b 5") 9 engine = .ok 9 after ∧
      after.canvas.picture = engine.canvas.picture.push
        (.polygon [⟨1, 2⟩, ⟨8, 2⟩, ⟨4, -3⟩] .black false) := by
  have hrun : (run corner 40 .initial).map (fun outcome : Outcome Unit =>
      (outcome.engine.canvas, outcome.engine.store.flow.suspended,
        outcome.engine.store.vars.lookup? "b")) =
      some (⟨⟨⟨1, 2⟩, .black, false⟩, cornerPicture⟩, false, some 7) := by
    decide +kernel
  obtain ⟨outcome, houtcome, hend⟩ := Option.map_eq_some_iff.1 hrun
  simp only [Prod.mk.injEq] at hend
  obtain ⟨hcanvas, hfree, hb⟩ := hend
  have hreach : Reachable (fun _ => True) outcome.engine :=
    Reachable.run .initial houtcome fun _ _ => trivial
  obtain ⟨hlines, hsized, ⟨past, hpast⟩, hhistories⟩ := geometry_exact hreach
  obtain ⟨hposition, hstrokes⟩ := hhistories past hpast
  obtain ⟨later, line, after, earlier, before, hsplit, -, hword, -, hsource, htarget, -⟩ :=
    hstrokes ⟨0, 0⟩ ⟨1, 2⟩ .black (by simp [hcanvas, cornerPicture])
  have hfive : outcome.engine.store.Denotes "5" 5 := .literal (by decide +kernel)
  have hdraws : outcome.engine.store.Draws ⟨⟨1, 2⟩, .black, false⟩
      (Line.ofText "TRIANGLE b 5").tokens
      (some (.polygon [⟨1, 2⟩, ⟨8, 2⟩, ⟨4, -3⟩] .black false)) ⟨⟨1, 2⟩, .black, false⟩ := by
    rw [show (Line.ofText "TRIANGLE b 5").tokens = ["TRIANGLE", "b", "5"] by decide +kernel]
    exact .triangle (.bound hb) hfive (by decide) (by decide)
  refine ⟨outcome.engine, hreach, by rw [hcanvas], hsized, ⟨past, later, line, after, earlier,
    hpast, ?_, hsplit, hword, hsource.symm, htarget.symm⟩, _,
    (hlines _ 9).2.2 hfree _ _ (by rw [hcanvas]; exact hdraws), ?_⟩
  · rw [← hposition, hcanvas]
  · simp

end Engine

end Sketch
