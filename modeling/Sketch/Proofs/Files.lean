import Sketch.Proofs.Replay
import Sketch.Proofs.RunLoops

/-!
# Programs as texts and as files

A program is written with a line feed after each line and read back line by line. Main statement:
`Program.text_round_trip`, what is written is the program again when it is read, whether as a text
or through a file.

Where lines end is said twice. `Text.lines` cuts at line feeds and leaves it to the lines to drop
the returns at their ends; `Text.cutLines` is the usual rule, by which a line feed ends a line
together with one return before it. For a program this makes no difference
(`Program.parse_eq_ofLines`). The usual rule also reads a file, byte by byte and with each line
decoded by itself (`fileLines`), and it finds the lines of the text in the file (`fileLines_eq`),
since the bytes of line feed and return stand for nothing else (`Text.eq_of_mem_utf8EncodeChar`).
-/

namespace Sketch

/-! ## Where lines end -/

namespace Text

section CutLines

variable {α : Type} [DecidableEq α]

variable {lf cr : α} {line as rest : List α}

/-- `cutLines` takes what has no line feed to the present line. -/
theorem cutLines_append (h : lf ∉ as) :
    cutLines lf cr line (as ++ rest) = cutLines lf cr (as.reverse ++ line) rest := by
  induction as generalizing line with
  | nil => rfl
  | cons a as ih =>
    rw [List.mem_cons, not_or] at h
    rw [List.cons_append, cutLines, if_neg (Ne.symm h.1), ih h.2, List.reverse_cons,
      List.append_assoc]
    rfl

end CutLines

end Text

namespace Line

/-- `dropEndWhile` drops a break at the end. -/
theorem dropEndWhile_append_break {cs : List Char} {c : Char} (h : isBreak c = true) :
    Text.dropEndWhile isBreak (cs ++ [c]) = Text.dropEndWhile isBreak cs := by
  rw [Text.dropEndWhile_append_singleton, if_pos h]

/-- `dropReturn` before `dropEndWhile` changes nothing. -/
theorem dropEndWhile_dropReturn (line : List Char) :
    Text.dropEndWhile isBreak (Text.dropReturn '\r' line).reverse =
      Text.dropEndWhile isBreak line.reverse := by
  cases line with
  | nil => rfl
  | cons c line =>
    rw [Text.dropReturn]
    split
    · next hc =>
      rw [List.reverse_cons, dropEndWhile_append_break (by rw [hc]; decide)]
    · rfl

end Line

namespace Text

/-- `dropEmptyEnd` drops at most the last piece. -/
theorem dropEmptyEnd_cons {piece : List Char} {pieces : List (List Char)} (h : pieces ≠ []) :
    dropEmptyEnd (piece :: pieces) = piece :: dropEmptyEnd pieces := by
  obtain ⟨next, rest, rfl⟩ := List.exists_cons_of_ne_nil h
  unfold dropEmptyEnd
  rw [List.getLast?_cons_cons]
  split
  · rfl
  · rfl

/-- `cutLines` gives the same lines as cutting at line feeds, but for returns at their ends. -/
theorem map_dropEndWhile_cutLines (line cs : List Char) :
    (cutLines '\n' '\r' line cs).map (dropEndWhile Line.isBreak) =
      (dropEmptyEnd ((line.reverse ++ (splitHead '\n' cs).1) :: (splitHead '\n' cs).2)).map
        (dropEndWhile Line.isBreak) := by
  induction cs generalizing line with
  | nil =>
    have hempty : line.reverse ++ (splitHead '\n' []).1 = line.reverse := List.append_nil _
    rw [cutLines, hempty]
    by_cases hline : line = []
    · rw [if_pos hline, hline]
      rfl
    · rw [if_neg hline, dropEmptyEnd, if_neg (by simpa [splitHead] using hline)]
      rfl
  | cons c cs ih =>
    rw [cutLines]
    by_cases hc : c = '\n'
    · subst hc
      have hrest := ih []
      rw [List.reverse_nil, List.nil_append] at hrest
      rw [if_pos rfl, splitHead_cons_self, List.append_nil, List.map_cons,
        Line.dropEndWhile_dropReturn, hrest]
      exact congrArg (List.map _) (dropEmptyEnd_cons (List.cons_ne_nil _ _)).symm
    · rw [if_neg hc, ih, splitHead_cons_of_ne hc, List.reverse_cons, List.append_assoc,
        List.singleton_append]

end Text

namespace Program

variable {program : Program} {source : String}

/-- `parse` gives the lines of `cutText`. -/
theorem parse_eq_ofLines (source : String) : parse source = ofLines (Text.cutText source) := by
  have hofText : ∀ pieces : List (List Char),
      (pieces.map String.ofList).map Line.ofText =
        (pieces.map (Text.dropEndWhile Line.isBreak)).map fun cs => Line.ofText (.ofList cs) := by
    intro pieces
    rw [List.map_map, List.map_map]
    refine List.map_congr_left fun piece _ => Line.ext_text ?_
    simp [Line.dropBreaks, Text.dropEndWhile_idem]
  have hcut := Text.map_dropEndWhile_cutLines [] source.toList
  rw [List.reverse_nil, List.nil_append] at hcut
  rw [parse, ofLines, Text.lines, Text.cutText, hofText, hofText, hcut]
  rfl

end Program

/-! ## The bytes of a file -/

namespace Text

variable {c : Char} {b : UInt8} {cs line : List Char}

/-- The bytes of a text. -/
def encode (cs : List Char) : List UInt8 :=
  cs.flatMap String.utf8EncodeChar

/-- `encode` of a text begins with that of its first character. -/
theorem encode_cons (c : Char) (cs : List Char) :
    encode (c :: cs) = String.utf8EncodeChar c ++ encode cs :=
  List.flatMap_cons

/-- `encode` of two texts, one after the other. -/
theorem encode_append (cs ds : List Char) : encode (cs ++ ds) = encode cs ++ encode ds :=
  List.flatMap_append

/-- `utf8EncodeChar` of a character of ASCII is one byte. -/
theorem utf8EncodeChar_of_le (h : c.toNat ≤ 127) :
    String.utf8EncodeChar c = [UInt8.ofNat c.toNat] :=
  if_pos h

/-- The bytes of `utf8EncodeChar` of any other character are beyond ASCII. -/
theorem le_of_mem_utf8EncodeChar (hc : ¬ c.toNat ≤ 127) (h : b ∈ String.utf8EncodeChar c) :
    128 ≤ b.toNat := by
  have hbyte : ∀ {n : Nat}, 128 ≤ n → n < 256 → 128 ≤ (UInt8.ofNat n).toNat := by
    intro n hle hlt
    rwa [UInt8.toNat_ofNat', Nat.mod_eq_of_lt hlt]
  have hv : c.val.toNat = c.toNat := rfl
  rw [String.utf8EncodeChar, hv] at h
  simp only [hc, if_false] at h
  -- two, three or four bytes
  split at h
  · rw [List.mem_pair] at h
    rcases h with rfl | rfl
    · exact hbyte (by omega) (by omega)
    · exact hbyte (by omega) (by omega)
  · split at h
    · simp only [List.mem_cons, List.not_mem_nil, or_false] at h
      rcases h with rfl | rfl | rfl
      · exact hbyte (by omega) (by omega)
      · exact hbyte (by omega) (by omega)
      · exact hbyte (by omega) (by omega)
    · simp only [List.mem_cons, List.not_mem_nil, or_false] at h
      rcases h with rfl | rfl | rfl | rfl
      · exact hbyte (by omega) (by omega)
      · exact hbyte (by omega) (by omega)
      · exact hbyte (by omega) (by omega)
      · exact hbyte (by omega) (by omega)

/-- A byte of ASCII in `utf8EncodeChar` stands for its own character. -/
theorem eq_of_mem_utf8EncodeChar {d : Char} (hd : d.toNat ≤ 127)
    (h : UInt8.ofNat d.toNat ∈ String.utf8EncodeChar c) : c = d := by
  have hbyte : ∀ {n : Nat}, n ≤ 127 → (UInt8.ofNat n).toNat = n := by
    intro n hn
    rw [UInt8.toNat_ofNat', Nat.mod_eq_of_lt (by omega)]
  by_cases hc : c.toNat ≤ 127
  · rw [utf8EncodeChar_of_le hc, List.mem_singleton] at h
    have hsame := congrArg UInt8.toNat h
    rw [hbyte hd, hbyte hc] at hsame
    exact Char.toNat_inj.1 hsame.symm
  · have hle := le_of_mem_utf8EncodeChar hc h
    rw [hbyte hd] at hle
    omega

/-- Every character has a byte. -/
theorem utf8EncodeChar_ne_nil (c : Char) : String.utf8EncodeChar c ≠ [] := by
  intro hnil
  have hlength := String.length_utf8EncodeChar c
  rw [hnil] at hlength
  exact absurd hlength.symm (Nat.ne_of_gt c.utf8Size_pos)

/-- `dropReturn` commutes with `encode`. -/
theorem dropReturn_encode (line : List Char) :
    dropReturn 0x0d (encode line.reverse).reverse =
      (encode (dropReturn '\r' line).reverse).reverse := by
  cases line with
  | nil => rfl
  | cons c line =>
    have hbytes : (encode (c :: line).reverse).reverse =
        (String.utf8EncodeChar c).reverse ++ (encode line.reverse).reverse := by
      rw [List.reverse_cons, encode_append, List.reverse_append, encode_cons]
      simp [encode]
    by_cases hc : c = '\r'
    · rw [hbytes, dropReturn, if_pos hc, hc]
      rfl
    · obtain ⟨b, bs, hb⟩ := List.exists_cons_of_ne_nil
        (mt List.reverse_eq_nil_iff.1 (utf8EncodeChar_ne_nil c))
      have hmem : b ∈ String.utf8EncodeChar c := by
        rw [← List.mem_reverse, hb]
        exact List.mem_cons_self
      have hne : b ≠ 0x0d := by
        rintro rfl
        exact hc (eq_of_mem_utf8EncodeChar (d := '\r') (by decide) hmem)
      rw [dropReturn, if_neg hc, hbytes, hb]
      exact if_neg hne

/-- `cutLines` commutes with `encode`: the lines of the bytes are the bytes of the lines. -/
theorem cutLines_encode (line cs : List Char) :
    cutLines 0x0a 0x0d (encode line.reverse).reverse (encode cs) =
      (cutLines '\n' '\r' line cs).map encode := by
  induction cs generalizing line with
  | nil =>
    cases line with
    | nil => rfl
    | cons c line =>
      have hne : ¬ (encode (c :: line).reverse).reverse = [] := by
        rw [List.reverse_cons, encode_append, encode_cons]
        simp
      have hnone : encode [] = [] := rfl
      rw [hnone, cutLines, if_neg hne, List.reverse_reverse]
      rfl
  | cons c cs ih =>
    by_cases hc : c = '\n'
    · subst hc
      have hbytes : encode ('\n' :: cs) = 0x0a :: encode cs := encode_cons '\n' cs
      rw [hbytes, cutLines, if_pos rfl, cutLines, if_pos rfl, List.map_cons, dropReturn_encode,
        List.reverse_reverse]
      exact congrArg _ (ih [])
    · have hfeed : (0x0a : UInt8) ∉ String.utf8EncodeChar c := fun hmem =>
        hc (eq_of_mem_utf8EncodeChar (d := '\n') (by decide) hmem)
      have hline : (String.utf8EncodeChar c).reverse ++ (encode line.reverse).reverse =
          (encode (c :: line).reverse).reverse := by
        rw [List.reverse_cons, encode_append, List.reverse_append, encode_cons]
        simp [encode]
      rw [encode_cons, cutLines_append hfeed, hline, ih, cutLines, if_neg hc]

/-- If each piece of `cutLines` is the `encode` of a text, so is the whole. -/
theorem exists_encode_of_cutLines {bytes rest : List UInt8}
    (h : ∀ piece ∈ cutLines 0x0a 0x0d bytes rest, ∃ cs, piece = encode cs) :
    ∃ cs, bytes.reverse ++ rest = encode cs := by
  induction rest generalizing bytes with
  | nil =>
    rw [List.append_nil]
    by_cases hbytes : bytes = []
    · exact ⟨[], by rw [hbytes]; rfl⟩
    · exact h _ (by rw [cutLines, if_neg hbytes]; exact List.mem_singleton_self _)
  | cons b rest ih =>
    rw [cutLines] at h
    by_cases hb : b = 0x0a
    · subst hb
      rw [if_pos rfl, List.forall_mem_cons] at h
      obtain ⟨⟨cs, hcs⟩, hrest⟩ := h
      obtain ⟨ds, hds⟩ := ih hrest
      rw [List.reverse_nil, List.nil_append] at hds
      -- the return that was dropped, if there was one, and the line feed
      obtain ⟨dropped, hdropped⟩ : ∃ dropped, bytes.reverse = encode (cs ++ dropped) := by
        cases bytes with
        | nil => exact ⟨[], by rw [List.append_nil, ← hcs]; rfl⟩
        | cons b bytes =>
          rw [dropReturn] at hcs
          split at hcs
          · next hreturn =>
            refine ⟨['\r'], ?_⟩
            rw [List.reverse_cons, hcs, hreturn, encode_append]
            rfl
          · exact ⟨[], by rw [List.append_nil, hcs]⟩
      refine ⟨cs ++ dropped ++ '\n' :: ds, ?_⟩
      rw [encode_append, encode_cons, ← hdropped, ← hds]
      rfl
    · rw [if_neg hb] at h
      obtain ⟨cs, hcs⟩ := ih h
      exact ⟨cs, by rw [← hcs, List.reverse_cons, List.append_assoc, List.singleton_append]⟩

end Text

/-! ## Files of lines -/

/-- `fileText` inverts the encoding of texts. -/
theorem fileText_eq_ok_iff {content : ByteArray} {s : String} :
    fileText content = .ok s ↔ content = s.toUTF8 := by
  unfold fileText String.fromUTF8?
  by_cases hvalid : content.IsValidUTF8
  · rw [dif_pos hvalid]
    constructor
    · intro h
      cases h
      rfl
    · intro h
      exact congrArg Except.ok (String.toByteArray_inj.1 h)
  · rw [dif_neg hvalid]
    refine ⟨fun h => (by cases h), fun h => absurd ?_ hvalid⟩
    rw [h]
    exact s.isValidUTF8

/-- `String.toUTF8` gives the bytes of `Text.encode`. -/
theorem toList_toUTF8 (s : String) : s.toUTF8.data.toList = Text.encode s.toList := by
  have hbytes : s.toUTF8 = (Text.encode s.toList).toByteArray := String.utf8Encode_toList.symm
  rw [hbytes, List.toList_data_toByteArray]

/-- `fileText` decodes what `encode` gives. -/
theorem fileText_encode (cs : List Char) :
    fileText (Text.encode cs).toByteArray = .ok (String.ofList cs) :=
  fileText_eq_ok_iff.2 String.toByteArray_ofList.symm

/-- Pieces that `fileText` decodes are the `encode` of texts. -/
theorem exists_encode_of_fileText {pieces : List (List UInt8)} {lines : List String}
    (h : List.Forall₂ (fun bytes s => fileText bytes.toByteArray = .ok s) pieces lines) :
    ∀ piece ∈ pieces, ∃ cs, piece = Text.encode cs := by
  induction h with
  | nil => simp
  | @cons bytes s _ _ hs _ ih =>
    refine List.forall_mem_cons.2 ⟨⟨s.toList, ?_⟩, ih⟩
    rw [← toList_toUTF8, ← fileText_eq_ok_iff.1 hs, List.toList_data_toByteArray]

/-- `fileLines` gives the lines (`cutText`) of the text that `fileText` decodes, and fails where
that fails. -/
theorem fileLines_eq (content : ByteArray) :
    fileLines content = (fileText content).map Text.cutText := by
  cases ht : fileText content with
  | ok s =>
    rw [fileText_eq_ok_iff] at ht
    subst ht
    have hcut := Text.cutLines_encode [] s.toList
    rw [fileLines, toList_toUTF8]
    refine mapM_eq_ok_iff.2 ?_
    have hempty : (Text.encode ([] : List Char).reverse).reverse = [] := rfl
    rw [hempty] at hcut
    rw [hcut, Text.cutText, List.forall₂_map_left_iff, List.forall₂_map_right_iff]
    exact List.forall₂_same.2 fun cs _ => fileText_encode cs
  | error fault =>
    have hfault : ∀ {bytes : ByteArray} {other : FileFault}, fileText bytes = .error other →
        other = .notText := by
      intro bytes other h
      unfold fileText at h
      split at h
      · cases h
      · cases h
        rfl
    cases hl : fileLines content with
    | error other =>
      obtain ⟨bytes, -, hbytes⟩ := exists_of_mapM_eq_error hl
      rw [hfault ht, hfault hbytes]
      rfl
    | ok lines =>
      -- all lines are texts, so the file would be one
      obtain ⟨cs, hcs⟩ :=
        Text.exists_encode_of_cutLines (exists_encode_of_fileText (mapM_eq_ok_iff.1 hl))
      have hcontent : content = (Text.encode cs).toByteArray := by
        rw [← hcs]
        exact ByteArray.ext (List.data_toByteArray).symm
      rw [hcontent, fileText_encode] at ht
      cases ht

namespace Program

variable {program : Program} {source : String}

/-- `load` gives the lines of `fileLines`, whatever is in the file. -/
theorem load_eq_ofLines (content : ByteArray) :
    load (.ok content) = ((fileLines content).map ofLines).mapError FileFault.reading := by
  rw [fileLines_eq]
  have hbind : (Except.ok content).bind fileText = fileText content := rfl
  rw [load, hbind]
  cases fileText content with
  | ok s => exact congrArg Except.ok (parse_eq_ofLines s)
  | error fault => rfl

/-- `load` of the bytes of a text is `parse` of the text. -/
theorem load_toUTF8 (source : String) : load (.ok source.toUTF8) = .ok (parse source) := by
  have hbind : (Except.ok source.toUTF8).bind fileText = fileText source.toUTF8 := rfl
  rw [load, hbind, fileText_eq_ok_iff.2 rfl]

/-! ## Written and read again -/

/-- The program with further lines at its end. -/
def pushAll (program : Program) (texts : List String) : Program :=
  texts.foldl (fun program s => program.push (.ofText s)) program

/-- There is no line feed inside a line. -/
def IsCut (program : Program) : Prop :=
  ∀ line ∈ program.lines.toList, '\n' ∉ line.text.toList

/-- `parse` reads the `text` of a program back if no line has a line feed inside. -/
theorem IsCut.parse_text (h : program.IsCut) : parse program.text = program := by
  have hprinted : program.text = Session.printed (program.lines.toList.map (·.text)) := by
    rw [text, Session.printed, List.map_map]
    rfl
  have hlines : Text.lines program.text = program.lines.toList.map (·.text) := by
    rw [hprinted]
    exact Session.lines_printed (List.forall_mem_map.2 h)
  have hsame : (program.lines.toList.map (·.text)).map Line.ofText = program.lines.toList := by
    rw [List.map_map]
    exact (List.map_congr_left fun line _ => line.ofText_text).trans (List.map_id _)
  rw [parse, hlines, hsame]

/-- `parse` gives lines that have no line feed inside. -/
theorem isCut_parse (source : String) : (parse source).IsCut := by
  intro line hline
  obtain ⟨s, hs, rfl⟩ := List.mem_map.1 hline
  obtain ⟨piece, hpiece, rfl⟩ := List.mem_map.1 hs
  have hmem : piece ∈ Text.splitChars '\n' source.toList := by
    unfold Text.dropEmptyEnd at hpiece
    split at hpiece
    · exact List.dropLast_subset _ hpiece
    · exact hpiece
  obtain ⟨dropped, hsplit, -⟩ := Text.dropEndWhile_isPrefix Line.isBreak piece
  intro hfeed
  refine Text.not_mem_of_mem_splitChars hmem ?_
  rw [Line.text_ofText, Line.dropBreaks, String.toList_ofList, String.toList_ofList] at hfeed
  rw [hsplit]
  exact List.mem_append_left dropped hfeed

/-- `IsCut` is kept when a line without a line feed is pushed. -/
theorem IsCut.push (h : program.IsCut) {line : Line} (hl : '\n' ∉ line.text.toList) :
    (program.push line).IsCut := by
  intro other hother
  rw [Program.push, Array.toList_push, List.mem_append, List.mem_singleton] at hother
  rcases hother with hother | rfl
  · exact h other hother
  · exact hl

/-- `IsCut` is kept when lines without line feeds are pushed. -/
theorem IsCut.pushAll {texts : List String} (h : program.IsCut)
    (ht : ∀ s ∈ texts, '\n' ∉ (Line.dropBreaks s).toList) : (program.pushAll texts).IsCut := by
  induction texts generalizing program with
  | nil => exact h
  | cons s texts ih =>
    rw [List.forall_mem_cons] at ht
    exact ih (h.push ht.1) ht.2

end Program

/-! ## Programs at the prompt -/

/-- A file is written where `Disk.target` finds a place. -/
theorem Disk.write_of_target {disk : Disk} {name : String} {path : Path} {content : ByteArray}
    (h : disk.target name = .ok path) :
    disk.write name content = (.ok (), disk.put path (.file content)) := by
  rw [write, h]

namespace Session

variable {session after : Session} {bold : String → String} {interrupt : Nat → Bool} {fuel : Nat}
  {input name : String} {reply : Reply} {σ : Type} {files : FileSystem σ} {state : σ}

/-- The sessions that a new one can become by answering inputs, whatever the files are meanwhile. -/
inductive Reachable : Session → Prop where
  | initial : Reachable .initial
  | answer {session after : Session} {bold : String → String} {interrupt : Nat → Bool} {fuel : Nat}
      {input shown : String} {σ : Type} {files : FileSystem σ} {state rest : σ}
      (h : Reachable session)
      (ha : (session.answer bold interrupt fuel input).run files state =
        (some (after, shown), rest)) :
      Reachable after

/-- `conclude` keeps the program. -/
theorem program_conclude (session : Session) (outcome : Outcome (Option Address)) :
    (session.conclude outcome).1.program = session.program := by
  rcases outcome with ⟨a, engine⟩ | ⟨failure, engine⟩
  · cases a <;> rfl
  · rfl

/-- `saved` keeps the program. -/
theorem program_saved (session : Session) (written : Except FileFault Unit) :
    (session.saved written).1.program = session.program := by
  cases written <;> rfl

/-- `loaded` keeps the program, or puts one in its place that was read from a text. -/
theorem program_loaded (session : Session) (content : Except FileFault ByteArray) :
    (session.loaded content).1.program = session.program ∨
      ∃ source, (session.loaded content).1.program = .parse source := by
  rw [loaded, Program.load]
  cases content.bind fileText with
  | ok source => exact .inr ⟨source, rfl⟩
  | error fault => exact .inl rfl

/-- `perform` keeps the program, or puts one in its place that was read from a text. -/
theorem program_of_perform {directive : Directive}
    (h : ((session.perform interrupt fuel directive).run files state).1 = some (after, reply)) :
    after.program = session.program ∨ ∃ source, after.program = .parse source := by
  cases directive with
  | load name =>
    have hloaded : session.loaded (files.read state name) = (after, reply) := Option.some.inj h
    have hprogram := program_loaded session (files.read state name)
    rwa [hloaded] at hprogram
  | save name =>
    rw [perform] at h
    split at h
    · cases h
      exact .inl rfl
    · have hsaved : session.saved (files.write state name session.program.text.toUTF8).1 =
          (after, reply) := Option.some.inj h
      refine .inl ?_
      rw [← program_saved session, hsaved]
  | new =>
    cases h
    exact .inr ⟨"", rfl⟩
  | check =>
    rw [perform] at h
    split at h
    · cases h
      exact .inl rfl
    · cases h
      exact .inl rfl
  | run =>
    have hrun : session.run interrupt fuel = some (after, reply) := h
    obtain ⟨outcome, -, hend⟩ := Option.map_eq_some_iff.1 hrun
    refine .inl ?_
    rw [← program_conclude session outcome, hend]
  | direct line =>
    have hdirect : session.direct interrupt fuel line = some (after, reply) := h
    rw [Session.direct] at hdirect
    split at hdirect
    · cases hdirect
      exact .inl rfl
    · obtain ⟨outcome, -, hend⟩ := Option.map_eq_some_iff.1 hdirect
      refine .inl ?_
      rw [← program_conclude session outcome, hend]
  | list => cases h; exact .inl rfl
  | status => cases h; exact .inl rfl
  | vars => cases h; exact .inl rfl

/-- The program of every `Reachable` session was read from a text. -/
theorem Reachable.exists_parse (h : Reachable session) :
    ∃ source, session.program = .parse source := by
  induction h with
  | initial => exact ⟨"", rfl⟩
  | answer _ ha ih =>
    rw [Session.answer] at ha
    split at ha
    · cases ha
      exact ih
    · rw [Exchange.run_map, Prod.mk.injEq] at ha
      obtain ⟨⟨between, reply⟩, hp, hpresent⟩ := Option.map_eq_some_iff.1 ha.1
      cases hpresent
      rcases program_of_perform hp with hsame | hread
      · obtain ⟨source, hsource⟩ := ih
        exact ⟨source, hsame.trans hsource⟩
      · exact hread

/-- `answer` to an input that saves the program, if the file can be written. -/
theorem answer_save {written : σ} (hi : Directive.ofInput input = .save name)
    (hne : session.program.size ≠ 0)
    (hw : files.write state name session.program.text.toUTF8 = (.ok (), written)) :
    (session.answer bold interrupt fuel input).run files state =
      (some (session.present bold (.ok [])), written) := by
  have hblank := Directive.trim_ne_of_ofInput hi (by simp)
  rw [answer, if_neg hblank, hi, perform, if_neg hne, Exchange.run_map, Exchange.run, hw]
  rfl

/-- The program of every `Reachable` session is `parse` of its own text. -/
theorem Reachable.parse_text (h : Reachable session) :
    .parse session.program.text = session.program := by
  obtain ⟨source, hsource⟩ := h.exists_parse
  rw [hsource]
  exact (Program.isCut_parse source).parse_text

/-- `answer` to an input that loads a program that was saved, where the files are in `ReadsBack`. -/
theorem answer_load_saved (h : Reachable session) (hf : files.ReadsBack) {written : σ}
    (hi : Directive.ofInput input = .load name)
    (hw : files.write state name session.program.text.toUTF8 = (.ok (), written))
    (other : Session) :
    (other.answer bold interrupt fuel input).run files written =
      (some (present { other with program := session.program } bold (.ok [])), written) := by
  refine answer_load hi ?_
  rw [hf hw, Program.load_toUTF8, h.parse_text]

end Session

namespace Program

/-- **Programs survive being written and read.** Take `parse` of any text, with any further lines
pushed that have no line feed inside: `parse` of its `text` is this program. `parse` gives the lines
of `cutText`, and `load` those of `fileLines`, which on the bytes of a text is `parse`. At the
prompt, for every `FileSystem` that `ReadsBack` and every session that is `Reachable`, a program
that is saved to a file that can be written is what loading that file gives in any session. On a
`Disk` this holds for every name that has a `target`. -/
theorem text_round_trip :
    (∀ (source : String) (texts : List String), (∀ s ∈ texts, '\n' ∉ (Line.dropBreaks s).toList) →
      parse ((parse source).pushAll texts).text = (parse source).pushAll texts) ∧
    (∀ source, parse source = ofLines (Text.cutText source)) ∧
    (∀ content, load (.ok content) =
      ((fileLines content).map ofLines).mapError FileFault.reading) ∧
    (∀ source : String, load (.ok source.toUTF8) = .ok (parse source)) ∧
    ∀ session, Session.Reachable session → session.program.size ≠ 0 →
      ∀ name saving loading, Directive.ofInput saving = .save name →
        Directive.ofInput loading = .load name →
        ∀ (bold : String → String) (interrupt : Nat → Bool) (fuel : Nat),
          (∀ {σ : Type} (files : FileSystem σ), files.ReadsBack → ∀ state written,
            files.write state name session.program.text.toUTF8 = (.ok (), written) →
            (session.answer bold interrupt fuel saving).run files state =
                (some (session.present bold (.ok [])), written) ∧
              ∀ other : Session, (other.answer bold interrupt fuel loading).run files written =
                (some (Session.present { other with program := session.program } bold (.ok [])),
                  written)) ∧
          ∀ disk path, Disk.target disk name = .ok path →
            ∃ written, (session.answer bold interrupt fuel saving).run Disk.files disk =
                (some (session.present bold (.ok [])), written) ∧
              ∀ other : Session, (other.answer bold interrupt fuel loading).run Disk.files written =
                (some (Session.present { other with program := session.program } bold (.ok [])),
                  written) := by
  refine ⟨fun source texts ht => ((isCut_parse source).pushAll ht).parse_text, parse_eq_ofLines,
    load_eq_ofLines, load_toUTF8, ?_⟩
  intro session hreach hne name saving loading hsave hload bold interrupt fuel
  refine ⟨fun files hback state written hw => ?_, fun disk path ht => ?_⟩
  · exact ⟨Session.answer_save hsave hne hw, Session.answer_load_saved hreach hback hload hw⟩
  · have hw : Disk.files.write disk name session.program.text.toUTF8 = (.ok (), _) :=
      Disk.write_of_target ht
    exact ⟨_, Session.answer_save hsave hne hw,
      Session.answer_load_saved hreach Disk.files_readsBack hload hw⟩

/-- A text with line feeds, returns before them, returns alone and a blank line. -/
def mixed : String := "MOVE 1 2\r\n\r\r\n\rCIRCLE\r5\n\n  WRITE \"ß\"\r"

/-- A disk with that text in a file. -/
def mixedDisk : Disk :=
  ⟨[(["p"], .file mixed.toUTF8)], []⟩

/-- One file for all names. -/
def oneFile : FileSystem ByteArray :=
  ⟨fun content _ => .ok content, fun _ _ content => (.ok (), content)⟩

/-- The text with a line pushed, and the file with that text, loaded, saved under another name and
loaded again by a new session, on a disk and where all names are those of one file. -/
theorem text_round_trip_mixed :
    parse ((parse mixed).pushAll ["\rRESET\n\r\n"]).text =
      (parse mixed).pushAll ["\rRESET\n\r\n"] ∧
    ∃ session, Session.Reachable session ∧ session.program = parse mixed ∧
      session.program.size = 5 ∧
      (∃ written, (session.answer id (fun _ => false) 0 " SAVE \"q\"").run Disk.files mixedDisk =
          (some (session.present id (.ok [])), written) ∧
        (Session.initial.answer id (fun _ => false) 0 "LOAD q").run Disk.files written =
          (some (Session.present ⟨.initial, parse mixed⟩ id (.ok [])), written)) ∧
      oneFile.ReadsBack ∧
      ∃ written, (session.answer id (fun _ => false) 0 " SAVE \"q\"").run oneFile ByteArray.empty =
          (some (session.present id (.ok [])), written) ∧
        (Session.initial.answer id (fun _ => false) 0 "LOAD q").run oneFile written =
          (some (Session.present ⟨.initial, parse mixed⟩ id (.ok [])), written) := by
  obtain ⟨hpush, -, -, -, hsaved⟩ := text_round_trip
  have hread : load (mixedDisk.read "p") = .ok (parse mixed) := load_toUTF8 mixed
  have hloads : Directive.ofInput "LOAD p" = .load "p" := by decide +kernel
  have hloaded : (Session.initial.answer id (fun _ => false) 0 "LOAD p").run Disk.files mixedDisk =
      (some (⟨.initial, parse mixed⟩, ""), mixedDisk) := Session.answer_load hloads hread
  have hreach : Session.Reachable ⟨.initial, parse mixed⟩ := .answer .initial hloaded
  have hsize : (parse mixed).size = 5 := by decide +kernel
  have hne : (parse mixed).size ≠ 0 := by rw [hsize]; decide
  have hback : oneFile.ReadsBack := by
    intro state after name content hw
    cases hw
    rfl
  obtain ⟨hfiles, hdisk⟩ := hsaved ⟨.initial, parse mixed⟩ hreach hne "q" " SAVE \"q\"" "LOAD q"
    (by decide +kernel) (by decide +kernel) id (fun _ => false) 0
  obtain ⟨written, hsave, hload⟩ := hdisk mixedDisk ["q"] rfl
  obtain ⟨hsaveOne, hloadOne⟩ := hfiles oneFile hback ByteArray.empty _ rfl
  exact ⟨hpush mixed _ (by decide +kernel), ⟨.initial, parse mixed⟩, hreach, rfl, hsize,
    ⟨written, hsave, hload .initial⟩, hback, _, hsaveOne, hloadOne .initial⟩

end Program

end Sketch
