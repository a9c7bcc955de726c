import Sketch.Text.Blank

/-!
# Lines

A line of a program is a text without line breaks at its end, cut into tokens. Tokens are
separated by blanks; between two double quotes a blank belongs to its token, so that a quoted text
is one token together with its quotes.
-/

namespace Sketch

namespace Line

/-- The token read so far, last character first, in front of the tokens that follow it. -/
def flush (token : List Char) (rest : List (List Char)) : List (List Char) :=
  if token = [] then rest else token.reverse :: rest

/-- The tokens of the characters that are still to be read. `token` is the part of the current
token that has been read, last character first, and `quoted` says whether it has an odd number of
quotes. -/
def scan : (quoted : Bool) → (token : List Char) → List Char → List (List Char)
  | _, token, [] => flush token []
  | quoted, token, c :: cs =>
    if Text.isBlank c && !quoted then flush token (scan false [] cs)
    else scan (quoted != (c == '"')) (c :: token) cs

/-- The tokens of a text. -/
def tokenize (s : String) : List String :=
  (scan false [] s.toList).map String.ofList

/-- Whether the character is a line break. -/
def isBreak (c : Char) : Bool :=
  c == '\n' || c == '\r'

/-- The text without the line breaks at its end. -/
def dropBreaks (s : String) : String :=
  String.ofList (Text.dropEndWhile isBreak s.toList)

/-- Dropping the line breaks at the end a second time changes nothing. -/
theorem dropBreaks_dropBreaks (s : String) : dropBreaks (dropBreaks s) = dropBreaks s := by
  simp [dropBreaks, Text.dropEndWhile_idem]

end Line

/-- A line: its text and the tokens of that text. -/
structure Line where
  text : String
  tokens : List String
  tokens_eq : tokens = Line.tokenize text
  dropBreaks_eq : Line.dropBreaks text = text
  deriving DecidableEq

namespace Line

/-- The line with this text, less the line breaks at its end. -/
def ofText (s : String) : Line where
  text := dropBreaks s
  tokens := tokenize (dropBreaks s)
  tokens_eq := rfl
  dropBreaks_eq := dropBreaks_dropBreaks s

/-- A line without tokens does nothing. -/
def isEmpty (line : Line) : Bool :=
  line.tokens.isEmpty

/-- The text of a line as it is shown in a report. -/
def shown (line : Line) : String :=
  Text.trim line.text

/-- A line is determined by its text. -/
@[ext] theorem ext_text {a b : Line} (h : a.text = b.text) : a = b := by
  cases a with
  | mk text tokens tokens_eq dropBreaks_eq =>
    cases b with
    | mk text' tokens' tokens_eq' dropBreaks_eq' =>
      cases h
      subst tokens_eq
      subst tokens_eq'
      rfl

@[simp] theorem text_ofText (s : String) : (ofText s).text = dropBreaks s := rfl

/-- Reading the text of a line gives the line back. -/
@[simp] theorem ofText_text (line : Line) : ofText line.text = line :=
  ext_text line.dropBreaks_eq

end Line

end Sketch
