import Sketch.Fault
import Sketch.Text.Blank

/-!
# Reports

What is shown of an error: its kind, the line it stands in, where that is known, and a detail.
-/

namespace Sketch

/-- An error as it is shown. A line or a detail that is not known is empty. -/
structure Report where
  kind : Kind
  lineNumber : Option Nat
  line : String
  detail : String
  deriving DecidableEq, Repr

namespace Report

/-- A report of a kind of errors and nothing else. -/
def ofKind (kind : Kind) : Report :=
  ⟨kind, none, "", ""⟩

/-- The report with a line number. -/
def atNumber (report : Report) (number : Nat) : Report :=
  { report with lineNumber := some number }

/-- The report with a line, whose text is shown without the blanks around it. -/
def inLine (report : Report) (text : String) : Report :=
  { report with line := Text.trim text }

/-- The report with a detail. -/
def withDetail (report : Report) (detail : String) : Report :=
  { report with detail }

/-- The report of a cause that is tied to no line. -/
def ofFault (fault : Fault) : Report :=
  (ofKind fault.kind).withDetail fault.detail

/-- The text after `lead`, or nothing if the text is empty. -/
def clause (lead text : String) : String :=
  if text = "" then "" else lead ++ text

/-- The line number as part of a report. -/
def numberClause : Option Nat → String
  | none => ""
  | some n => " IN " ++ toString n

/-- The text of a report: title, line number, line and detail, each only if there is one. -/
def render (report : Report) : String :=
  report.kind.title ++ numberClause report.lineNumber ++ clause ": " report.line ++
    clause "; " report.detail

end Report

end Sketch
