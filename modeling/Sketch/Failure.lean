import Sketch.Program
import Sketch.Report

/-!
# Failures

A `Failure` is a fault together with the line at which it arose. Whatever executes or checks a line
raises its faults without a place (`Failure.ofFault`), since it knows the line but not where in a
program it stands; the loops that go through a program add the place. A line that is typed at the
prompt has no place in a program, so its failures keep none.
-/

namespace Sketch

/-- A line of a program with its number. -/
structure Place where
  number : Nat
  line : Line
  deriving DecidableEq

/-- The place of the line at an address. -/
def Place.of (a : Address) (line : Line) : Place :=
  ⟨a.number, line⟩

/-- A fault, and the line at which it arose once that is known. -/
structure Failure where
  fault : Fault
  place : Option Place
  deriving DecidableEq

namespace Failure

/-- The failure of a fault that is tied to no line. -/
def ofFault (fault : Fault) : Failure :=
  ⟨fault, none⟩

/-- The failure at the line of an address. A failure that already has a place keeps it. -/
def annotate (failure : Failure) (a : Address) (line : Line) : Failure :=
  match failure.place with
  | some _ => failure
  | none => { failure with place := some (.of a line) }

/-- A failure without a place gets that of the line. -/
@[simp] theorem annotate_ofFault (fault : Fault) (a : Address) (line : Line) :
    (ofFault fault).annotate a line = ⟨fault, some (.of a line)⟩ :=
  rfl

/-- The failure at a place, on the assertion that it has none yet; `none` if the assertion does not
hold. -/
def placed? (failure : Failure) (place : Place) : Option Failure :=
  match failure.place with
  | some _ => none
  | none => some { failure with place := some place }

/-- The assertion of `placed?` holds of a failure without a place. -/
@[simp] theorem placed?_ofFault (fault : Fault) (place : Place) :
    (ofFault fault).placed? place = some ⟨fault, some place⟩ :=
  rfl

/-- The report of a failure. -/
def report (failure : Failure) : Report :=
  match failure.place with
  | none => .ofFault failure.fault
  | some place => ((Report.ofFault failure.fault).atNumber place.number).inLine place.line.text

end Failure

end Sketch
