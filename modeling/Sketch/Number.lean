/-!
# Numbers

The numbers of the language are the integers of 32 bits with sign. Arithmetic never wraps: an
exact result outside the range is refused (`ofInt?`) or moved to the nearest end of the range
(`clamp`). `parse?` reads a decimal literal and `text` writes one.
-/

namespace Sketch

/-- A number of the language. -/
abbrev Number := Int32

namespace Number

/-- The least number. -/
def least : Int := -2147483648

/-- The greatest number. -/
def greatest : Int := 2147483647

/-- The number with this exact value, if it is in range. -/
def ofInt? (z : Int) : Option Number :=
  if least ≤ z ∧ z ≤ greatest then some (Int32.ofInt z) else none

/-- The number nearest to this value. -/
def clamp (z : Int) : Number :=
  Int32.ofInt (max least (min greatest z))

/-- The value of a run of one or more decimal digits. -/
def magnitude? (digits : List Char) : Option Nat :=
  if digits ≠ [] ∧ digits.all Char.isDigit then some (Nat.ofDigitChars 10 digits 0) else none

/-- The value of a decimal numeral: at most one sign, then digits only. -/
def readInt? : List Char → Option Int
  | '+' :: digits => (magnitude? digits).map Int.ofNat
  | '-' :: digits => (magnitude? digits).map fun n => -Int.ofNat n
  | digits => (magnitude? digits).map Int.ofNat

/-- The number that a decimal literal stands for, if it is one and in range. -/
def parse? (s : String) : Option Number :=
  (readInt? s.toList).bind ofInt?

/-- Whether the text is a decimal literal in range. -/
def isLiteral (s : String) : Bool :=
  (parse? s).isSome

/-- The decimal text of a number: a minus sign if it is negative, no leading zeros. -/
def text (n : Number) : String :=
  toString n.toInt

/-! ## Laws of the range -/

/-- An integer in the range is that of a number. -/
theorem toInt_ofInt {z : Int} (lo : least ≤ z) (hi : z ≤ greatest) : (Int32.ofInt z).toInt = z :=
  Int32.toInt_ofInt_of_le (by simpa [least] using lo) (by simp only [greatest] at hi; omega)

/-- A value is accepted exactly when it is in range, and then unchanged. -/
theorem ofInt?_eq_some_iff {z : Int} {n : Number} : ofInt? z = some n ↔ n.toInt = z := by
  have lo := Int32.le_toInt n
  have hi := Int32.toInt_lt n
  unfold ofInt?
  constructor
  · intro h
    split at h
    · next hz =>
      cases h
      exact toInt_ofInt hz.1 hz.2
    · cases h
  · intro h
    subst h
    rw [if_pos (by simp only [least, greatest]; omega), Int32.ofInt_toInt]

/-- The integer of a number is in the range. -/
theorem ofInt?_toInt (n : Number) : ofInt? n.toInt = some n :=
  ofInt?_eq_some_iff.2 rfl

/-- A value that is in range is its own nearest number. -/
theorem clamp_toInt (n : Number) : clamp n.toInt = n := by
  have lo := Int32.le_toInt n
  have hi := Int32.toInt_lt n
  rw [clamp, show max least (min greatest n.toInt) = n.toInt by simp only [least, greatest]; omega,
    Int32.ofInt_toInt]

/-- The nearest number has the value moved to the nearest end of the range. -/
theorem toInt_clamp (z : Int) : (clamp z).toInt = max least (min greatest z) := by
  unfold clamp
  apply toInt_ofInt <;> simp only [least, greatest] <;> omega

end Number

end Sketch
