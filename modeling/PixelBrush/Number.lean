namespace PixelBrush

/-!
# Numbers

The numbers of the language are 32-bit signed integers.  Calculations are made
on exact integers, and a result is a number of the language only when it fits.
-/

/-- The numbers that programs read, write and compute with. -/
abbrev Number := Int32

namespace Number

/-- The exact integers that are numbers of the language. -/
def InRange (value : Int) : Prop :=
  -2147483648 ≤ value ∧ value ≤ 2147483647

instance (value : Int) : Decidable (InRange value) :=
  inferInstanceAs (Decidable (_ ∧ _))

/-- The number with an exact value, if there is one. -/
def ofInt? (value : Int) : Option Number :=
  if InRange value then
    some (Int32.ofInt value)
  else
    none

/-- The exact value of a number is in range. -/
theorem inRange_toInt (number : Number) : InRange number.toInt := by
  have lower := Int32.le_toInt number
  have upper := Int32.toInt_lt number
  simp only [InRange]
  omega

/-- A number is found exactly for its own exact value. -/
theorem ofInt?_eq_some_iff
    {value : Int}
    {number : Number} :
    ofInt? value = some number ↔ number.toInt = value := by
  unfold ofInt?
  split
  · rename_i inRange
    have exact : (Int32.ofInt value).toInt = value := by
      apply Int32.toInt_ofInt_of_le
      · simp only [InRange] at inRange
        omega
      · simp only [InRange] at inRange
        omega
    constructor
    · intro found
      cases found
      exact exact
    · intro same
      rw [← Int32.toInt_inj.mp (exact.trans same.symm)]
  · rename_i outOfRange
    constructor
    · intro found
      cases found
    · intro same
      exact absurd (same ▸ inRange_toInt number) outOfRange

/-- The exact value of a run of decimal digits. -/
def digitsValue (digits : List Char) : Nat :=
  digits.foldl (fun value digit => 10 * value + (digit.toNat - 48)) 0

/-- A nonempty run of decimal digits as an exact value. -/
def magnitude? (digits : List Char) : Option Nat :=
  if digits.isEmpty || !digits.all Char.isDigit then
    none
  else
    some (digitsValue digits)

/-- Reads a decimal literal: an optional sign, then digits, in range. -/
def read? : List Char → Option Number
  | '-' :: digits =>
      (magnitude? digits).bind fun value => ofInt? (-(value : Int))
  | '+' :: digits =>
      (magnitude? digits).bind fun value => ofInt? value
  | digits =>
      (magnitude? digits).bind fun value => ofInt? value

/-- A component of a direction: one step back, none or one step forward. -/
def isDirection (number : Number) : Bool :=
  -1 ≤ number.toInt && number.toInt ≤ 1

end Number

end PixelBrush
