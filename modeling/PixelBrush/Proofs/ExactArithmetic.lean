import Mathlib.Algebra.Ring.Int.Parity
import PixelBrush.Proofs.Instructions

namespace PixelBrush

/-!
# Arithmetic is exact

An arithmetic operation on two numbers gives the number that the operation on
integers gives, or fails.  What the operation on integers gives is said without
the machine: sums, differences, products and powers are those of the integers,
and a quotient with its remainder is described by the division it solves.  Only
results out of range overflow, and only division by zero has no result at all.
-/

/--
A division whose quotient is rounded towards zero: the remainder is smaller than
the divisor and lies on the same side of zero as the dividend.
-/
structure Truncated (dividend divisor quotient remainder : Int) : Prop where
  exact : remainder + divisor * quotient = dividend
  small : remainder.natAbs < divisor.natAbs
  side : 0 ≤ dividend ∧ 0 ≤ remainder ∨ dividend ≤ 0 ∧ remainder ≤ 0

/-- A division by anything but zero has one quotient and one remainder. -/
theorem truncated_iff
    {dividend divisor quotient remainder : Int}
    (nonzero : divisor ≠ 0) :
    Truncated dividend divisor quotient remainder ↔
      dividend.tdiv divisor = quotient ∧ dividend.tmod divisor = remainder := by
  constructor
  · rintro ⟨exact, small, ⟨positive, above⟩ | ⟨negative, below⟩⟩
    · exact (Int.tdiv_tmod_unique positive nonzero).mpr ⟨exact, above, by omega⟩
    · exact (Int.tdiv_tmod_unique' negative nonzero).mpr
        ⟨exact, by omega, below⟩
  · intro solved
    rcases Int.le_total 0 dividend with positive | negative
    · obtain ⟨exact, above, small⟩ :=
        (Int.tdiv_tmod_unique positive nonzero).mp solved
      exact ⟨exact, by omega, .inl ⟨positive, above⟩⟩
    · obtain ⟨exact, small, below⟩ :=
        (Int.tdiv_tmod_unique' negative nonzero).mp solved
      exact ⟨exact, by omega, .inr ⟨negative, below⟩⟩

namespace Number

/-- The quotient of two numbers is a number, with one exception. -/
theorem inRange_tdiv_iff
    (left : Number)
    {right : Number}
    (nonzero : right.toInt ≠ 0) :
    InRange (left.toInt.tdiv right.toInt) ↔
      ¬ (left.toInt = -2147483648 ∧ right.toInt = -1) := by
  have range := inRange_toInt left
  have size := Int.natAbs_tdiv left.toInt right.toInt
  simp only [InRange] at range ⊢
  generalize left.toInt = a, right.toInt = b at *
  by_cases unit : b.natAbs = 1
  · rcases Int.natAbs_eq_iff.mp unit with one | minusOne
    · rw [one, Int.natCast_one, Int.tdiv_one]
      omega
    · rw [minusOne, Int.natCast_one, Int.tdiv_neg, Int.tdiv_one]
      omega
  · have half : a.natAbs.div b.natAbs ≤ a.natAbs / 2 :=
      Nat.div_le_div_left (by omega) (by decide)
    omega

/-- The remainder of two numbers is a number. -/
theorem inRange_tmod
    (left : Number)
    {right : Number}
    (nonzero : right.toInt ≠ 0) :
    InRange (left.toInt.tmod right.toInt) := by
  have range := inRange_toInt right
  have size := Int.natAbs_tmod left.toInt right.toInt
  have small : left.toInt.natAbs % right.toInt.natAbs < right.toInt.natAbs :=
    Nat.mod_lt _ (by omega)
  simp only [InRange] at range ⊢
  omega

end Number

namespace ArithmeticOperator

variable
  {operator : ArithmeticOperator}
  {left right : Number}

/-! ## Powers -/

/--
For the bases that never leave the range, the parity of the exponent is enough.
-/
theorem pow_smallExponent
    {base : Int}
    (small : base.natAbs ≤ 1)
    (exponent : Nat) :
    base ^ smallExponent exponent = base ^ exponent := by
  unfold smallExponent
  split
  · rfl
  · rename_i large
    have bases : base = 0 ∨ base = 1 ∨ base = -1 := by
      omega
    rcases bases with rfl | rfl | rfl
    · rw [zero_pow (by omega), zero_pow (by omega)]
    · rw [one_pow, one_pow]
    · rw [neg_one_pow_eq_pow_mod_two, neg_one_pow_eq_pow_mod_two exponent]
      congr 1
      omega

/-- A power of any other base with a large exponent is out of range. -/
theorem not_inRange_pow
    {base : Int}
    (large : 2 ≤ base.natAbs)
    {exponent : Nat}
    (high : 32 ≤ exponent) :
    ¬ Number.InRange (base ^ exponent) := by
  have size : 4294967296 ≤ (base ^ exponent).natAbs := by
    rw [Int.natAbs_pow]
    calc
      4294967296 = 2 ^ 32 := by decide
      _ ≤ 2 ^ exponent := Nat.pow_le_pow_right (by decide) high
      _ ≤ base.natAbs ^ exponent := Nat.pow_le_pow_left large exponent
  simp only [Number.InRange]
  omega

/-- The exact power is found unless it is out of range. -/
theorem exactPower?_eq
    (base : Int)
    (exponent : Nat) :
    exactPower? base exponent = some (base ^ exponent) ∨
      exactPower? base exponent = none ∧
        ¬ Number.InRange (base ^ exponent) := by
  unfold exactPower?
  split
  · rename_i small
    rw [Int.pow_eq]
    exact .inl (congrArg some (pow_smallExponent small exponent))
  · split
    · rw [Int.pow_eq]
      exact .inl rfl
    · exact .inr ⟨rfl, not_inRange_pow (by omega) (by omega)⟩

/-- A power with a negative exponent is taken as an inverse. -/
theorem calculate_power_of_neg
    (negative : right.toInt < 0) :
    calculate .power left right = inversePower left right :=
  if_pos negative

/-- A power with an exponent from zero on is calculated exactly. -/
theorem calculate_power_of_not_neg
    (nonnegative : ¬ right.toInt < 0) :
    calculate .power left right =
      fit .power left right (exactPower? left.toInt right.toInt.toNat) :=
  if_neg nonnegative

/-- One divided by a power, rounded towards zero. -/
theorem exists_calculate_inverse
    (nonzero : left.toInt ≠ 0)
    (negative : right.toInt < 0) :
    ∃ number remainder,
      calculate .power left right = .ok number ∧
        Truncated 1 (left.toInt ^ right.toInt.natAbs) number.toInt
          remainder := by
  rw [calculate_power_of_neg negative, inversePower, if_neg nonzero]
  split
  · rename_i one
    refine ⟨1, 0, rfl, ?_⟩
    rw [one, one_pow]
    exact ⟨rfl, by decide, by decide⟩
  · rename_i notOne
    split
    · rename_i minusOne
      rw [minusOne]
      split
      · rename_i divisible
        have even : Even right.toInt.natAbs := Nat.even_iff.mpr (by omega)
        refine ⟨1, 0, rfl, ?_⟩
        rw [even.neg_one_pow]
        exact ⟨rfl, by decide, by decide⟩
      · rename_i indivisible
        have odd : Odd right.toInt.natAbs := Nat.odd_iff.mpr (by omega)
        refine ⟨-1, 0, rfl, ?_⟩
        rw [odd.neg_one_pow]
        exact ⟨rfl, by decide, by decide⟩
    · -- The power is at least two, and one is less than that.
      have large : 1 < (left.toInt ^ right.toInt.natAbs).natAbs := by
        rw [Int.natAbs_pow]
        exact Nat.one_lt_pow (by omega) (by omega)
      exact ⟨0, 1, rfl, by simp, large, by decide⟩

/-! ## Results in range and out of range -/

/-- An exact result in the range of numbers is the result. -/
theorem fit_of_inRange
    {exact : Int}
    (inRange : Number.InRange exact) :
    ∃ number : Number,
      operator.fit left right (some exact) = .ok number ∧
        number.toInt = exact := by
  cases found : Number.ofInt? exact with
  | none =>
      exact absurd inRange (Action.not_inRange_of_ofInt?_none found)
  | some number =>
      refine ⟨number, ?_, Number.ofInt?_eq_some_iff.mp found⟩
      simp only [fit, Option.bind_some, found]

/-- An exact result out of the range of numbers is an overflow. -/
theorem fit_of_not_inRange
    {exact : Int}
    (outOfRange : ¬ Number.InRange exact) :
    operator.fit left right (some exact) =
      .error (.overflow (.arithmetic operator left right)) := by
  simp only [fit, Option.bind_some, Number.ofInt?, if_neg outOfRange]

/-- The result of a division, whichever of its two parts is asked for. -/
theorem calculate_division
    (nonzero : right.toInt ≠ 0)
    {exact : Int}
    (part :
      operator = .divide ∧ exact = left.toInt.tdiv right.toInt ∨
        operator = .remainder ∧ exact = left.toInt.tmod right.toInt) :
    (left.toInt = -2147483648 ∧ right.toInt = -1 →
        operator.calculate left right =
          .error (.overflow (.arithmetic operator left right))) ∧
      (¬ (left.toInt = -2147483648 ∧ right.toInt = -1) →
        ∃ number : Number,
          operator.calculate left right = .ok number ∧
            number.toInt = exact) := by
  have range := Number.inRange_tdiv_iff left nonzero
  rcases part with ⟨rfl, rfl⟩ | ⟨rfl, rfl⟩
  · simp only [calculate, if_neg nonzero]
    exact ⟨fun exception =>
      fit_of_not_inRange (mt range.mp (not_not.mpr exception)),
      fun usual => fit_of_inRange (range.mpr usual)⟩
  · simp only [calculate, if_neg nonzero]
    constructor
    · intro exception
      rw [fit_of_not_inRange (mt range.mp (not_not.mpr exception))]
      rfl
    · intro usual
      -- The quotient is calculated first and its number dropped.
      obtain ⟨quotient, found, _⟩ := fit_of_inRange (range.mpr usual)
      rw [found]
      exact fit_of_inRange (Number.inRange_tmod left nonzero)

end ArithmeticOperator

/-! ## The outcomes of evaluation -/

/-- An outcome that is the number with an exact value. -/
def IsNumber (outcome : Except RunError Value) (exact : Int) : Prop :=
  ∃ number : Number, outcome = .ok (.int number) ∧ number.toInt = exact

/--
What each operator makes of two numbers.  The outcome is described by the
integers that the numbers stand for.
-/
structure ExactArithmetic
    (left right : Number)
    (location : Location)
    (outcome : ArithmeticOperator → Except RunError Value) :
    Prop where
  /-- Sums, differences and products are exact. -/
  combined :
    ∀ operator exact,
      (operator, exact) ∈
          [(.add, left.toInt + right.toInt),
            (.subtract, left.toInt - right.toInt),
            (.multiply, left.toInt * right.toInt)] →
        if Number.InRange exact then
          IsNumber (outcome operator) exact
        else
          outcome operator =
            .error ⟨.overflow (.arithmetic operator left right), location⟩
  /-- A quotient is rounded towards zero and the remainder belongs to it. -/
  divided :
    right.toInt ≠ 0 →
      ¬ (left.toInt = -2147483648 ∧ right.toInt = -1) →
        ∃ quotient remainder,
          Truncated left.toInt right.toInt quotient remainder ∧
            IsNumber (outcome .divide) quotient ∧
            IsNumber (outcome .remainder) remainder
  /-- Only division by zero is undefined. -/
  undivided :
    ∀ operator ∈ [ArithmeticOperator.divide, .remainder],
      (∃ division,
        outcome operator = .error ⟨.zeroDivision division, location⟩) ↔
        right.toInt = 0
  /-- Only one division overflows. -/
  overflown :
    ∀ operator ∈ [ArithmeticOperator.divide, .remainder],
      outcome operator =
          .error ⟨.overflow (.arithmetic operator left right), location⟩ ↔
        left.toInt = -2147483648 ∧ right.toInt = -1
  /-- Powers are exact. -/
  raised :
    0 ≤ right.toInt →
      if Number.InRange (left.toInt ^ right.toInt.toNat) then
        IsNumber (outcome .power) (left.toInt ^ right.toInt.toNat)
      else
        outcome .power =
          .error ⟨.overflow (.arithmetic .power left right), location⟩
  /-- A negative exponent divides one by the power and rounds towards zero. -/
  inverted :
    right.toInt < 0 →
      left.toInt ≠ 0 →
        ∃ quotient remainder,
          Truncated 1 (left.toInt ^ right.toInt.natAbs) quotient remainder ∧
            IsNumber (outcome .power) quotient
  /-- Only zero has no powers with negative exponents. -/
  uninverted :
    (∃ division, outcome .power = .error ⟨.zeroDivision division, location⟩) ↔
      left.toInt = 0 ∧ right.toInt < 0

/-- The outcome of evaluating an operator on two numbers. -/
def outcomeOf
    (left right : Number)
    (location : Location)
    (operator : ArithmeticOperator) :
    Except RunError Value :=
  (Moment.locate location (operator.calculate left right)).map .int

section Outcomes

variable
  {left right : Number}
  {operator : ArithmeticOperator}
  (location : Location)

/-- An operation that succeeds gives its number. -/
theorem outcomeOf_ok
    {number : Number}
    (calculated : operator.calculate left right = .ok number) :
    outcomeOf left right location operator = .ok (.int number) := by
  rw [outcomeOf, calculated]
  rfl

/-- An operation that fails does so at its own place. -/
theorem outcomeOf_error
    {cause : RunCause}
    (calculated : operator.calculate left right = .error cause) :
    outcomeOf left right location operator = .error ⟨cause, location⟩ := by
  rw [outcomeOf, calculated]
  rfl

/--
An exact result is the outcome where it is in range, and overflows elsewhere.
-/
theorem outcomeOf_fit
    {exact : Int}
    {result : Option Int}
    (found : result = some exact ∨ result = none ∧ ¬ Number.InRange exact)
    (calculated :
      operator.calculate left right = operator.fit left right result) :
    if Number.InRange exact then
      IsNumber (outcomeOf left right location operator) exact
    else
      outcomeOf left right location operator =
        .error ⟨.overflow (.arithmetic operator left right), location⟩ := by
  split
  · rename_i inRange
    obtain rfl := found.resolve_right (fun missing => missing.2 inRange)
    obtain ⟨number, fits, same⟩ := ArithmeticOperator.fit_of_inRange inRange
    exact ⟨number, outcomeOf_ok location (calculated.trans fits), same⟩
  · rename_i outOfRange
    apply outcomeOf_error location
    rw [calculated]
    rcases found with rfl | ⟨rfl, _⟩
    · exact ArithmeticOperator.fit_of_not_inRange outOfRange
    · rfl

/--
A division fails for a zero divisor, overflows in one case, and else gives a
number.
-/
theorem outcomeOf_division
    (division : operator ∈ [ArithmeticOperator.divide, .remainder]) :
    (right.toInt = 0 ∧
        ∃ division,
          outcomeOf left right location operator =
            .error ⟨.zeroDivision division, location⟩) ∨
      ((left.toInt = -2147483648 ∧ right.toInt = -1) ∧
        outcomeOf left right location operator =
          .error ⟨.overflow (.arithmetic operator left right), location⟩) ∨
      (right.toInt ≠ 0 ∧ ¬ (left.toInt = -2147483648 ∧ right.toInt = -1) ∧
        ∃ exact, IsNumber (outcomeOf left right location operator) exact) := by
  have part :
      ∃ exact,
        operator = .divide ∧ exact = left.toInt.tdiv right.toInt ∨
          operator = .remainder ∧ exact = left.toInt.tmod right.toInt := by
    rcases List.mem_pair.mp division with rfl | rfl
    · exact ⟨_, .inl ⟨rfl, rfl⟩⟩
    · exact ⟨_, .inr ⟨rfl, rfl⟩⟩
  obtain ⟨exact, part⟩ := part
  by_cases zero : right.toInt = 0
  · refine .inl ⟨zero, ?_⟩
    rcases part with ⟨rfl, _⟩ | ⟨rfl, _⟩
    · exact ⟨.quotient, outcomeOf_error location (if_pos zero)⟩
    · exact ⟨.remainder, outcomeOf_error location (if_pos zero)⟩
  · obtain ⟨overflows, gives⟩ := ArithmeticOperator.calculate_division zero part
    by_cases exception : left.toInt = -2147483648 ∧ right.toInt = -1
    · exact .inr
        (.inl ⟨exception, outcomeOf_error location (overflows exception)⟩)
    · obtain ⟨number, calculated, same⟩ := gives exception
      exact .inr
        (.inr
          ⟨zero, exception, exact, number, outcomeOf_ok location calculated,
            same⟩)

end Outcomes

/--
The outcomes of all operators on two numbers are those of exact arithmetic.
-/
theorem exactArithmetic_outcomeOf
    (left right : Number)
    (location : Location) :
    ExactArithmetic left right location (outcomeOf left right location) where
  combined := by
    intro operator exact member
    simp only [List.mem_cons, Prod.mk.injEq, List.not_mem_nil,
      or_false] at member
    rcases member with ⟨rfl, rfl⟩ | ⟨rfl, rfl⟩ | ⟨rfl, rfl⟩
    · exact outcomeOf_fit location (.inl rfl) rfl
    · exact outcomeOf_fit location (.inl rfl) rfl
    · exact outcomeOf_fit location (.inl rfl) rfl
  divided := by
    intro nonzero usual
    obtain ⟨quotient, ofQuotient, sameQuotient⟩ :=
      (ArithmeticOperator.calculate_division nonzero (.inl ⟨rfl, rfl⟩)).2 usual
    obtain ⟨remainder, ofRemainder, sameRemainder⟩ :=
      (ArithmeticOperator.calculate_division nonzero (.inr ⟨rfl, rfl⟩)).2 usual
    exact ⟨_, _, (truncated_iff nonzero).mpr ⟨rfl, rfl⟩,
      ⟨quotient, outcomeOf_ok location ofQuotient, sameQuotient⟩,
      ⟨remainder, outcomeOf_ok location ofRemainder, sameRemainder⟩⟩
  undivided := by
    intro operator division
    rcases outcomeOf_division location division with
      ⟨zero, fails⟩ | ⟨⟨_, minusOne⟩, overflows⟩ | ⟨nonzero, _, _, _, gives, _⟩
    · exact iff_of_true fails zero
    · rw [overflows, minusOne]
      simp
    · rw [gives]
      simp [nonzero]
  overflown := by
    intro operator division
    rcases outcomeOf_division location division with
      ⟨zero, _, fails⟩ | ⟨exception, overflows⟩ | ⟨_, usual, _, _, gives, _⟩
    · rw [fails, zero]
      simp
    · exact iff_of_true overflows exception
    · rw [gives]
      simp [usual]
  raised := by
    intro nonnegative
    exact
      outcomeOf_fit location (ArithmeticOperator.exactPower?_eq _ _)
        (ArithmeticOperator.calculate_power_of_not_neg
          (Int.not_lt.mpr nonnegative))
  inverted := by
    intro negative nonzero
    obtain ⟨number, remainder, inverse, truncated⟩ :=
      ArithmeticOperator.exists_calculate_inverse nonzero negative
    exact ⟨_, _, truncated, number, outcomeOf_ok location inverse, rfl⟩
  uninverted := by
    by_cases negative : right.toInt < 0
    · by_cases zero : left.toInt = 0
      · have fails :
            ArithmeticOperator.calculate .power left right =
              .error (.zeroDivision (.power right)) :=
          (ArithmeticOperator.calculate_power_of_neg negative).trans
            (if_pos zero)
        exact iff_of_true ⟨_, outcomeOf_error location fails⟩ ⟨zero, negative⟩
      · obtain ⟨number, _, inverse, _⟩ :=
          ArithmeticOperator.exists_calculate_inverse zero negative
        rw [outcomeOf_ok location inverse]
        simp [zero]
    · have power :=
        outcomeOf_fit location
          (ArithmeticOperator.exactPower?_eq left.toInt right.toInt.toNat)
          (ArithmeticOperator.calculate_power_of_not_neg negative)
      split at power
      · obtain ⟨number, gives, _⟩ := power
        rw [gives]
        simp [negative]
      · rw [power]
        simp [negative]

namespace Moment

/--
Two numbers are calculated with, and a failure gets the place of the operator.
-/
theorem evaluate_arithmetic_of_ints
    {moment : Moment}
    {left right : Node}
    {first second : Number}
    (leftGives : moment.evaluate left = .ok (.int first))
    (rightGives : moment.evaluate right = .ok (.int second))
    (operator : ArithmeticOperator)
    (location : Location) :
    moment.evaluate (.arithmetic operator left right location) =
      outcomeOf first second location operator := by
  rw [evaluate, leftGives, rightGives, outcomeOf]
  simp only [bind, Except.bind]
  cases locate location (operator.calculate first second) with
  | ok number =>
      rfl
  | error failure =>
      rfl

/-- Operators on two expressions that give numbers calculate exactly or fail. -/
theorem evaluate_arithmetic_exact
    (moment : Moment)
    (left right : Node)
    (location : Location)
    (first second : Number)
    (leftGives : moment.evaluate left = .ok (.int first))
    (rightGives : moment.evaluate right = .ok (.int second)) :
    ExactArithmetic first second location fun operator =>
      moment.evaluate (.arithmetic operator left right location) := by
  have outcomes :
      (fun operator =>
        moment.evaluate (.arithmetic operator left right location)) =
        outcomeOf first second location :=
    funext fun operator =>
      evaluate_arithmetic_of_ints leftGives rightGives operator location
  rw [outcomes]
  exact exactArithmetic_outcomeOf first second location

/--
The least number divided by minus one has a remainder, but not one that is
calculated.
-/
theorem evaluate_arithmetic_exact_least :
    let moment := Moment.initial 1
    let place := Location.start
    let left := Node.number (-2147483648) place
    let right := Node.number (-1) place
    moment.evaluate left = .ok (.int (-2147483648)) ∧
      moment.evaluate right = .ok (.int (-1)) ∧
      moment.evaluate (.arithmetic .remainder left right place) =
        .error
          ⟨.overflow (.arithmetic .remainder (-2147483648) (-1)), place⟩ := by
  have exact :=
    evaluate_arithmetic_exact (Moment.initial 1)
      (.number (-2147483648) Location.start)
      (.number (-1) Location.start) Location.start (-2147483648) (-1) rfl rfl
  exact ⟨rfl, rfl, (exact.overflown .remainder (by simp)).mpr (by decide)⟩

end Moment

end PixelBrush
