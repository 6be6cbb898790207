import Mathlib.Tactic.Common

namespace PixelBrush

/-!
# Calculating in words

Drawing is described with exact integers, while a machine calculates with words,
which hold only the integers of their width.  A calculation in words stops as
soon as one of its values, the operands among them, cannot be held.  As long as
this does not happen, its result is the exact one.  A loop in words stops with
its step, and an invariant that every step keeps settles where it ends.
-/

/-- The widths of the words that drawing calculates with. -/
inductive Width where
  | bits32
  | bits64
  | bits128
  deriving Repr, DecidableEq

/--
A result in words; there is none when a value on the way could not be held.
-/
abbrev Checked (Result : Type) := Option Result

/-- Once its first part is known, a calculation goes on with the rest. -/
theorem Checked.bind_of_some
    {Middle Result : Type}
    {first : Checked Middle}
    {value : Middle}
    (found : first = some value)
    (rest : Middle → Checked Result) :
    (first >>= rest) = rest value := by
  rw [found, Option.bind_eq_bind, Option.bind_some]

namespace Width

/--
The first integer that is too large; its negative is the least one that is held.
-/
@[simp]
def bound : Width → Int
  | .bits32 => 2147483648
  | .bits64 => 9223372036854775808
  | .bits128 => 170141183460469231731687303715884105728

/-- The integers that a word holds. -/
@[simp]
def Holds (width : Width) (value : Int) : Prop :=
  -width.bound ≤ value ∧ value < width.bound

instance (width : Width) (value : Int) : Decidable (width.Holds value) :=
  inferInstanceAs (Decidable (_ ∧ _))

/-- An integer as a word. -/
def keep (width : Width) (value : Int) : Checked Int :=
  if width.Holds value then
    some value
  else
    none

/-- A value is kept exactly if the width holds it. -/
theorem keep_eq_some_iff
    {width : Width}
    {value result : Int} :
    width.keep value = some result ↔ width.Holds value ∧ value = result := by
  rw [keep, Option.ite_none_right_eq_some, Option.some_inj]

/-- A value that the width holds is kept. -/
theorem keep_of_holds
    {width : Width}
    {value : Int}
    (holds : width.Holds value) :
    width.keep value = some value :=
  keep_eq_some_iff.mpr ⟨holds, rfl⟩

end Width

/-! ## Calculations -/

/-- The operations on two words.  Quotients are rounded towards zero. -/
inductive Operation where
  | sum
  | difference
  | product
  | quotient
  | lesser
  | greater
  deriving Repr, DecidableEq

/-- The exact result of an operation. -/
def Operation.apply : Operation → Int → Int → Int
  | .sum, left, right => left + right
  | .difference, left, right => left - right
  | .product, left, right => left * right
  | .quotient, left, right => left.tdiv right
  | .lesser, left, right => min left right
  | .greater, left, right => max left right

/-- What is calculated, operation by operation. -/
inductive Calculation where
  | number (value : Int)
  | magnitude (operand : Calculation)
  | binary (operation : Operation) (left right : Calculation)
  deriving Repr, DecidableEq

namespace Calculation

instance : Coe Int Calculation := ⟨number⟩

instance (value : Nat) : OfNat Calculation value := ⟨number value⟩

instance : Add Calculation := ⟨binary .sum⟩

instance : Sub Calculation := ⟨binary .difference⟩

instance : Mul Calculation := ⟨binary .product⟩

instance : Div Calculation := ⟨binary .quotient⟩

instance : Min Calculation := ⟨binary .lesser⟩

instance : Max Calculation := ⟨binary .greater⟩

/-- The result on integers without bounds. -/
def exact : Calculation → Int
  | number value => value
  | magnitude operand => operand.exact.natAbs
  | binary operation left right => operation.apply left.exact right.exact

/-- Every value on the way can be held, and nothing is divided by zero. -/
def Fits (width : Width) : Calculation → Prop
  | number value => width.Holds value
  | magnitude operand => operand.Fits width ∧ width.Holds operand.exact.natAbs
  | binary operation left right =>
      left.Fits width ∧ right.Fits width ∧
        ¬ (operation = .quotient ∧ right.exact = 0) ∧
        width.Holds (operation.apply left.exact right.exact)

end Calculation

/-- The result of a calculation in words of one width. -/
def Width.calculate (width : Width) : Calculation → Checked Int
  | .number value => width.keep value
  | .magnitude operand => do
      let value ← width.calculate operand
      width.keep value.natAbs
  | .binary operation left right => do
      let first ← width.calculate left
      let second ← width.calculate right
      if operation = .quotient ∧ second = 0 then
        none
      else
        width.keep (operation.apply first second)

/--
A calculation in words has a result exactly when all of it fits, and then the
exact one.
-/
theorem Width.calculate_eq_some_iff
    {width : Width}
    {calculation : Calculation}
    {result : Int} :
    width.calculate calculation = some result ↔
      calculation.Fits width ∧ calculation.exact = result := by
  induction calculation generalizing result with
  | number value =>
      exact keep_eq_some_iff
  | magnitude operand inductionHypothesis =>
      simp only [calculate, Option.bind_eq_bind, Option.bind_eq_some_iff,
        keep_eq_some_iff, inductionHypothesis, Calculation.Fits,
        Calculation.exact]
      constructor
      · rintro ⟨_, ⟨fits, rfl⟩, held, rfl⟩
        exact ⟨⟨fits, held⟩, rfl⟩
      · rintro ⟨⟨fits, held⟩, rfl⟩
        exact ⟨_, ⟨fits, rfl⟩, held, rfl⟩
  | binary operation left right leftHypothesis rightHypothesis =>
      simp only [calculate, Option.bind_eq_bind, Option.bind_eq_some_iff,
        keep_eq_some_iff, Option.ite_none_left_eq_some, leftHypothesis,
        rightHypothesis, Calculation.Fits, Calculation.exact]
      constructor
      · rintro ⟨_, ⟨leftFits, rfl⟩, _, ⟨rightFits, rfl⟩, divides, held, rfl⟩
        exact ⟨⟨leftFits, rightFits, divides, held⟩, rfl⟩
      · rintro ⟨⟨leftFits, rightFits, divides, held⟩, rfl⟩
        exact ⟨_, ⟨leftFits, rfl⟩, _, ⟨rightFits, rfl⟩, divides, held, rfl⟩

/--
A value on the way that cannot be held leaves no result, even where the exact
one can be.
-/
example : Width.bits64.calculate (9223372036854775807 + 1 - 1) = none := by
  decide

/-- A calculation that fits gives its exact value. -/
theorem Width.calculate_of_fits
    {width : Width}
    {calculation : Calculation}
    (fits : calculation.Fits width) :
    width.calculate calculation = some calculation.exact :=
  calculate_eq_some_iff.mpr ⟨fits, rfl⟩

/-- What goes on after a calculation goes on with its exact result. -/
theorem Width.of_calculate_bind
    {width : Width}
    {calculation : Calculation}
    {Result : Type}
    {rest : Int → Checked Result}
    {result : Result}
    (done : (width.calculate calculation >>= rest) = some result) :
    calculation.Fits width ∧ rest calculation.exact = some result := by
  obtain ⟨value, calculated, goesOn⟩ := Option.bind_eq_some_iff.mp done
  obtain ⟨fits, rfl⟩ := calculate_eq_some_iff.mp calculated
  exact ⟨fits, goesOn⟩

namespace Calculation

variable
  {width : Width}
  {left right : Calculation}

/-! The exact result of a calculation, one lemma for each way to build it. -/

/-- A number is its own value. -/
@[simp]
theorem exact_number {value : Int} :
    (number value).exact = value :=
  rfl

/-- So is a numeral. -/
@[simp]
theorem exact_ofNat {value : Nat} :
    (no_index (OfNat.ofNat value) : Calculation).exact =
      (OfNat.ofNat value : Int) :=
  rfl

/-- A magnitude is an absolute value. -/
@[simp]
theorem exact_magnitude :
    (magnitude left).exact = max left.exact (-left.exact) := by
  rw [exact]
  omega

/-- A sum is calculated exactly. -/
@[simp]
theorem exact_add :
    (left + right).exact = left.exact + right.exact :=
  rfl

/-- So is a difference. -/
@[simp]
theorem exact_sub :
    (left - right).exact = left.exact - right.exact :=
  rfl

/-- So is a product. -/
@[simp]
theorem exact_mul :
    (left * right).exact = left.exact * right.exact :=
  rfl

/-- A quotient is rounded towards zero. -/
@[simp]
theorem exact_div :
    (left / right).exact = left.exact.tdiv right.exact :=
  rfl

/-- The smaller of two values is exact. -/
@[simp]
theorem exact_min :
    (min left right).exact = min left.exact right.exact :=
  rfl

/-- The larger of two values is exact. -/
@[simp]
theorem exact_max :
    (max left right).exact = max left.exact right.exact :=
  rfl

/-! A calculation fits when its operands fit and its result can be held. -/

/-- A number fits if the width holds it. -/
@[simp]
theorem fits_number {value : Int} :
    (number value).Fits width ↔ width.Holds value :=
  Iff.rfl

/-- A numeral fits if the width holds it. -/
@[simp]
theorem fits_ofNat {value : Nat} :
    (no_index (OfNat.ofNat value) : Calculation).Fits width ↔
      width.Holds (OfNat.ofNat value) :=
  Iff.rfl

/-- A magnitude fits if its part does and the width holds the result. -/
@[simp]
theorem fits_magnitude :
    (magnitude left).Fits width ↔
      left.Fits width ∧ width.Holds (max left.exact (-left.exact)) := by
  rw [Fits, ← exact_magnitude, exact]

/--
An operation other than division fits if both parts do and the width holds the
result.
-/
theorem fits_binary
    {operation : Operation}
    (undivided : operation ≠ .quotient) :
    (binary operation left right).Fits width ↔
      left.Fits width ∧ right.Fits width ∧
        width.Holds (operation.apply left.exact right.exact) := by
  simp only [Fits, undivided, false_and, not_false_eq_true, true_and]

@[simp]
theorem fits_add :
    (left + right).Fits width ↔
      left.Fits width ∧ right.Fits width ∧
        width.Holds (left.exact + right.exact) :=
  fits_binary (by decide)

@[simp]
theorem fits_sub :
    (left - right).Fits width ↔
      left.Fits width ∧ right.Fits width ∧
        width.Holds (left.exact - right.exact) :=
  fits_binary (by decide)

@[simp]
theorem fits_mul :
    (left * right).Fits width ↔
      left.Fits width ∧ right.Fits width ∧
        width.Holds (left.exact * right.exact) :=
  fits_binary (by decide)

@[simp]
theorem fits_min :
    (min left right).Fits width ↔
      left.Fits width ∧ right.Fits width ∧
        width.Holds (min left.exact right.exact) :=
  fits_binary (by decide)

@[simp]
theorem fits_max :
    (max left right).Fits width ↔
      left.Fits width ∧ right.Fits width ∧
        width.Holds (max left.exact right.exact) :=
  fits_binary (by decide)

/-- A quotient fits if, besides, its divisor is not zero. -/
@[simp]
theorem fits_div :
    (left / right).Fits width ↔
      left.Fits width ∧ right.Fits width ∧ right.exact ≠ 0 ∧
        width.Holds (left.exact.tdiv right.exact) := by
  have shape : left / right = binary .quotient left right := rfl
  rw [shape, Fits, not_and]
  exact and_congr_right'
    (and_congr_right' (and_congr_left' (forall_prop_of_true rfl)))

end Calculation

/-! ## Loops -/

/--
A loop in words.  Its step gives the next state or the end of the loop, and the
variant shows that it ends.
-/
structure Loop (State : Type) where
  step : State → Checked (Option State)
  variant : State → Nat
  decreases :
    ∀ {state after : State},
      step state = some (some after) →
      variant after < variant state

namespace Loop

variable
  {State : Type}

/-- The state in which a loop ends. -/
def run (loop : Loop State) (state : State) : Checked State :=
  match _stepped : loop.step state with
  | none => none
  | some none => some state
  | some (some after) => loop.run after
termination_by loop.variant state
decreasing_by
  exact loop.decreases (by assumption)

/--
A loop all of whose steps keep an invariant ends as the last step leaves it.
-/
theorem exists_run
    (loop : Loop State)
    (Invariant Final : State → Prop)
    (keeps :
      ∀ state,
        Invariant state →
        (loop.step state = some none ∧ Final state) ∨
          ∃ after, loop.step state = some (some after) ∧ Invariant after)
    {state : State}
    (holds : Invariant state) :
    ∃ last, loop.run state = some last ∧ Final last := by
  fun_induction run loop state with
  | case1 state overflows =>
      rcases keeps state holds with ⟨stepped, _⟩ | ⟨after, stepped, _⟩
      · rw [stepped] at overflows
        cases overflows
      · rw [stepped] at overflows
        cases overflows
  | case2 state ends =>
      rcases keeps state holds with ⟨_, final⟩ | ⟨after, stepped, _⟩
      · exact ⟨state, rfl, final⟩
      · rw [stepped] at ends
        cases ends
  | case3 state after stepped inductionHypothesis =>
      rcases keeps state holds with ⟨ends, _⟩ | ⟨next, stepsTo, kept⟩
      · rw [ends] at stepped
        cases stepped
      · rw [stepsTo] at stepped
        cases stepped
        exact inductionHypothesis kept

end Loop

end PixelBrush
