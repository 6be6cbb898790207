import PixelBrush.Proofs.MidpointWalk
import PixelBrush.Proofs.Words

namespace PixelBrush.Words

open Width Checked

/-!
# Square roots in words

A square root in words starts from a guess, the root of a floating-point number
with 53 significant bits, and is then lowered and raised by one until it is
right.  For the numbers whose root a ring asks for, the guess is small, and
neither it nor a square on the way leaves a word of 128 bits.
-/

/-! ## The guess -/

/--
Rounds to the nearest unit; a rest of exactly half a unit goes to the even
neighbor.
-/
def nearestUnits (units : Nat) (restToHalf : Ordering) : Nat :=
  match restToHalf with
  | .lt => units
  | .eq => units + units % 2
  | .gt => units + 1

/-- The nearest number with 53 significant bits. -/
def nearestDouble (number : Nat) : Nat :=
  let unit := 2 ^ (number.log2 - 52)
  nearestUnits (number / unit) (compare (2 * (number % unit)) unit) * unit

/-- The whole part of the square root with 53 significant bits. -/
def doubleRoot (number : Nat) : Nat :=
  let exponent := (PixelBrush.squareRoot number).log2
  let scale := 2 ^ (52 - exponent)
  let unit := 2 ^ (exponent - 52)
  let units := PixelBrush.squareRoot (number * scale * scale / (unit * unit))
  let halves := (2 * units + 1) * unit
  nearestUnits units (compare (4 * number * scale * scale) (halves * halves)) *
    unit / scale

/-- Rounding goes up by one unit at most. -/
theorem nearestUnits_le
    (units : Nat)
    (restToHalf : Ordering) :
    nearestUnits units restToHalf ≤ units + 1 := by
  cases restToHalf with
  | lt =>
      exact Nat.le_succ units
  | eq =>
      exact Nat.add_le_add_left
        (Nat.le_of_lt_succ (Nat.mod_lt units (by decide))) units
  | gt =>
      exact Nat.le_refl _

/-- The nearest double is at most twice the number. -/
theorem nearestDouble_le (number : Nat) :
    nearestDouble number ≤ 2 * number := by
  rcases Nat.eq_zero_or_pos number with rfl | positive
  · decide
  · unfold nearestDouble
    dsimp only
    have unit_le : 2 ^ (number.log2 - 52) ≤ number :=
      (Nat.pow_le_pow_right (by decide) (Nat.sub_le _ _)).trans
        (Nat.log2_self_le (Nat.ne_of_gt positive))
    generalize 2 ^ (number.log2 - 52) = unit at unit_le ⊢
    have rounded :=
      nearestUnits_le (number / unit) (compare (2 * (number % unit)) unit)
    calc
      nearestUnits (number / unit) (compare (2 * (number % unit)) unit) * unit
        ≤ (number / unit + 1) * unit := Nat.mul_le_mul_right unit rounded
      _ = number / unit * unit + unit := Nat.succ_mul _ _
      _ ≤ number + number :=
        Nat.add_le_add (Nat.div_mul_le_self number unit) unit_le
      _ = 2 * number := (Nat.two_mul number).symm

/-- A number below a square has a smaller root. -/
theorem squareRoot_lt
    {number bound : Nat}
    (below : number < bound * bound) :
    PixelBrush.squareRoot number < bound :=
  Nat.mul_self_lt_mul_self_iff.mp
    (Nat.lt_of_le_of_lt (squareRoot_spec number).1 below)

/-- A guess is no further away than the root of the largest number. -/
theorem doubleRoot_le
    {number : Nat}
    (bounded : number < 2 ^ 66) :
    doubleRoot number ≤ 2 ^ 33 := by
  have root_lt : PixelBrush.squareRoot number < 2 ^ 33 :=
    squareRoot_lt bounded
  have exponent_le : (PixelBrush.squareRoot number).log2 ≤ 52 := by
    rcases Nat.eq_zero_or_pos (PixelBrush.squareRoot number) with
      zero | positive
    · rw [zero]
      decide
    · have exponent_lt := (Nat.log2_lt (Nat.ne_of_gt positive)).mpr root_lt
      omega
  unfold doubleRoot
  dsimp only
  -- The unit is one, since there are fewer than 53 bits before the point.
  rw [Nat.sub_eq_zero_of_le exponent_le, Nat.pow_zero, Nat.mul_one, Nat.mul_one,
    Nat.div_one, Nat.mul_one]
  have positive : 0 < 2 ^ (52 - (PixelBrush.squareRoot number).log2) :=
    Nat.two_pow_pos _
  generalize 2 ^ (52 - (PixelBrush.squareRoot number).log2) = scale
    at positive ⊢
  have units_lt :
      PixelBrush.squareRoot (number * scale * scale) < scale * 2 ^ 33 := by
    apply squareRoot_lt
    calc
      number * scale * scale = number * (scale * scale) := Nat.mul_assoc _ _ _
      _ < 2 ^ 66 * (scale * scale) :=
        Nat.mul_lt_mul_of_pos_right bounded (Nat.mul_pos positive positive)
      _ = scale * 2 ^ 33 * (scale * 2 ^ 33) := by ring
  apply Nat.div_le_of_le_mul
  exact (nearestUnits_le _ _).trans units_lt

/-! ## The corrections -/

/-- Lowers a root by one while its square is too large. -/
def lowerRoot (number root : Int) : Checked (Option Int) := do
  let square ← bits128.calculate (root * root)
  if number < square then
    let lower ← bits128.calculate (root - 1)
    return some lower
  else
    return none

/-- Raises a root by one while the next square is not too large. -/
def raiseRoot (number root : Int) : Checked (Option Int) := do
  let square ← bits128.calculate ((root + 1) * (root + 1))
  if square ≤ number then
    let higher ← bits128.calculate (root + 1)
    return some higher
  else
    return none

/-- Lowering a root comes closer to the smallest word. -/
theorem lowerRoot_decreases
    {number root after : Int}
    (lowered : lowerRoot number root = some (some after)) :
    (after + bits128.bound).toNat < (root + bits128.bound).toNat := by
  obtain ⟨_, lowered⟩ := of_calculate_bind lowered
  split at lowered
  · obtain ⟨fits, lowered⟩ := of_calculate_bind lowered
    cases lowered
    simp at fits ⊢
    omega
  · cases lowered

/-- Raising a root comes closer to the largest word. -/
theorem raiseRoot_decreases
    {number root after : Int}
    (raised : raiseRoot number root = some (some after)) :
    (bits128.bound - after).toNat < (bits128.bound - root).toNat := by
  obtain ⟨_, raised⟩ := of_calculate_bind raised
  split at raised
  · obtain ⟨fits, raised⟩ := of_calculate_bind raised
    cases raised
    simp at fits ⊢
    omega
  · cases raised

/-- The loop that lowers a root. -/
def lowering (number : Int) : Loop Int where
  step := lowerRoot number
  variant root := (root + bits128.bound).toNat
  decreases := lowerRoot_decreases

/-- The loop that raises a root. -/
def raising (number : Int) : Loop Int where
  step := raiseRoot number
  variant root := (bits128.bound - root).toNat
  decreases := raiseRoot_decreases

/--
The integer square root: a guess, lowered and then raised until it is right.
-/
def squareRoot (number : Int) : Checked Int :=
  if number ≤ 0 then
    return 0
  else do
    let guess := doubleRoot (nearestDouble number.toNat)
    let lowered ← (lowering number).run guess
    (raising number).run lowered

/--
The integer square root is the only number between whose square and the next one
we are.
-/
theorem eq_squareRoot
    {number root : Nat}
    (lower : root * root ≤ number)
    (upper : number < (root + 1) * (root + 1)) :
    root = PixelBrush.squareRoot number := by
  apply Nat.le_antisymm
  · apply Nat.le_of_lt_succ
    apply Nat.mul_self_lt_mul_self_iff.mp
    exact Nat.lt_of_le_of_lt lower (squareRoot_spec number).2
  · exact Nat.le_of_lt_succ (squareRoot_lt upper)

/-- A bound on a value gives a bound on its square. -/
theorem square_bounds
    {value bound : Int}
    (nonnegative : 0 ≤ value)
    (within : value ≤ bound) :
    0 ≤ value * value ∧ value * value ≤ bound * bound :=
  ⟨Int.mul_nonneg nonnegative nonnegative,
    Int.mul_le_mul within within nonnegative (nonnegative.trans within)⟩

/-- A root that is not too large, with a square that is not too large either. -/
def IsLow (number : Nat) (root : Int) : Prop :=
  ∃ low : Nat, root = low ∧ low ≤ 2 ^ 33 ∧ low * low ≤ number

/-- Lowering a guess ends with a square that is not too large. -/
theorem exists_lowered
    (number : Nat)
    {guess : Nat}
    (small : guess ≤ 2 ^ 33) :
    ∃ low, (lowering number).run guess = some low ∧ IsLow number low := by
  apply (lowering number).exists_run
    (fun root => ∃ high : Nat, root = high ∧ high ≤ 2 ^ 33)
  · rintro _ ⟨root, rfl, small⟩
    have bounds :=
      square_bounds (Int.natCast_nonneg root) (Int.ofNat_le.mpr small)
    have square :
        bits128.calculate ((root : Int) * (root : Int)) =
          some ((root : Int) * root) :=
      calculate_of_fits (by simp; omega)
    change (lowerRoot number root = _ ∧ _) ∨ ∃ after,
      lowerRoot number root = _ ∧ _
    unfold lowerRoot
    rw [bind_of_some square]
    by_cases tooLarge : (number : Int) < (root : Int) * root
    · right
      have positive : 1 ≤ root := by
        rcases Nat.eq_zero_or_pos root with rfl | positive
        · omega
        · exact positive
      have lower :
          bits128.calculate ((root : Int) - 1) = some ((root : Int) - 1) :=
        calculate_of_fits (by simp; omega)
      rw [if_pos tooLarge, bind_of_some lower]
      exact ⟨(root : Int) - 1, rfl, root - 1, by omega, by omega⟩
    · left
      rw [if_neg tooLarge]
      exact ⟨rfl, root, rfl, small, by omega⟩
  · exact ⟨guess, rfl, small⟩

/-- Raising a root ends with the integer square root. -/
theorem exists_raised
    {number : Nat}
    (bounded : number < 2 ^ 64)
    {low : Int}
    (isLow : IsLow number low) :
    ∃ root,
      (raising number).run low = some root ∧
        root = (PixelBrush.squareRoot number : Nat) := by
  refine (raising number).exists_run (IsLow number) _ ?_ isLow
  rintro _ ⟨root, rfl, small, lower⟩
  have bounds :=
    square_bounds (Int.natCast_nonneg (root + 1))
      (Int.ofNat_le.mpr (Nat.succ_le_succ small))
  push_cast at bounds
  have square :
      bits128.calculate (((root : Int) + 1) * ((root : Int) + 1)) =
        some (((root : Int) + 1) * (root + 1)) :=
    calculate_of_fits (by simp; omega)
  change (raiseRoot number root = _ ∧ _) ∨ ∃ after,
    raiseRoot number root = _ ∧ _
  unfold raiseRoot
  rw [bind_of_some square]
  by_cases roomAbove : ((root : Int) + 1) * (root + 1) ≤ number
  · right
    have higher :
        bits128.calculate ((root : Int) + 1) = some ((root : Int) + 1) :=
      calculate_of_fits (by simp; omega)
    rw [if_pos roomAbove, bind_of_some higher]
    have fits : (root + 1) * (root + 1) ≤ number := by
      exact_mod_cast roomAbove
    have below : root + 1 < 2 ^ 32 :=
      Nat.mul_self_lt_mul_self_iff.mp (Nat.lt_of_le_of_lt fits bounded)
    exact ⟨(root : Int) + 1, rfl, root + 1, rfl, by omega, fits⟩
  · left
    rw [if_neg roomAbove]
    have upper : number < (root + 1) * (root + 1) := by
      rw [Int.not_le] at roomAbove
      exact_mod_cast roomAbove
    exact ⟨rfl, congrArg Nat.cast (eq_squareRoot lower upper)⟩

/-- The integer square root in words is the integer square root. -/
theorem squareRoot_eq
    {number : Nat}
    (bounded : number < 2 ^ 64) :
    squareRoot number = some ((PixelBrush.squareRoot number : Nat) : Int) := by
  unfold squareRoot
  rcases Nat.eq_zero_or_pos number with rfl | positive
  · have zero : 0 = PixelBrush.squareRoot 0 :=
      eq_squareRoot (Nat.le_refl 0) (by decide)
    rw [if_pos (by decide), ← zero]
    rfl
  · have double_lt : nearestDouble number < 2 ^ 66 := by
      have double_le := nearestDouble_le number
      omega
    obtain ⟨low, lowered, isLow⟩ :=
      exists_lowered number (doubleRoot_le double_lt)
    obtain ⟨root, raised, isRoot⟩ := exists_raised bounded isLow
    rw [if_neg (by omega), Int.toNat_natCast, bind_of_some lowered, raised,
      isRoot]

end PixelBrush.Words
