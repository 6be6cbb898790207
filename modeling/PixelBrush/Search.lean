namespace PixelBrush

/-!
# Searching for the first or the last place

A property of natural numbers that never turns from true to false has a first
place where it holds, and one that never turns from false to true has a last
place.  Bisection finds it in a logarithmic number of tests.
-/

/--
Bisects `low ≤ k < high` for the first `k` that has the property; `high` if none
has.
-/
def firstWhere (holds : Nat → Bool) (low high : Nat) : Nat :=
  if low < high then
    let middle := low + (high - low) / 2
    if holds middle then
      firstWhere holds low middle
    else
      firstWhere holds (middle + 1) high
  else
    low
termination_by high - low
decreasing_by
  all_goals omega

/--
Bisects `low ≤ k ≤ high` for the last `k` that has the property; `low` if none
has.
-/
def lastWhere (holds : Nat → Bool) (low high : Nat) : Nat :=
  if low < high then
    let middle := low + (high - low + 1) / 2
    if holds middle then
      lastWhere holds middle high
    else
      lastWhere holds low (middle - 1)
  else
    low
termination_by high - low
decreasing_by
  all_goals omega

/--
The integer square root: the last number whose square is at most the given one.
-/
def squareRoot (number : Nat) : Nat :=
  firstWhere (fun root => number < (root + 1) * (root + 1)) 0 number

/-- The search ends between its bounds. -/
theorem firstWhere_bounds
    (holds : Nat → Bool)
    {low high : Nat}
    (ordered : low ≤ high) :
    low ≤ firstWhere holds low high ∧ firstWhere holds low high ≤ high := by
  fun_induction firstWhere holds low high with
  | case1 low high below middle accepted inductionHypothesis =>
      have bounds := inductionHypothesis (by omega)
      omega
  | case2 low high below middle rejected inductionHypothesis =>
      have bounds := inductionHypothesis (by omega)
      omega
  | case3 low high done =>
      omega

/--
For a property that stays true, the search finds the first place where it holds.
-/
theorem firstWhere_spec
    {holds : Nat → Bool}
    (stays :
      ∀ first second, first ≤ second → holds first = true → holds second = true)
    {low high : Nat}
    (ordered : low ≤ high) :
    (∀ k, low ≤ k → k < firstWhere holds low high → holds k = false) ∧
      (∀ k, firstWhere holds low high ≤ k → k < high → holds k = true) := by
  fun_induction firstWhere holds low high with
  | case1 low high below middle accepted inductionHypothesis =>
      obtain ⟨before, after⟩ := inductionHypothesis (by omega)
      refine ⟨before, fun k reached _ => ?_⟩
      by_cases early : k < middle
      · exact after k reached early
      · exact stays middle k (by omega) accepted
  | case2 low high below middle rejected inductionHypothesis =>
      obtain ⟨before, after⟩ := inductionHypothesis (by omega)
      refine ⟨fun k start early => ?_, after⟩
      by_cases late : middle < k
      · exact before k late early
      · cases found : holds k with
        | false => rfl
        | true => exact absurd (stays k middle (by omega) found) rejected
  | case3 low high done =>
      exact ⟨fun k start early => absurd early (by omega),
        fun k reached early => absurd early (by omega)⟩

/--
For a property that stays false, the search finds the last place where it holds.
-/
theorem lastWhere_spec
    {holds : Nat → Bool}
    (stays :
      ∀ first second, first ≤ second → holds second = true → holds first = true)
    {low high : Nat}
    (ordered : low ≤ high)
    (starts : holds low = true) :
    low ≤ lastWhere holds low high ∧ lastWhere holds low high ≤ high ∧
      holds (lastWhere holds low high) = true ∧
      ∀ k, lastWhere holds low high < k → k ≤ high → holds k = false := by
  fun_induction lastWhere holds low high with
  | case1 low high below middle accepted inductionHypothesis =>
      obtain ⟨lower, rest⟩ := inductionHypothesis (by omega) accepted
      exact ⟨by omega, rest⟩
  | case2 low high below middle rejected inductionHypothesis =>
      obtain ⟨lower, upper, found, after⟩ :=
        inductionHypothesis (by omega) starts
      refine ⟨lower, by omega, found, fun k late within => ?_⟩
      by_cases early : k < middle
      · exact after k late (by omega)
      · cases holdsLate : holds k with
        | false => rfl
        | true => exact absurd (stays middle k (by omega) holdsLate) rejected
  | case3 low high done =>
      exact ⟨Nat.le_refl low, ordered, starts,
        fun k late within => absurd late (by omega)⟩

/--
For a property that stays true, exactly the places from the one found on have
it.
-/
theorem firstWhere_le_iff
    {Holds : Nat → Prop}
    [DecidablePred Holds]
    (stays : ∀ first second, first ≤ second → Holds first → Holds second)
    {low high k : Nat}
    (start : low ≤ k)
    (inside : k < high) :
    firstWhere (fun place => Holds place) low high ≤ k ↔ Holds k := by
  have decided :
      ∀ first second,
        first ≤ second →
        decide (Holds first) = true →
        decide (Holds second) = true := by
    intro first second ordered
    simpa using stays first second ordered
  obtain ⟨before, after⟩ :=
    firstWhere_spec decided (Nat.le_of_lt (Nat.lt_of_le_of_lt start inside))
  constructor
  · intro reached
    exact of_decide_eq_true (after k reached inside)
  · intro holds
    apply Nat.le_of_not_lt
    intro early
    exact of_decide_eq_false (before k start early) holds

end PixelBrush
