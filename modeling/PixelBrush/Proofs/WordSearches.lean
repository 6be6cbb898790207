import PixelBrush.Search
import PixelBrush.Proofs.Words

namespace PixelBrush.Words

open Width Checked

/-!
# Searching in words

A property of places that turns once is searched by bisection, with places that
are words of 64 bits.  The middle of a range lies in the range, so no place on
the way is too large, and each search ends where the property turns.
-/

/-! ## The first place -/

/-- The first and the last place of a range. -/
structure Range where
  low : Int
  high : Int
  deriving Repr, DecidableEq

/-- Tests the middle of a range and goes on with one of the halves. -/
def halve
    (holds : Int → Checked Bool)
    (range : Range) :
    Checked (Option Range) :=
  if range.low < range.high then do
    let middle ← bits64.calculate (range.low + (range.high - range.low) / 2)
    if ← holds middle then
      return some ⟨range.low, middle⟩
    else
      let next ← bits64.calculate (middle + 1)
      return some ⟨next, range.high⟩
  else
    return none

/-- The middle of a range that is not empty lies in it. -/
theorem middle_bounds
    {low high : Int}
    (nonempty : low < high) :
    low ≤ low + (high - low).tdiv 2 ∧ low + (high - low).tdiv 2 < high := by
  rw [Int.tdiv_eq_ediv_of_nonneg (by omega)]
  omega

/-- A round of the search for the first place leaves a smaller range. -/
theorem halve_decreases
    {holds : Int → Checked Bool}
    {range after : Range}
    (halved : halve holds range = some (some after)) :
    (after.high - after.low).toNat < (range.high - range.low).toNat := by
  unfold halve at halved
  split at halved
  · rename_i nonempty
    have inside := middle_bounds nonempty
    obtain ⟨_, halved⟩ := of_calculate_bind halved
    obtain ⟨found, _, halved⟩ := Option.bind_eq_some_iff.mp halved
    cases found with
    | true =>
        cases halved
        simp at inside ⊢
        omega
    | false =>
        obtain ⟨_, halved⟩ := of_calculate_bind halved
        cases halved
        simp at inside ⊢
        omega
  · cases halved

/-- The search for the first place that has a property. -/
def firstSearch (holds : Int → Checked Bool) : Loop Range where
  step := halve holds
  variant range := (range.high - range.low).toNat
  decreases := halve_decreases

/--
The first place from zero to the last that has a property; the place after it if
none has.
-/
def firstWhere (holds : Int → Checked Bool) (last : Int) : Checked Int := do
  let stop ← bits64.calculate (last + 1)
  let found ← (firstSearch holds).run ⟨0, stop⟩
  return found.low

/--
The part of a search that is left, with the answer of the whole search in it.
-/
def Searches (exactly : Nat → Bool) (last : Nat) (range : Range) : Prop :=
  ∃ low high : Nat,
    range = ⟨low, high⟩ ∧ low ≤ high ∧ high ≤ last + 1 ∧
      PixelBrush.firstWhere exactly low high =
        PixelBrush.firstWhere exactly 0 (last + 1)

section Searching

variable
  {holds : Int → Checked Bool}
  {exactly : Nat → Bool}
  {last : Nat}
  (bounded : last ≤ 8589934592)
  (agrees : ∀ k : Nat, k ≤ last → holds k = some (exactly k))

include bounded agrees

/-- Halving ends at the answer, or leaves a part with the answer in it. -/
theorem searches_halve
    {range : Range}
    (searches : Searches exactly last range) :
    (halve holds range = some none ∧
        range.low = (PixelBrush.firstWhere exactly 0 (last + 1) : Nat)) ∨
      ∃ after,
        halve holds range = some (some after) ∧
        Searches exactly last after := by
  obtain ⟨low, high, rfl, ordered, within, same⟩ := searches
  rw [PixelBrush.firstWhere] at same
  by_cases nonempty : low < high
  · right
    rw [if_pos nonempty] at same
    dsimp only at same
    have middle :
        bits64.calculate ((low : Int) + ((high : Int) - (low : Int)) / 2) =
          some ((low + (high - low) / 2 : Nat) : Int) := by
      have inside := middle_bounds (Int.ofNat_lt.mpr nonempty)
      have exact :
          (low : Int) + ((high : Int) - low).tdiv 2 =
            (low + (high - low) / 2 : Nat) := by
        rw [Int.tdiv_eq_ediv_of_nonneg (by omega)]
        omega
      rw [← exact]
      exact calculate_of_fits (by simp; omega)
    have tested := agrees (low + (high - low) / 2) (by omega)
    have inside :
        low ≤ low + (high - low) / 2 ∧ low + (high - low) / 2 < high := by
      omega
    generalize low + (high - low) / 2 = place at middle tested same inside
    unfold halve
    rw [if_pos (Int.ofNat_lt.mpr nonempty), bind_of_some middle,
      bind_of_some tested]
    cases found : exactly place with
    | true =>
        rw [if_pos found] at same
        exact ⟨⟨low, place⟩, rfl, low, place, rfl, by omega, by omega, same⟩
    | false =>
        have next :
            bits64.calculate ((place : Int) + 1) = some ((place : Int) + 1) :=
          calculate_of_fits (by simp; omega)
        rw [found, if_neg Bool.false_ne_true] at same
        rw [if_neg Bool.false_ne_true, bind_of_some next]
        exact ⟨⟨place + 1, high⟩, rfl, place + 1, high, rfl, by omega, by omega,
          same⟩
  · left
    rw [if_neg nonempty] at same
    unfold halve
    rw [if_neg (mt Int.ofNat_lt.mp nonempty)]
    exact ⟨rfl, congrArg Nat.cast same⟩

/-- A search in words finds what the search on exact integers finds. -/
theorem firstWhere_eq :
    firstWhere holds last =
      some ((PixelBrush.firstWhere exactly 0 (last + 1) : Nat) : Int) := by
  have stop : bits64.calculate ((last : Int) + 1) = some ((last : Int) + 1) :=
    calculate_of_fits (by simp; omega)
  have whole : Searches exactly last ⟨0, (last : Int) + 1⟩ :=
    ⟨0, last + 1, rfl, Nat.zero_le _, Nat.le_refl _, rfl⟩
  obtain ⟨found, ends, isFirst⟩ :=
    (firstSearch holds).exists_run (Searches exactly last)
      (fun range =>
        range.low = (PixelBrush.firstWhere exactly 0 (last + 1) : Nat))
      (fun _ => searches_halve bounded agrees) whole
  rw [firstWhere, bind_of_some stop, bind_of_some ends, isFirst]
  rfl

end Searching

/-! ## The last place -/

/--
Tests the middle of a range, rounded up, and goes on with one of the parts.
-/
def halveUp
    (holds : Int → Checked Bool)
    (range : Range) :
    Checked (Option Range) :=
  if range.low < range.high then do
    let middle ← bits64.calculate (range.low + (range.high - range.low + 1) / 2)
    if ← holds middle then
      return some ⟨middle, range.high⟩
    else
      let last ← bits64.calculate (middle - 1)
      return some ⟨range.low, last⟩
  else
    return none

/--
The upper middle of a range is above its low end and not above its high end.
-/
theorem upperMiddle_bounds
    {low high : Int}
    (nonempty : low < high) :
    low < low + (high - low + 1).tdiv 2 ∧
      low + (high - low + 1).tdiv 2 ≤ high := by
  rw [Int.tdiv_eq_ediv_of_nonneg (by omega)]
  omega

/-- A round of the search for the last place leaves a smaller range. -/
theorem halveUp_decreases
    {holds : Int → Checked Bool}
    {range after : Range}
    (halved : halveUp holds range = some (some after)) :
    (after.high - after.low).toNat < (range.high - range.low).toNat := by
  unfold halveUp at halved
  split at halved
  · rename_i nonempty
    have inside := upperMiddle_bounds nonempty
    obtain ⟨_, halved⟩ := of_calculate_bind halved
    obtain ⟨found, _, halved⟩ := Option.bind_eq_some_iff.mp halved
    cases found with
    | true =>
        cases halved
        simp at inside ⊢
        omega
    | false =>
        obtain ⟨_, halved⟩ := of_calculate_bind halved
        cases halved
        simp at inside ⊢
        omega
  · cases halved

/-- The search for the last place that has a property. -/
def lastSearch (holds : Int → Checked Bool) : Loop Range where
  step := halveUp holds
  variant range := (range.high - range.low).toNat
  decreases := halveUp_decreases

/--
The last place, from the first one on, that has a property which the first one
has.
-/
def lastWhere (holds : Int → Checked Bool) (last : Int) : Checked Int := do
  let found ← (lastSearch holds).run ⟨1, last⟩
  return found.low

/--
The part of a search that is left, with the answer of the whole search in it.
-/
def SearchesUp (exactly : Nat → Bool) (last : Nat) (range : Range) : Prop :=
  ∃ low high : Nat,
    range = ⟨low, high⟩ ∧ 1 ≤ low ∧ low ≤ high ∧ high ≤ last ∧
      PixelBrush.lastWhere exactly low high =
        PixelBrush.lastWhere exactly 1 last

section SearchingUp

variable
  {holds : Int → Checked Bool}
  {exactly : Nat → Bool}
  {last : Nat}
  (bounded : last ≤ 8589934592)
  (agrees : ∀ k : Nat, 1 ≤ k → k ≤ last → holds k = some (exactly k))

include bounded agrees

/-- Halving ends at the answer, or leaves a part with the answer in it. -/
theorem searchesUp_halveUp
    {range : Range}
    (searches : SearchesUp exactly last range) :
    (halveUp holds range = some none ∧
        range.low = (PixelBrush.lastWhere exactly 1 last : Nat)) ∨
      ∃ after,
        halveUp holds range = some (some after) ∧
        SearchesUp exactly last after := by
  obtain ⟨low, high, rfl, positive, ordered, within, same⟩ := searches
  rw [PixelBrush.lastWhere] at same
  unfold halveUp
  by_cases nonempty : low < high
  · right
    rw [if_pos nonempty] at same
    dsimp only at same
    have middle :
        bits64.calculate ((low : Int) + ((high : Int) - (low : Int) + 1) / 2) =
          some ((low + (high - low + 1) / 2 : Nat) : Int) := by
      have inside := upperMiddle_bounds (Int.ofNat_lt.mpr nonempty)
      have exact :
          (low : Int) + ((high : Int) - low + 1).tdiv 2 =
            (low + (high - low + 1) / 2 : Nat) := by
        rw [Int.tdiv_eq_ediv_of_nonneg (by omega)]
        omega
      rw [← exact]
      exact calculate_of_fits (by simp; omega)
    have inside :
        low < low + (high - low + 1) / 2 ∧
          low + (high - low + 1) / 2 ≤ high := by
      omega
    generalize low + (high - low + 1) / 2 = place at middle inside same
    have tested := agrees place (by omega) (by omega)
    rw [if_pos (Int.ofNat_lt.mpr nonempty), bind_of_some middle,
      bind_of_some tested]
    cases found : exactly place with
    | true =>
        rw [if_pos found] at same
        exact ⟨⟨place, high⟩, rfl, place, high, rfl, by omega, by omega, within,
          same⟩
    | false =>
        have before :
            bits64.calculate ((place : Int) - 1) =
              some ((place - 1 : Nat) : Int) := by
          have exact : (place : Int) - 1 = (place - 1 : Nat) := by
            omega
          rw [← exact]
          exact calculate_of_fits (by simp; omega)
        rw [found, if_neg Bool.false_ne_true] at same
        rw [if_neg Bool.false_ne_true, bind_of_some before]
        exact ⟨⟨low, (place - 1 : Nat)⟩, rfl, low, place - 1, rfl, positive,
          by omega, by omega, same⟩
  · left
    rw [if_neg nonempty] at same
    rw [if_neg (mt Int.ofNat_lt.mp nonempty)]
    exact ⟨rfl, congrArg Nat.cast same⟩

/-- A search in words finds what the search on exact integers finds. -/
theorem lastWhere_eq
    (nonempty : 1 ≤ last) :
    lastWhere holds last =
      some ((PixelBrush.lastWhere exactly 1 last : Nat) : Int) := by
  have whole : SearchesUp exactly last ⟨1, last⟩ :=
    ⟨1, last, rfl, Nat.le_refl 1, nonempty, Nat.le_refl last, rfl⟩
  obtain ⟨found, ends, isLast⟩ :=
    (lastSearch holds).exists_run (SearchesUp exactly last)
      (fun range => range.low = (PixelBrush.lastWhere exactly 1 last : Nat))
      (fun _ => searchesUp_halveUp bounded agrees) whole
  rw [lastWhere, bind_of_some ends, isLast]
  rfl

end SearchingUp

end PixelBrush.Words
