import Mathlib.Tactic.Linarith
import Mathlib.Tactic.Ring
import PixelBrush.Canvas.Ring

namespace PixelBrush

/-!
# The midpoint walk and its closed form

The walk of a ring is followed row by row from its rightmost point.  Its error
term is a polynomial of the column and the row, and one column fits a row
exactly when this polynomial changes sign there.  As long as the walk has never
had to move more than one column a row, it holds the column that fits; integer
square roots find that column, so the state of the walk at such a row is known
without walking.
-/

/-- The integer square root is the last number whose square is not too large. -/
theorem squareRoot_spec (number : Nat) :
    squareRoot number * squareRoot number ≤ number ∧
      number < (squareRoot number + 1) * (squareRoot number + 1) := by
  have stays :
      ∀ first second : Nat,
        first ≤ second →
        decide (number < (first + 1) * (first + 1)) = true →
        decide (number < (second + 1) * (second + 1)) = true := by
    intro first second ordered found
    have larger : (first + 1) * (first + 1) ≤ (second + 1) * (second + 1) :=
      Nat.mul_le_mul (by omega) (by omega)
    rw [decide_eq_true_iff] at found ⊢
    exact Nat.lt_of_lt_of_le found larger
  have bounds :=
    firstWhere_bounds
      (fun root => decide (number < (root + 1) * (root + 1)))
      (Nat.zero_le number)
  obtain ⟨before, after⟩ := firstWhere_spec stays (Nat.zero_le number)
  unfold squareRoot
  generalize
    firstWhere (fun root => decide (number < (root + 1) * (root + 1)))
      0 number = root at bounds before after
  constructor
  · cases root with
    | zero =>
        omega
    | succ smaller =>
        have tooEarly := before smaller (Nat.zero_le _) (Nat.lt_succ_self _)
        rw [decide_eq_false_iff_not] at tooEarly
        omega
  · by_cases inside : root < number
    · have reached := after root (Nat.le_refl _) inside
      rw [decide_eq_true_iff] at reached
      exact reached
    · have all : root = number := by
        omega
      rw [all]
      nlinarith

/-- A larger number has no smaller root. -/
theorem squareRoot_mono
    {first second : Nat}
    (ordered : first ≤ second) :
    squareRoot first ≤ squareRoot second := by
  have lower := (squareRoot_spec first).1
  have upper := (squareRoot_spec second).2
  apply Nat.le_of_lt_succ
  apply Nat.mul_self_lt_mul_self_iff.mp
  exact Nat.lt_of_le_of_lt (lower.trans ordered) upper

namespace Ring

/--
How far a column lies outside a row of the walk.  The walk keeps a column while
this is negative.
-/
def excess (radius x y : Int) : Int :=
  x * x - 3 * x + (y + 1) * (y + 1) - (radius - 1) * (radius - 1)

/-- A column that is kept at a row, while the next one outwards is not. -/
def Fits (radius x y : Int) : Prop :=
  excess radius x y < 0 ∧ 0 ≤ excess radius (x + 1) y

/-- Farther outwards, the excess is no smaller. -/
theorem excess_mono
    (radius y : Int)
    {inner outer : Int}
    (positive : 1 ≤ inner)
    (ordered : inner ≤ outer) :
    excess radius inner y ≤ excess radius outer y := by
  rcases ordered.eq_or_lt with same | apart
  · rw [same]
  · have factored :
        excess radius outer y - excess radius inner y =
          (outer - inner) * (outer + inner - 3) := by
      simp only [excess]
      ring
    have product : 0 ≤ (outer - inner) * (outer + inner - 3) :=
      Int.mul_nonneg (by omega) (by omega)
    omega

/-- How the excess of a column grows from one row to the next. -/
theorem excess_succ_row
    (radius x y : Int) :
    excess radius x (y + 1) = excess radius x y + 2 * y + 3 := by
  simp only [excess]
  ring

/-- How the excess changes with a row on and a column inwards. -/
theorem excess_inwards
    (radius x y : Int) :
    excess radius (x - 1) (y + 1) = excess radius x y + 2 * y + 7 - 2 * x := by
  simp only [excess]
  ring

/-- Only one column fits a row. -/
theorem Fits.unique
    {radius first second y : Int}
    (firstFits : Fits radius first y)
    (secondFits : Fits radius second y)
    (firstPositive : 1 ≤ first)
    (secondPositive : 1 ≤ second) :
    first = second := by
  rcases Int.lt_trichotomy first second with less | same | greater
  · have between :=
      excess_mono radius y (by omega : 1 ≤ first + 1)
        (by omega : first + 1 ≤ second)
    have kept := secondFits.1
    have dropped := firstFits.2
    omega
  · exact same
  · have between :=
      excess_mono radius y (by omega : 1 ≤ second + 1)
        (by omega : second + 1 ≤ first)
    have kept := firstFits.1
    have dropped := secondFits.2
    omega

/-- The column found by a square root fits, apart from the innermost ones. -/
theorem fits_of_columnAt?
    {radius row column : Int}
    (found : columnAt? radius row = some column)
    (apart : 2 ≤ column) :
    Fits radius column row := by
  unfold columnAt? at found
  dsimp only at found
  split at found
  · cases found
  · rename_i solvable
    obtain ⟨lower, upper⟩ :=
      squareRoot_spec
        (4 * (radius * radius - 2 * radius - row * row - 2 * row) + 9 - 1).toNat
    generalize squareRoot _ = root at found lower upper
    have exact := Option.some.inj found
    have lowerInt :
        (root : Int) * root ≤
          4 * (radius * radius - 2 * radius - row * row - 2 * row) + 8 := by
      have := Int.ofNat_le.mpr lower
      push_cast at this
      omega
    have upperInt :
        4 * (radius * radius - 2 * radius - row * row - 2 * row) + 8 <
          ((root : Int) + 1) * (root + 1) := by
      have := Int.ofNat_lt.mpr upper
      push_cast at this
      omega
    -- The excess is a quarter of a square less the discriminant.
    have below : (2 * column - 3) * (2 * column - 3) ≤ (root : Int) * root :=
      Int.mul_le_mul (by omega) (by omega) (by omega) (by omega)
    have above :
        ((root : Int) + 1) * (root + 1) ≤ (2 * column - 1) * (2 * column - 1) :=
      Int.mul_le_mul (by omega) (by omega) (by omega) (by omega)
    constructor
    · simp only [excess]
      linarith
    · simp only [excess]
      linarith

/--
A row at which the closed form is exact has a column two or more further out.
-/
theorem exactAt_iff
    {radius : Int}
    {row : Nat} :
    exactAt radius row = true ↔
      ∃ column,
        columnAt? radius row = some column ∧ (row : Int) + 2 ≤ column := by
  unfold exactAt
  cases columnAt? radius row with
  | none =>
      simp
  | some column =>
      simp

/-- A column at one row gives one at least as far out at every earlier row. -/
theorem columnAt?_earlier
    {radius column : Int}
    {first second : Nat}
    (ordered : first ≤ second)
    (found : columnAt? radius second = some column) :
    ∃ outer, columnAt? radius first = some outer ∧ column ≤ outer := by
  unfold columnAt? at found ⊢
  dsimp only at found ⊢
  have squares : (first : Int) * first ≤ (second : Int) * second :=
    Int.mul_le_mul (by omega) (by omega) (by omega) (by omega)
  split at found
  · cases found
  · rename_i solvable
    have earlier :
        ¬ 4 *
          (radius * radius - 2 * radius - (first : Int) * first - 2 * first) + 9
          < 1 := by
      omega
    have rooted :
        squareRoot
            (4 * (radius * radius - 2 * radius - (second : Int) * second
              - 2 * second) + 9 - 1).toNat ≤
          squareRoot
            (4 * (radius * radius - 2 * radius - (first : Int) * first
              - 2 * first) + 9 - 1).toNat :=
      squareRoot_mono (by omega)
    rw [if_neg earlier]
    refine ⟨_, rfl, ?_⟩
    rw [← Option.some.inj found]
    omega

/-- If the closed form holds at a row, it holds at all rows before. -/
theorem exactAt_earlier
    {radius : Int}
    {first second : Nat}
    (ordered : first ≤ second)
    (exact : exactAt radius second = true) :
    exactAt radius first = true := by
  obtain ⟨column, found, far⟩ := exactAt_iff.mp exact
  obtain ⟨outer, foundOuter, further⟩ := columnAt?_earlier ordered found
  exact exactAt_iff.mpr ⟨outer, foundOuter, by omega⟩

/-- The state of the walk after it went through a number of rows. -/
def Walk.atRow (radius : Int) : Nat → Walk
  | 0 => .start radius
  | row + 1 => (atRow radius row).next

namespace Walk

/-- The closed form of a row stands at this row. -/
theorem atRow_y
    (radius : Int)
    (row : Nat) :
    (atRow radius row).y = row := by
  induction row with
  | zero =>
      rfl
  | succ row inductionHypothesis =>
      rw [atRow, next_y, inductionHypothesis]
      push_cast
      rfl

/-- No row has a column outside the radius. -/
theorem atRow_x_le
    (radius : Int)
    (row : Nat) :
    (atRow radius row).x ≤ radius := by
  induction row with
  | zero =>
      exact Int.le_refl radius
  | succ row inductionHypothesis =>
      exact Int.le_trans (next_x_le _) inductionHypothesis

/-- The walk never goes outwards, however many rows it takes. -/
theorem atRow_antitone
    (radius : Int)
    {first last : Nat}
    (ordered : first ≤ last) :
    (atRow radius last).x ≤ (atRow radius first).x := by
  induction last, ordered using Nat.le_induction with
  | base =>
      exact Int.le_refl _
  | succ last _ inductionHypothesis =>
      exact Int.le_trans (next_x_le _) inductionHypothesis

/-- A step of the walk goes one column inwards at most. -/
theorem le_next_x (walk : Walk) :
    walk.x - 1 ≤ walk.next.x := by
  simp only [next]
  split <;> simp only <;> omega

/-- Column and row together never fall below the radius. -/
theorem radius_le_atRow
    (radius : Int)
    (row : Nat) :
    radius ≤ (atRow radius row).x + row := by
  induction row with
  | zero =>
      simp [atRow, start]
  | succ row inductionHypothesis =>
      have step := le_next_x (atRow radius row)
      rw [atRow]
      push_cast
      omega

/-- The error term is the excess of the column plus the column. -/
theorem atRow_error
    (radius : Int)
    (row : Nat) :
    (atRow radius row).error =
      excess radius (atRow radius row).x row + (atRow radius row).x := by
  induction row with
  | zero =>
      simp only [atRow, start, excess]
      push_cast
      ring
  | succ row inductionHypothesis =>
      have rowShape := atRow_y radius row
      simp only [atRow, next]
      rw [rowShape, inductionHypothesis]
      split
      · simp only [excess]
        push_cast
        ring
      · simp only [excess]
        push_cast
        ring

/--
The walk goes one column inwards exactly when its column does not fit any more.
-/
theorem atRow_succ_x
    (radius : Int)
    (row : Nat) :
    (atRow radius (row + 1)).x =
      if 0 ≤ excess radius (atRow radius row).x ((row : Int) + 1) then
        (atRow radius row).x - 1
      else
        (atRow radius row).x := by
  have rowShape := atRow_y radius row
  have errorShape := atRow_error radius row
  have later := excess_succ_row radius (atRow radius row).x row
  simp only [atRow, next]
  by_cases outside : 0 ≤ excess radius (atRow radius row).x ((row : Int) + 1)
  · rw [if_pos outside, if_pos (by omega)]
  · rw [if_neg outside, if_neg (by omega)]

/-- The walk starts in the column that fits. -/
theorem fits_start
    {radius : Int}
    (wide : 2 ≤ radius) :
    Fits radius radius 0 := by
  constructor
  · simp only [excess]
    linarith
  · simp only [excess]
    linarith

/--
A column that fits, far enough from the diagonal, is followed by one that fits:
one column inwards is enough when the column itself is given up.
-/
theorem fits_atRow_succ
    {radius column : Int}
    {row : Nat}
    (fits : Fits radius (atRow radius row).x row)
    (positive : 1 ≤ (atRow radius row).x)
    (nextFits : Fits radius column ((row : Int) + 1))
    (far : (row : Int) + 3 ≤ column) :
    (atRow radius (row + 1)).x = column := by
  have step := atRow_succ_x radius row
  have later :=
    excess_succ_row radius (atRow radius row).x row
  have laterOuter :=
    excess_succ_row radius ((atRow radius row).x + 1) row
  have laterInner :=
    excess_inwards radius (atRow radius row).x row
  have kept := fits.1
  have dropped := fits.2
  split at step
  · rename_i outside
    rw [step]
    -- The column that fits next is a column further in, hence the distance.
    have inwards : column ≤ (atRow radius row).x - 1 := by
      apply Decidable.byContradiction
      intro notInwards
      have between :=
        excess_mono radius ((row : Int) + 1) positive
          (by omega : (atRow radius row).x ≤ column)
      have columnKept := nextFits.1
      omega
    refine Fits.unique ⟨?_, ?_⟩ nextFits (by omega) (by omega)
    · omega
    · rw [Int.sub_add_cancel]
      exact outside
  · rename_i inside
    rw [step]
    refine Fits.unique ⟨?_, ?_⟩ nextFits positive (by omega)
    · omega
    · omega

/-- At every exact row the walk holds the column of the closed form. -/
theorem columnAt?_atRow
    {radius : Int}
    (wide : 2 ≤ radius)
    {row : Nat}
    (exact : exactAt radius row = true) :
    columnAt? radius row = some (atRow radius row).x := by
  induction row with
  | zero =>
      obtain ⟨column, found, far⟩ := exactAt_iff.mp exact
      have fits := fits_of_columnAt? found (by omega)
      have same : radius = column :=
        Fits.unique (fits_start wide) fits (by omega) (by omega)
      rw [found, ← same]
      rfl
  | succ row inductionHypothesis =>
      have before := exactAt_earlier (Nat.le_succ row) exact
      have held := inductionHypothesis before
      obtain ⟨earlier, foundEarlier, farEarlier⟩ := exactAt_iff.mp before
      obtain ⟨column, found, far⟩ := exactAt_iff.mp exact
      have sameEarlier : earlier = (atRow radius row).x := by
        rw [foundEarlier] at held
        exact Option.some.inj held
      rw [sameEarlier] at farEarlier foundEarlier
      have fits := fits_of_columnAt? foundEarlier (by omega)
      have nextFits := fits_of_columnAt? found (by omega)
      push_cast at nextFits far
      rw [fits_atRow_succ fits (by omega) nextFits (by omega)]
      exact found

/--
At every exact row the walk is still two columns or more from the diagonal.
-/
theorem far_of_exactAt
    {radius : Int}
    (wide : 2 ≤ radius)
    {row : Nat}
    (exact : exactAt radius row = true) :
    (row : Int) + 2 ≤ (atRow radius row).x := by
  obtain ⟨column, found, far⟩ := exactAt_iff.mp exact
  rw [columnAt?_atRow wide exact] at found
  rw [Option.some.inj found]
  exact far

end Walk

/-- Only rings that are not small have an exact row after the first. -/
theorem wide_of_exactAt_one
    {radius : Int}
    (nonnegative : 0 ≤ radius)
    (exact : exactAt radius 1 = true) :
    2 ≤ radius := by
  obtain ⟨column, found, far⟩ := exactAt_iff.mp exact
  have fits := fits_of_columnAt? found (by omega)
  have kept := fits.1
  simp only [excess] at kept
  apply Decidable.byContradiction
  intro narrow
  have small : radius = 0 ∨ radius = 1 := by
    omega
  have outwards : 0 ≤ column * (column - 3) :=
    Int.mul_nonneg (by omega) (by omega)
  rcases small with rfl | rfl
  · push_cast at kept
    linarith
  · push_cast at kept
    linarith

/-- Bisection finds the last exact row of a range that starts with one. -/
theorem lastExact_spec
    {radius target : Int}
    (positive : 1 ≤ target)
    (first : exactAt radius 1 = true) :
    let row := lastExact radius target.toNat
    1 ≤ row ∧ (row : Int) ≤ target ∧
      exactAt radius row = true ∧
      ∀ beyond : Nat,
        row < beyond →
        (beyond : Int) ≤ target →
        exactAt radius beyond = false := by
  unfold lastExact
  split
  · rename_i exact
    refine ⟨by omega, by omega, exact, fun beyond after within => ?_⟩
    omega
  · have stays :
        ∀ early late : Nat,
          early ≤ late →
          exactAt radius late = true →
          exactAt radius early = true :=
      fun _ _ => exactAt_earlier
    obtain ⟨lower, upper, exact, after⟩ :=
      lastWhere_spec stays (by omega : 1 ≤ target.toNat) first
    exact ⟨lower, by omega, exact,
      fun beyond late within => after beyond late (by omega)⟩

/-- The closed form is given for the ranges that start with an exact row. -/
theorem reachable_of_walkAt?
    {radius target : Int}
    {later : Walk}
    (found : walkAt? radius target = some later) :
    1 ≤ target ∧ exactAt radius 1 = true := by
  unfold walkAt? at found
  split at found
  · cases found
  · rename_i reachable
    rw [not_or, not_not, Int.not_lt] at reachable
    exact reachable

/--
The closed form gives the state of the walk at the last exact row of a range.
-/
theorem walkAt?_eq_atRow
    {radius target : Int}
    (nonnegative : 0 ≤ radius)
    (positive : 1 ≤ target)
    (first : exactAt radius 1 = true) :
    walkAt? radius target =
      some (.atRow radius (lastExact radius target.toNat)) := by
  have wide := wide_of_exactAt_one nonnegative first
  obtain ⟨_, _, exact, _⟩ := lastExact_spec positive first
  unfold walkAt?
  rw [if_neg (not_or.mpr ⟨Int.not_lt.mpr positive, not_not.mpr first⟩)]
  dsimp only
  generalize lastExact radius target.toNat = row at exact ⊢
  rw [Walk.columnAt?_atRow wide exact, Option.map_some]
  have rowShape := Walk.atRow_y radius row
  have errorShape := Walk.atRow_error radius row
  generalize Walk.atRow radius row = walk at rowShape errorShape ⊢
  obtain ⟨x, y, error⟩ := walk
  simp only at rowShape errorShape
  rw [errorShape, rowShape, Option.some.injEq, Walk.mk.injEq]
  refine ⟨rfl, rfl, ?_⟩
  simp only [excess]
  ring

/--
The closed form gives the state of the walk at the last exact row of a range,
and up to there the walk is two columns or more from the diagonal.
-/
theorem walkAt?_spec
    {radius target : Int}
    {later : Walk}
    (nonnegative : 0 ≤ radius)
    (found : walkAt? radius target = some later) :
    ∃ row : Nat,
      1 ≤ row ∧ (row : Int) ≤ target ∧
        later = Walk.atRow radius row ∧
        (∀ earlier : Nat,
          earlier ≤ row →
          (earlier : Int) + 2 ≤ (Walk.atRow radius earlier).x) ∧
        exactAt radius row = true ∧
        ∀ beyond : Nat,
          row < beyond →
          (beyond : Int) ≤ target →
          exactAt radius beyond = false := by
  obtain ⟨positive, first⟩ := reachable_of_walkAt? found
  have wide := wide_of_exactAt_one nonnegative first
  obtain ⟨afterStart, within, exact, last⟩ := lastExact_spec positive first
  rw [walkAt?_eq_atRow nonnegative positive first, Option.some.injEq] at found
  refine ⟨_, afterStart, within, found.symm, ?_, exact, last⟩
  intro earlier reached
  exact Walk.far_of_exactAt wide (exactAt_earlier reached exact)

/-! ## The states that the walk comes to -/

namespace Walk

/--
The states of the plain walk, which goes on from every row before the diagonal.
-/
inductive Reached (radius : Int) : Walk → Prop where
  | start : Reached radius (.start radius)
  | next
      {walk : Walk}
      (reached : Reached radius walk)
      (inside : walk.y ≤ walk.x) :
      Reached radius walk.next

/-- A state that is reached is settled by its row. -/
theorem Reached.exists_row
    {radius : Int}
    {walk : Walk}
    (reached : Reached radius walk) :
    ∃ row : Nat, walk = atRow radius row := by
  induction reached with
  | start =>
      exact ⟨0, rfl⟩
  | next _ _ inductionHypothesis =>
      obtain ⟨row, rfl⟩ := inductionHypothesis
      exact ⟨row + 1, rfl⟩

/-- The plain walk has one state in each row. -/
theorem Reached.unique
    {radius : Int}
    {first second : Walk}
    (firstReached : Reached radius first)
    (secondReached : Reached radius second)
    (sameRow : first.y = second.y) :
    first = second := by
  obtain ⟨row, rfl⟩ := firstReached.exists_row
  obtain ⟨other, rfl⟩ := secondReached.exists_row
  rw [atRow_y, atRow_y] at sameRow
  rw [Int.ofNat_inj.mp sameRow]

/-- A row is reached when no row before it lies beyond the diagonal. -/
theorem reached_atRow
    {radius : Int}
    {row : Nat}
    (inside :
      ∀ earlier : Nat,
        earlier < row → (earlier : Int) ≤ (atRow radius earlier).x) :
    Reached radius (atRow radius row) := by
  induction row with
  | zero =>
      exact .start
  | succ row inductionHypothesis =>
      refine .next (inductionHypothesis fun earlier before => ?_) ?_
      · exact inside earlier (Nat.lt_succ_of_lt before)
      · rw [atRow_y]
        exact inside row (Nat.lt_succ_self row)

end Walk

/--
The rows from one to the target at which the closed form is two columns from the
diagonal.
-/
def exactRows (radius target : Int) : Set Int :=
  {row | 1 ≤ row ∧ row ≤ target ∧
    ∃ column ∈ columnAt? radius row, row + 2 ≤ column}

/-- A row is exact if the test for the closed form says so. -/
theorem mem_exactRows_iff
    {radius target : Int}
    {row : Nat} :
    (row : Int) ∈ exactRows radius target ↔
      1 ≤ row ∧ (row : Int) ≤ target ∧ exactAt radius row = true := by
  rw [exactAt_iff]
  exact and_congr_left' Int.natCast_pos

/-- The state found by the closed form is reached, at the last exact row. -/
theorem reached_of_walkAt?
    {radius target : Int}
    {walk : Walk}
    (nonnegative : 0 ≤ radius)
    (found : walkAt? radius target = some walk) :
    Walk.Reached radius walk ∧ IsGreatest (exactRows radius target) walk.y := by
  obtain ⟨row, positive, within, rfl, far, exact, last⟩ :=
    walkAt?_spec nonnegative found
  rw [Walk.atRow_y]
  refine ⟨Walk.reached_atRow fun earlier before => ?_, ?_, ?_⟩
  · have apart := far earlier (Nat.le_of_lt before)
    omega
  · exact mem_exactRows_iff.mpr ⟨positive, within, exact⟩
  · intro other member
    obtain ⟨beyond, rfl⟩ :=
      Int.eq_ofNat_of_zero_le (Int.le_trans Int.one_nonneg member.1)
    obtain ⟨_, inRange, isExact⟩ := mem_exactRows_iff.mp member
    apply Int.ofNat_le.mpr
    apply Nat.le_of_not_lt
    intro later
    rw [last beyond later inRange] at isExact
    cases isExact

/--
The closed form gives the state of the walk at the last row, from one to the
target, where the column found by a square root is two or more columns beyond
the diagonal.  The plain walk comes to this row without crossing the diagonal,
and in exactly this state.
-/
theorem walkAt?_eq_some_iff
    {radius target : Int}
    {walk : Walk}
    (nonnegative : 0 ≤ radius) :
    walkAt? radius target = some walk ↔
      Walk.Reached radius walk ∧
        IsGreatest (exactRows radius target) walk.y := by
  constructor
  · exact reached_of_walkAt? nonnegative
  · rintro ⟨reached, greatest⟩
    obtain ⟨row, isRow⟩ := reached.exists_row
    have member := greatest.1
    rw [isRow, Walk.atRow_y, mem_exactRows_iff] at member
    obtain ⟨positive, within, exact⟩ := member
    have found :=
      walkAt?_eq_atRow nonnegative (by omega : 1 ≤ target)
        (exactAt_earlier positive exact)
    obtain ⟨foundReached, foundGreatest⟩ := reached_of_walkAt? nonnegative found
    rw [found, reached.unique foundReached (greatest.unique foundGreatest)]

/--
On a ring with a radius of a million, the last exact row is two columns before
the diagonal.
-/
theorem walkAt?_eq_some_iff_diagonal :
    walkAt? 1000000 800000 = some ⟨707107, 707105, -209530⟩ ∧
      Walk.Reached 1000000 ⟨707107, 707105, -209530⟩ ∧
      IsGreatest (exactRows 1000000 800000) 707105 := by
  have found : walkAt? 1000000 800000 = some ⟨707107, 707105, -209530⟩ := by
    decide +kernel
  exact ⟨found, (walkAt?_eq_some_iff (by decide)).mp found⟩

end Ring

end PixelBrush
