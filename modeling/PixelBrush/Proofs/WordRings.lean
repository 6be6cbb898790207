import PixelBrush.Proofs.RoundRings
import PixelBrush.Proofs.WordRoots
import PixelBrush.Proofs.WordSearches
import PixelBrush.Proofs.WordStamps

namespace PixelBrush.Words

open Width Checked

/-!
# Rings in words

The walk of a ring is calculated with 64 bits, and its closed form with 128
bits, since it squares the radius.  The error term of the walk stays as small as
the radius: the column next to the walk on the outer side does not fit any more,
and the column of the walk itself fits or nearly fits.  So no step of a walk
leaves its words, and a ring in words is painted as the ring is.
-/

/-! ## The closed form of the walk -/

/--
The column of the walk at a row; a column that 64 bits do not hold counts as
none.
-/
def columnAt? (radius row : Int) : Checked (Option Int) := do
  let discriminant ← bits128.calculate
    (4 * (radius * radius - 2 * radius - row * row - 2 * row) + 9)
  if discriminant < 1 then
    return none
  else
    let number ← bits128.calculate (discriminant - 1)
    let root ← squareRoot number
    let column ← bits128.calculate ((root + 3) / 2)
    return bits64.keep column

/-- Whether the closed form of the column is exact at a row. -/
def exactAt (radius row : Int) : Checked Bool := do
  match ← columnAt? radius row with
  | none => return false
  | some column =>
      let least ← bits64.calculate (row + 2)
      return least ≤ column

/-- The last exact row up to a target, when the first one is exact. -/
def lastExact (radius target : Int) : Checked Int := do
  if ← exactAt radius target then
    return target
  else
    lastWhere (exactAt radius) target

/--
The state of the walk at a row; an error that 64 bits do not hold leaves none.
-/
def walkAtRow? (radius row : Int) : Checked (Option Ring.Walk) := do
  match ← columnAt? radius row with
  | none => return none
  | some column =>
      let error ← bits128.calculate
        (column * column + row * row - radius * radius + 2 * row +
          2 * radius - 2 * column)
      return (bits64.keep error).map fun error => ⟨column, row, error⟩

/-- The state of the walk at the last exact row up to a target. -/
def walkAt? (radius target : Int) : Checked (Option Ring.Walk) :=
  if target < 1 then
    return none
  else do
    if ← exactAt radius 1 then
      let row ← lastExact radius target
      walkAtRow? radius row
    else
      return none

/--
Before the diagonal the error term is not larger than the radius, up to a
constant.
-/
theorem error_bounds
    {radius : Int}
    (positive : 1 ≤ radius)
    (row : Nat)
    (inside : (row : Int) ≤ (Ring.Walk.atRow radius row).x) :
    -radius ≤ (Ring.Walk.atRow radius row).error ∧
      (Ring.Walk.atRow radius row).error ≤ radius + 2 := by
  have outermost := Ring.Walk.atRow_x_le radius row
  have fitting := (Ring.Walk.excess_le_two positive row inside).1
  rcases Int.lt_or_eq_of_le positive with wide | rfl
  · have outer := Ring.Walk.excess_outer_nonneg wide row
    have apart :
        Ring.excess radius ((Ring.Walk.atRow radius row).x + 1) row =
          Ring.excess radius (Ring.Walk.atRow radius row).x row +
            2 * (Ring.Walk.atRow radius row).x - 2 := by
      simp only [Ring.excess]
      ring
    rw [Ring.Walk.atRow_error]
    omega
  · -- The smallest ring is walked in its first row only.
    have crossed : (Ring.Walk.atRow 1 1).x = 0 := rfl
    have first : row = 0 := by
      have within : row = 0 ∨ row = 1 := by
        omega
      rcases within with zero | rfl
      · exact zero
      · omega
    subst first
    decide

section ClosedForm

variable
  {radius : Int}
  (positive : 1 ≤ radius)
  (largest : radius ≤ 2147483647)

include positive largest

/-- The column of a row in words is the column of the row. -/
theorem columnAt?_eq
    {row : Nat}
    (near : row ≤ 8589934592) :
    columnAt? radius row = some (Ring.columnAt? radius row) := by
  have radiusSquare := square_bounds (by omega) largest
  have rowSquare :=
    square_bounds (Int.natCast_nonneg row) (Int.ofNat_le.mpr near)
  have discriminant :
      bits128.calculate
          (4 *
            (radius * radius - 2 * radius - (row : Int) * (row : Int) -
              2 * (row : Int)) + 9) =
        some (4 * (radius * radius - 2 * radius - (row : Int) * row - 2 * row) +
          9) :=
    calculate_of_fits (by simp; omega)
  have small :
      4 * (radius * radius - 2 * radius - (row : Int) * row - 2 * row) + 9 ≤
        18446744073709551616 := by
    omega
  rw [columnAt?, bind_of_some discriminant, Ring.columnAt?]
  generalize
    4 * (radius * radius - 2 * radius - (row : Int) * row - 2 * row) + 9 =
      value at small ⊢
  split
  · rfl
  · rename_i solvable
    have number :
        bits128.calculate (value - 1) =
          some (((value - 1).toNat : Nat) : Int) := by
      rw [Int.toNat_of_nonneg (by omega)]
      exact calculate_of_fits (by simp; omega)
    rw [bind_of_some number, bind_of_some (squareRoot_eq (by omega))]
    have root_lt : PixelBrush.squareRoot (value - 1).toNat < 2 ^ 32 :=
      squareRoot_lt (by omega)
    generalize PixelBrush.squareRoot (value - 1).toNat = root at root_lt ⊢
    have column :
        bits128.calculate (((root : Int) + 3) / 2) =
          some (((root + 3) / 2 : Nat) : Int) := by
      have exact : ((root : Int) + 3).tdiv 2 = ((root + 3) / 2 : Nat) := by
        rw [Int.tdiv_eq_ediv_of_nonneg (by omega)]
        omega
      rw [← exact]
      exact calculate_of_fits (by simp; omega)
    rw [bind_of_some column, keep_of_holds (by simp; omega)]
    rfl

/-- The test for the closed form in words is the test. -/
theorem exactAt_eq
    {row : Nat}
    (near : row ≤ 8589934592) :
    exactAt radius row = some (Ring.exactAt radius row) := by
  rw [exactAt, bind_of_some (columnAt?_eq positive largest near), Ring.exactAt]
  cases Ring.columnAt? radius row with
  | none =>
      rfl
  | some column =>
      have least :
          bits64.calculate ((row : Int) + 2) = some ((row : Int) + 2) :=
        calculate_of_fits (by simp; omega)
      dsimp only
      rw [bind_of_some least]
      rfl

/-- The search in words finds the last exact row. -/
theorem lastExact_eq
    {target : Nat}
    (nonempty : 1 ≤ target)
    (near : target ≤ 8589934592) :
    lastExact radius target =
      some ((Ring.lastExact radius target : Nat) : Int) := by
  rw [lastExact, bind_of_some (exactAt_eq positive largest near),
    Ring.lastExact]
  cases Ring.exactAt radius target with
  | true =>
      rfl
  | false =>
      exact lastWhere_eq near
        (fun row _ within => exactAt_eq positive largest (by omega)) nonempty

/-- At an exact row the closed form in words is the state of the walk. -/
theorem walkAtRow?_eq
    {row : Nat}
    (near : row ≤ 8589934592)
    (wide : 2 ≤ radius)
    (exact : Ring.exactAt radius row = true) :
    walkAtRow? radius row = some (some (.atRow radius row)) := by
  have column := columnAt?_eq positive largest near
  rw [Ring.Walk.columnAt?_atRow wide exact] at column
  have far := Ring.Walk.far_of_exactAt wide exact
  have outermost := Ring.Walk.atRow_x_le radius row
  have rowShape := Ring.Walk.atRow_y radius row
  have errorShape := Ring.Walk.atRow_error radius row
  have bounds := error_bounds positive row (by omega)
  generalize Ring.Walk.atRow radius row = walk
    at column far outermost rowShape errorShape bounds ⊢
  obtain ⟨x, y, error⟩ := walk
  dsimp only at column far outermost rowShape errorShape bounds
  subst rowShape
  have columnSquare := square_bounds (by omega) (outermost.trans largest)
  have rowSquare :=
    square_bounds (Int.natCast_nonneg row) (Int.ofNat_le.mpr near)
  have radiusSquare := square_bounds (by omega) largest
  have calculated :
      bits128.calculate
          (x * x + (row : Int) * (row : Int) - radius * radius +
            2 * (row : Int) + 2 * radius -
            2 * x) =
        some error := by
    have exactError :
        x * x + (row : Int) * row - radius * radius + 2 * row +
          2 * radius - 2 * x = error := by
      rw [errorShape, Ring.excess]
      ring
    rw [← exactError]
    exact calculate_of_fits (by simp; omega)
  rw [walkAtRow?, bind_of_some column]
  dsimp only
  rw [bind_of_some calculated, keep_of_holds (by simp; omega)]
  rfl

/-- The closed form in words is the closed form. -/
theorem walkAt?_eq
    {target : Int}
    (near : target ≤ 8589934592) :
    walkAt? radius target = some (Ring.walkAt? radius target) := by
  unfold walkAt?
  by_cases early : target < 1
  · rw [if_pos early, Ring.walkAt?, if_pos (.inl early)]
    rfl
  · have firstEq : exactAt radius 1 = some (Ring.exactAt radius 1) :=
      exactAt_eq positive largest (by decide)
    rw [if_neg early, bind_of_some firstEq]
    cases first : Ring.exactAt radius 1 with
    | false =>
        have inexact : target < 1 ∨ ¬ Ring.exactAt radius 1 := by
          rw [first]
          exact .inr Bool.false_ne_true
        rw [if_neg Bool.false_ne_true, Ring.walkAt?, if_pos inexact]
        rfl
    | true =>
        obtain ⟨target, rfl⟩ := Int.eq_ofNat_of_zero_le (a := target) (by omega)
        have wide := Ring.wide_of_exactAt_one (by omega) first
        have nonempty : 1 ≤ target := by
          omega
        have closed :=
          Ring.walkAt?_eq_atRow (by omega) (Int.ofNat_le.mpr nonempty) first
        obtain ⟨_, within, exact, _⟩ :=
          Ring.lastExact_spec (Int.ofNat_le.mpr nonempty) first
        rw [Int.toNat_natCast] at closed within exact
        rw [if_pos rfl,
          bind_of_some (lastExact_eq positive largest nonempty (by omega)),
          closed]
        exact walkAtRow?_eq positive largest (by omega) wide exact

end ClosedForm

/-! ## Rows near the canvas -/

/-- The rows of a ring that can touch the canvas along one axis. -/
def bandsAround (low high center : Int) : Checked (List Ring.Band) := do
  let firstAfter ← bits64.calculate (max (low - center) 0)
  let lastAfter ← bits64.calculate (high - center)
  let firstBefore ← bits64.calculate (max (center - high) 0)
  let lastBefore ← bits64.calculate (center - low)
  return [⟨firstAfter, lastAfter⟩, ⟨firstBefore, lastBefore⟩]

/--
The rows outside which no point of the ring can touch the canvas with its stamp.
-/
def bands
    (ring : Ring)
    (size : Nat)
    (half : Int) :
    Checked (List Ring.Band) := do
  let low ← bits64.calculate (0 - half)
  let high ← bits64.calculate ((size : Int) - 1 + half)
  let columns ← bandsAround low high ring.center.x
  let rows ← bandsAround low high ring.center.y
  let found := columns ++ rows
  return Ring.Band.sort (found.filter fun band => band.first ≤ band.last)

/-- A ring that is near enough and wide enough to touch the canvas. -/
def mayTouch (ring : Ring) (size : Nat) (half : Int) : Checked Bool := do
  let far ← bits64.calculate ((size : Int) - 1)
  let nearest ← bits64.calculate
    (max (.magnitude (ring.center.x - min (max ring.center.x 0) (max far 0)))
      (.magnitude (ring.center.y - min (max ring.center.y 0) (max far 0))))
  let farthest ← bits64.calculate
    (max (.magnitude ring.center.x) (.magnitude (ring.center.x - far)) +
      max (.magnitude ring.center.y) (.magnitude (ring.center.y - far)))
  let outermost ← bits64.calculate (ring.radius + half + 1)
  let innermost ← bits64.calculate (ring.radius - 2 * half - 2)
  return nearest ≤ outermost && innermost ≤ farthest

/-! ## The walk -/

/--
The later state of the walk from which a band that starts further on is reached.
-/
def jump?
    (radius : Int)
    (walk : Ring.Walk)
    (target : Int) :
    Checked (Option Ring.Walk) :=
  if walk.y < target then do
    let later ← walkAt? radius target
    return later.filter fun later => walk.y < later.y
  else
    return none

/-- The eight points that a row of the walk stands for. -/
def octants (walk : Ring.Walk) (center : Point) : Checked (List Point) := do
  let right ← bits64.calculate (center.x + walk.x)
  let left ← bits64.calculate (center.x - walk.x)
  let nextRight ← bits64.calculate (center.x + walk.y)
  let nextLeft ← bits64.calculate (center.x - walk.y)
  let down ← bits64.calculate (center.y + walk.x)
  let up ← bits64.calculate (center.y - walk.x)
  let nextDown ← bits64.calculate (center.y + walk.y)
  let nextUp ← bits64.calculate (center.y - walk.y)
  return [⟨right, nextDown⟩, ⟨nextRight, down⟩, ⟨nextLeft, down⟩,
    ⟨left, nextDown⟩, ⟨left, nextUp⟩, ⟨nextLeft, up⟩, ⟨nextRight, up⟩,
    ⟨right, nextUp⟩]

/-- One row further, and one column inwards when the error asks for it. -/
def next (walk : Ring.Walk) : Checked Ring.Walk := do
  let y ← bits64.calculate (walk.y + 1)
  let error ← bits64.calculate (walk.error + (1 + 2 * y))
  let asked ← bits64.calculate (2 * (error - walk.x) + 1)
  if asked > 0 then
    let x ← bits64.calculate (walk.x - 1)
    let lessened ← bits64.calculate (error + (1 - 2 * x))
    return ⟨x, y, lessened⟩
  else
    return ⟨walk.x, y, error⟩

/--
The test of a walk doubles the error, so half of the largest word is already too
much.
-/
example : next ⟨0, 0, 4611686018427387904⟩ = none := by
  decide

/-- Stamps the eight points of one row of a walk. -/
def stampOctants
    (canvas : Canvas)
    (walk : Ring.Walk)
    (center : Point)
    (color : Color)
    (size : Int) :
    Checked Canvas := do
  let points ← octants walk center
  points.foldlM (fun canvas point => stamp canvas point color size) canvas

/-- A canvas and the walk of a ring on it. -/
structure Walking where
  canvas : Canvas
  walk : Ring.Walk

/--
Jumps to the next band or paints a row, until the walk has crossed the diagonal.
-/
def walkFurther
    (ring : Ring)
    (bands : List Ring.Band)
    (color : Color)
    (size : Int)
    (walking : Walking) :
    Checked (Option Walking) :=
  if walking.walk.y ≤ walking.walk.x then
    match Ring.nextBand? bands walking.walk.y with
    | none => return none
    | some target => do
        match ← jump? ring.radius walking.walk target with
        | some later => return some ⟨walking.canvas, later⟩
        | none =>
            let painted ← stampOctants walking.canvas walking.walk
              ring.center color size
            let later ← next walking.walk
            return some ⟨painted, later⟩
  else
    return none

/-- The closed form calculates with the row of the state that it gives. -/
theorem y_lt_of_walkAtRow?
    {radius row : Int}
    {later : Ring.Walk}
    (found : walkAtRow? radius row = some (some later)) :
    later.y < bits128.bound := by
  obtain ⟨column?, _, found⟩ := Option.bind_eq_some_iff.mp found
  cases column? with
  | none =>
      cases found
  | some column =>
      obtain ⟨fits, found⟩ := of_calculate_bind found
      obtain ⟨error, _, rfl⟩ :=
        Option.map_eq_some_iff.mp (Option.some.inj found)
      simp at fits ⊢
      omega

/-- A row that is found is a word. -/
theorem y_lt_of_walkAt?
    {radius target : Int}
    {later : Ring.Walk}
    (found : walkAt? radius target = some (some later)) :
    later.y < bits128.bound := by
  unfold walkAt? at found
  split at found
  · cases found
  · obtain ⟨first, _, found⟩ := Option.bind_eq_some_iff.mp found
    cases first with
    | false =>
        cases found
    | true =>
        obtain ⟨row, _, found⟩ := Option.bind_eq_some_iff.mp found
        exact y_lt_of_walkAtRow? found

/-- A jump goes to a later row. -/
theorem y_of_jump?
    {radius target : Int}
    {walk later : Ring.Walk}
    (jumped : jump? radius walk target = some (some later)) :
    walk.y < later.y ∧ later.y < bits128.bound := by
  unfold jump? at jumped
  split at jumped
  · obtain ⟨closed, found, jumped⟩ := Option.bind_eq_some_iff.mp jumped
    obtain ⟨rfl, forward⟩ :=
      Option.filter_eq_some_iff.mp (Option.some.inj jumped)
    exact ⟨of_decide_eq_true forward, y_lt_of_walkAt? found⟩
  · cases jumped

/-- A step goes to the next row. -/
theorem y_of_next
    {walk later : Ring.Walk}
    (stepped : next walk = some later) :
    walk.y < later.y ∧ later.y < bits128.bound := by
  obtain ⟨fits, stepped⟩ := of_calculate_bind stepped
  obtain ⟨_, stepped⟩ := of_calculate_bind stepped
  obtain ⟨_, stepped⟩ := of_calculate_bind stepped
  simp at fits
  split at stepped
  · obtain ⟨_, stepped⟩ := of_calculate_bind stepped
    obtain ⟨_, stepped⟩ := of_calculate_bind stepped
    cases stepped
    simp
    omega
  · cases stepped
    simp
    omega

/-- Each round of the walk comes closer to the largest word. -/
theorem walkFurther_decreases
    {ring : Ring}
    {bands : List Ring.Band}
    {color : Color}
    {size : Int}
    {walking after : Walking}
    (walked : walkFurther ring bands color size walking = some (some after)) :
    (bits128.bound - after.walk.y).toNat <
      (bits128.bound - walking.walk.y).toNat := by
  have forward :
      walking.walk.y < after.walk.y ∧ after.walk.y < bits128.bound := by
    unfold walkFurther at walked
    split at walked
    · split at walked
      · cases walked
      · obtain ⟨jumped, found, walked⟩ := Option.bind_eq_some_iff.mp walked
        cases jumped with
        | some later =>
            cases walked
            exact y_of_jump? found
        | none =>
            obtain ⟨painted, _, walked⟩ := Option.bind_eq_some_iff.mp walked
            obtain ⟨later, stepped, walked⟩ := Option.bind_eq_some_iff.mp walked
            cases walked
            exact y_of_next stepped
    · cases walked
  omega

/-- The walk of a ring. -/
def ringWalk
    (ring : Ring)
    (bands : List Ring.Band)
    (color : Color)
    (size : Int) :
    Loop Walking where
  step := walkFurther ring bands color size
  variant walking := (bits128.bound - walking.walk.y).toNat
  decreases := walkFurther_decreases

/-- Draws a ring. -/
def drawRing
    (canvas : Canvas)
    (ring : Ring)
    (color : Color)
    (size : Int) :
    Checked Canvas := do
  let half ← reach size
  if ← mayTouch ring canvas.size half then
    let bands ← bands ring canvas.size half
    let walked ← (ringWalk ring bands color size).run
      ⟨canvas, .start ring.radius⟩
    return walked.canvas
  else
    return canvas

/-! ## Drawing in words is drawing -/

/-- The rings that a brush can be asked for. -/
structure Admitted (ring : Ring) : Prop where
  column : Number.InRange ring.center.x
  row : Number.InRange ring.center.y
  positive : 1 ≤ ring.radius
  largest : ring.radius ≤ 2147483647

/-- The two bands around a center fit into words. -/
theorem bandsAround_eq
    {low high center : Int}
    (lowest : -2147483648 ≤ low ∧ low ≤ 2147483648)
    (highest : -2147483648 ≤ high ∧ high ≤ 2147483648)
    (inRange : Number.InRange center) :
    bandsAround low high center =
      some [⟨max (low - center) 0, high - center⟩,
        ⟨max (center - high) 0, center - low⟩] := by
  unfold Number.InRange at inRange
  have firstAfter :
      bits64.calculate (max (low - center) 0) = some (max (low - center) 0) :=
    calculate_of_fits (by simp; omega)
  have lastAfter : bits64.calculate (high - center) = some (high - center) :=
    calculate_of_fits (by simp; omega)
  have firstBefore :
      bits64.calculate (max (center - high) 0) = some (max (center - high) 0) :=
    calculate_of_fits (by simp; omega)
  have lastBefore : bits64.calculate (center - low) = some (center - low) :=
    calculate_of_fits (by simp; omega)
  rw [bandsAround, bind_of_some firstAfter, bind_of_some lastAfter,
    bind_of_some firstBefore, bind_of_some lastBefore]
  rfl

section Bands

variable
  {ring : Ring}
  (admitted : Admitted ring)
  {size : Nat}
  (side : size ≤ 512)
  {half : Int}
  (bounds : -1073741824 ≤ half ∧ half ≤ 1073741824)

include admitted side bounds

/-- The bands of a ring in words are its bands. -/
theorem bands_eq :
    bands ring size half = some (ring.bands size half) := by
  obtain ⟨low, high⟩ := edges_eq side bounds
  have lowest : -2147483648 ≤ -half ∧ -half ≤ 2147483648 := by
    omega
  have highest :
      -2147483648 ≤ (size : Int) - 1 + half ∧
        (size : Int) - 1 + half ≤ 2147483648 := by
    omega
  rw [bands, bind_of_some low, bind_of_some high,
    bind_of_some (bandsAround_eq lowest highest admitted.column),
    bind_of_some (bandsAround_eq lowest highest admitted.row)]
  rfl

/-- No band starts further away than the largest distance. -/
theorem first_le_of_mem_bands
    {band : Ring.Band}
    (member : band ∈ ring.bands size half) :
    band.first ≤ 8589934592 := by
  have column := admitted.column
  have row := admitted.row
  unfold Number.InRange at column row
  obtain ⟨shape, _⟩ := Ring.mem_bands_iff.mp member
  rcases shape with rfl | rfl | rfl | rfl <;> dsimp only <;> omega

/-- The test whether a ring may touch the canvas is the test in words. -/
theorem mayTouch_eq :
    mayTouch ring size half = some (ring.mayTouch size half) := by
  obtain ⟨column, row, positive, largest⟩ := admitted
  unfold Number.InRange at column row
  have far : bits64.calculate ((size : Int) - 1) = some ((size : Int) - 1) :=
    calculate_of_fits (by simp; omega)
  rw [mayTouch, bind_of_some far, Ring.mayTouch]
  generalize farEdge : (size : Int) - 1 = edge
  have nearest :
      bits64.calculate
          (max
            (.magnitude
              (ring.center.x - min (max ring.center.x 0) (max edge 0)))
            (.magnitude
              (ring.center.y - min (max ring.center.y 0) (max edge 0)))) =
        some
          (max (ring.center.x - min (max ring.center.x 0) (max edge 0)).natAbs
            (ring.center.y - min (max ring.center.y 0) (max edge 0)).natAbs :
              Int) :=
    calculate_of_fits (by simp; omega)
  have farthest :
      bits64.calculate
          (max (.magnitude ring.center.x) (.magnitude (ring.center.x - edge)) +
            max (.magnitude ring.center.y)
              (.magnitude (ring.center.y - edge))) =
        some
          (max (ring.center.x.natAbs : Int) (ring.center.x - edge).natAbs +
            max (ring.center.y.natAbs : Int) (ring.center.y - edge).natAbs) :=
    calculate_of_fits (by simp; omega)
  have outermost :
      bits64.calculate (ring.radius + half + 1) =
        some (ring.radius + half + 1) :=
    calculate_of_fits (by simp; omega)
  have innermost :
      bits64.calculate (ring.radius - 2 * half - 2) =
        some (ring.radius - 2 * half - 2) :=
    calculate_of_fits (by simp; omega)
  rw [bind_of_some nearest, bind_of_some farthest, bind_of_some outermost,
    bind_of_some innermost, ← Nat.cast_max, ← Nat.cast_max, ← Nat.cast_max]
  rfl

end Bands

/-- A row or a column next to the center, on either side of it. -/
theorem calculate_beside
    {center offset : Int}
    (inRange : Number.InRange center)
    (nonnegative : 0 ≤ offset)
    (largest : offset ≤ 2147483647) :
    bits64.calculate (center + offset) = some (center + offset) ∧
      bits64.calculate (center - offset) = some (center - offset) := by
  unfold Number.InRange at inRange
  exact ⟨calculate_of_fits (by simp; omega), calculate_of_fits (by simp; omega)⟩

section Walk

variable
  {walk : Ring.Walk}
  (forward : 0 ≤ walk.y)
  (inside : walk.y ≤ walk.x)
  (largest : walk.x ≤ 2147483647)

include forward inside largest

/-- A step of the walk in words is the step, while the error fits. -/
theorem next_eq
    (lower : -2147483647 ≤ walk.error)
    (upper : walk.error ≤ 2147483649) :
    next walk = some walk.next := by
  obtain ⟨x, y, error⟩ := walk
  dsimp only at forward inside largest lower upper
  have row : bits64.calculate (y + 1) = some (y + 1) :=
    calculate_of_fits (by simp; omega)
  rw [next, bind_of_some row, Ring.Walk.next]
  dsimp only
  generalize nextRow : y + 1 = later
  have raised :
      bits64.calculate (error + (1 + 2 * later)) =
        some (error + (1 + 2 * later)) :=
    calculate_of_fits (by simp; omega)
  rw [bind_of_some raised]
  generalize nextError : error + (1 + 2 * later) = after
  have asked :
      bits64.calculate (2 * (after - x) + 1) = some (2 * (after - x) + 1) :=
    calculate_of_fits (by simp; omega)
  rw [bind_of_some asked]
  split
  · have column : bits64.calculate (x - 1) = some (x - 1) :=
      calculate_of_fits (by simp; omega)
    rw [bind_of_some column]
    generalize inwards : x - 1 = inner
    have lessened :
        bits64.calculate (after + (1 - 2 * inner)) =
          some (after + (1 - 2 * inner)) :=
      calculate_of_fits (by simp; omega)
    rw [bind_of_some lessened]
    rfl
  · rfl

variable
  {center : Point}
  (column : Number.InRange center.x)
  (row : Number.InRange center.y)

include column row

/-- The points of a row are near when the center is. -/
theorem near_of_mem_octants
    {point : Point}
    (member : point ∈ walk.octants center) :
    Near point := by
  unfold Number.InRange at column row
  simp only [Ring.Walk.octants, List.mem_cons, List.not_mem_nil,
    or_false] at member
  unfold Near
  rcases member with
    rfl | rfl | rfl | rfl | rfl | rfl | rfl | rfl <;> dsimp only <;> omega

/-- The eight points of a row fit into words. -/
theorem octants_eq :
    octants walk center = some (walk.octants center) := by
  obtain ⟨right, left⟩ := calculate_beside column (forward.trans inside) largest
  obtain ⟨nextRight, nextLeft⟩ :=
    calculate_beside column forward (inside.trans largest)
  obtain ⟨down, up⟩ := calculate_beside row (forward.trans inside) largest
  obtain ⟨nextDown, nextUp⟩ :=
    calculate_beside row forward (inside.trans largest)
  rw [octants, bind_of_some right, bind_of_some left, bind_of_some nextRight,
    bind_of_some nextLeft, bind_of_some down, bind_of_some up,
    bind_of_some nextDown, bind_of_some nextUp]
  rfl

/-- Stamping them in words is stamping them. -/
theorem stampOctants_eq
    {canvas : Canvas}
    (color : Color)
    {size : Int}
    (side : canvas.size ≤ 512)
    (inRange : Number.InRange size) :
    stampOctants canvas walk center color size =
      some (canvas.stampOctants walk center color size) := by
  rw [stampOctants, bind_of_some (octants_eq forward inside largest column row)]
  apply foldlM_eq side
  · intro canvas point
    exact (Canvas.Painted.stamp canvas point color size).size_eq
  · intro canvas side point member
    exact stamp_eq color side
      (near_of_mem_octants forward inside largest column row member)
      inRange

end Walk

/-- A jump in words is a jump, wherever the walk stands. -/
theorem jump?_eq
    {radius target : Int}
    (positive : 1 ≤ radius)
    (largest : radius ≤ 2147483647)
    (near : target ≤ 8589934592)
    (row : Nat) :
    jump? radius (.atRow radius row) target =
      some (Ring.jump? radius (.atRow radius row) target) := by
  rw [Ring.jump?_atRow (by omega), jump?]
  split
  · rw [bind_of_some (walkAt?_eq positive largest near)]
    rfl
  · rfl

section Walking

variable
  {ring : Ring}
  (admitted : Admitted ring)
  {bands : List Ring.Band}
  (near : ∀ band ∈ bands, band.first ≤ 8589934592)
  (color : Color)
  {size : Int}
  (inRange : Number.InRange size)

/--
The part of a walk that is left, with the canvas that the whole walk leaves.
-/
def Walks
    (ring : Ring)
    (bands : List Ring.Band)
    (color : Color)
    (size : Int)
    (whole : Canvas)
    (walking : Walking) :
    Prop :=
  walking.canvas.size ≤ 512 ∧
    (∃ row : Nat, walking.walk = .atRow ring.radius row) ∧
    walking.canvas.walkRing ring bands color size walking.walk = whole

/-- The next band is one of the bands. -/
theorem target_le
    (near : ∀ band ∈ bands, band.first ≤ 8589934592)
    {row target : Int}
    (found : Ring.nextBand? bands row = some target) :
    target ≤ 8589934592 := by
  obtain ⟨band, isNext, rfl⟩ := Option.map_eq_some_iff.mp found
  exact near band (List.mem_of_find?_eq_some isNext)

include admitted near inRange

/--
A step ends with the canvas of the whole walk, or leaves a part of the walk.
-/
theorem walks_walkFurther
    {whole : Canvas}
    {walking : Walking}
    (walks : Walks ring bands color size whole walking) :
    (walkFurther ring bands color size walking = some none ∧
      walking.canvas = whole) ∨
      ∃ after,
        walkFurther ring bands color size walking = some (some after) ∧
          Walks ring bands color size whole after := by
  obtain ⟨canvas, walk⟩ := walking
  obtain ⟨side, ⟨row, walkShape⟩, same⟩ := walks
  obtain ⟨column, line, positive, largest⟩ := admitted
  dsimp only at side walkShape same
  subst walkShape
  have rowShape := Ring.Walk.atRow_y ring.radius row
  have outermost := Ring.Walk.atRow_x_le ring.radius row
  unfold walkFurther
  dsimp only
  rw [Canvas.walkRing] at same
  by_cases inside :
    (Ring.Walk.atRow ring.radius row).y ≤ (Ring.Walk.atRow ring.radius row).x
  · rw [if_pos inside] at same ⊢
    cases found : Ring.nextBand? bands (Ring.Walk.atRow ring.radius row).y with
    | none =>
        rw [found] at same
        exact .inl ⟨rfl, same⟩
    | some target =>
        right
        rw [found] at same
        dsimp only at same ⊢
        rw [bind_of_some (jump?_eq positive largest (target_le near found) row)]
        split at same
        · rename_i later jumped
          obtain ⟨closed, _⟩ := Ring.jump?_spec jumped
          obtain ⟨laterRow, _, _, isLater, _⟩ :=
            Ring.walkAt?_spec (by omega) closed
          rw [jumped]
          exact ⟨⟨canvas, later⟩, rfl, side, ⟨laterRow, isLater⟩, same⟩
        · rename_i stays
          have bounds := error_bounds positive row (by omega)
          have painted :=
            stampOctants_eq (by omega) inside (by omega) column line
              color side inRange
          have stepped :=
            next_eq (by omega) inside (by omega) (by omega) (by omega)
          rw [stays]
          dsimp only
          rw [bind_of_some painted, bind_of_some stepped]
          have kept :=
            (Canvas.Painted.stampOctants canvas (.atRow ring.radius row)
              ring.center color
              size).size_eq
          refine
            ⟨⟨canvas.stampOctants (.atRow ring.radius row)
              ring.center color size,
                (Ring.Walk.atRow ring.radius row).next⟩,
              rfl, kept.trans_le side, ⟨row + 1, rfl⟩, ?_⟩
          dsimp only
          exact same
  · rw [if_neg inside] at same ⊢
    exact .inl ⟨rfl, same⟩

end Walking

/-- Drawing a ring in words is drawing the ring. -/
theorem drawRing_eq
    {canvas : Canvas}
    {ring : Ring}
    (color : Color)
    {size : Int}
    (side : canvas.size ≤ 512)
    (admitted : Admitted ring)
    (inRange : Number.InRange size) :
    drawRing canvas ring color size =
      some (canvas.drawRing ring color size) := by
  have bounds := reach_bounds inRange
  rw [drawRing, bind_of_some (reach_eq inRange),
    bind_of_some (mayTouch_eq admitted side bounds), Canvas.drawRing]
  split
  · rw [bind_of_some (bands_eq admitted side bounds)]
    obtain ⟨walked, runs, isWhole⟩ :=
      (ringWalk ring (ring.bands canvas.size (Canvas.reach size)) color
        size).exists_run
        (Walks ring (ring.bands canvas.size (Canvas.reach size)) color size
          (canvas.walkRing ring
            (ring.bands canvas.size (Canvas.reach size)) color size
            (.start ring.radius)))
        _
        (fun _ => walks_walkFurther admitted
          (fun _ => first_le_of_mem_bands admitted side bounds) color inRange)
        (⟨side, ⟨0, rfl⟩, rfl⟩ : Walks _ _ _ _ _ ⟨canvas, .start ring.radius⟩)
    rw [bind_of_some runs, isWhole]
    rfl
  · rfl

end PixelBrush.Words
