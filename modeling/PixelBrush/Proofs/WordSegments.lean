import PixelBrush.Proofs.SegmentWalk
import PixelBrush.Proofs.WordSearches
import PixelBrush.Proofs.WordStamps

namespace PixelBrush.Words

open Width Checked

/-!
# Segments and boxes in words

The steps along a segment are numbered with words of 64 bits, and the share of a
step is calculated with 128 bits and narrowed again.  Bisection finds the steps
that are visible.  Between points that are not much farther away than a brush
can be, every value fits, so segments and boxes in words are the ones on exact
integers.
-/

/-- What the steps along a segment are calculated from. -/
structure Course where
  origin : Point
  width : Int
  height : Int
  headingX : Int
  headingY : Int
  deriving Repr, DecidableEq

/-- The course of a segment. -/
def Course.ofSegment (segment : Segment) : Checked Course := do
  let width ← bits64.calculate (.magnitude (segment.stop.x - segment.start.x))
  let height ← bits64.calculate (.magnitude (segment.stop.y - segment.start.y))
  return ⟨segment.start, width, height,
    Segment.heading segment.start.x segment.stop.x,
    Segment.heading segment.start.y segment.stop.y⟩

/--
The share `k * minor / major`, calculated with 128 bits and narrowed to 64.
-/
def share (k minor major : Int) : Checked Int :=
  if major = 0 then
    return 0
  else do
    let part ← bits128.calculate ((2 * k * minor + major - 1) / (2 * major))
    bits64.keep part

namespace Course

/-- The point after `k` steps. -/
def point (course : Course) (k : Int) : Checked Point :=
  if course.height ≤ course.width then do
    let x ← bits64.calculate (course.origin.x + course.headingX * k)
    let rows ← share k course.height course.width
    let y ← bits64.calculate (course.origin.y + course.headingY * rows)
    return ⟨x, y⟩
  else do
    let columns ← share k course.width course.height
    let x ← bits64.calculate (course.origin.x + course.headingX * columns)
    let y ← bits64.calculate (course.origin.y + course.headingY * k)
    return ⟨x, y⟩

/-- The first step whose point passes a test. -/
def firstAt (course : Course) (test : Point → Bool) : Checked Int :=
  firstWhere
    (fun k => do
      let point ← course.point k
      return test point)
    (max course.width course.height)

/-- The first and the last step at which a coordinate is between two bounds. -/
def window
    (course : Course)
    (coordinate : Point → Int)
    (direction low high : Int) :
    Checked Range := do
  let first ← course.firstAt fun point =>
    if 0 < direction then low ≤ coordinate point else coordinate point ≤ high
  let beyond ← course.firstAt fun point =>
    if 0 < direction then high < coordinate point else coordinate point < low
  let last ← bits64.calculate (beyond - 1)
  return ⟨first, last⟩

end Course

/-- Stamps `count` points of a segment, starting at step `k`. -/
def stampSteps
    (canvas : Canvas)
    (course : Course)
    (color : Color)
    (size k : Int) :
    Nat → Checked Canvas
  | 0 => return canvas
  | count + 1 => do
      let point ← course.point k
      let stamped ← stamp canvas point color size
      stampSteps stamped course color size (k + 1) count

/-- Draws a segment, both ends included. -/
def drawSegment
    (canvas : Canvas)
    (segment : Segment)
    (color : Color)
    (size : Int) :
    Checked Canvas := do
  let course ← Course.ofSegment segment
  let half ← reach size
  let low ← bits64.calculate (0 - half)
  let high ← bits64.calculate ((canvas.size : Int) - 1 + half)
  let columns ← course.window Point.x course.headingX low high
  let rows ← course.window Point.y course.headingY low high
  let first := max columns.low rows.low
  let last := min columns.high rows.high
  stampSteps canvas course color size first (last - first + 1).toNat

/-- Draws the outline of a box around a point as four segments. -/
def drawBox
    (canvas : Canvas)
    (center : Point)
    (width height : Int)
    (color : Color)
    (size : Int) :
    Checked Canvas := do
  let left ← bits64.calculate (center.x - width / 2)
  let right ← bits64.calculate (center.x + width / 2)
  let top ← bits64.calculate (center.y - height / 2)
  let bottom ← bits64.calculate (center.y + height / 2)
  let sides : List Segment :=
    [⟨⟨left, top⟩, ⟨right, top⟩⟩, ⟨⟨right, top⟩, ⟨right, bottom⟩⟩,
      ⟨⟨right, bottom⟩, ⟨left, bottom⟩⟩, ⟨⟨left, bottom⟩, ⟨left, top⟩⟩]
  sides.foldlM (fun canvas side => drawSegment canvas side color size) canvas

/-! ### Every step fits -/

/-- No share is larger than the whole. -/
theorem share_le
    {k minor major : Nat}
    (within : k ≤ major) :
    Segment.share k minor major ≤ minor := by
  rcases Nat.eq_zero_or_pos major with rfl | positive
  · exact Nat.zero_le minor
  · have most := Segment.share_mono minor major within
    rwa [Segment.share_full positive] at most

/-- A share in words is the share. -/
theorem share_eq
    {k minor major : Nat}
    (within : k ≤ major)
    (narrow : minor ≤ major)
    (bounded : major ≤ 8589934592) :
    share k minor major = some ((Segment.share k minor major : Nat) : Int) := by
  have atMost : Segment.share k minor major ≤ minor := share_le within
  unfold share Segment.share at *
  by_cases none : major = 0
  · rw [if_pos none, if_pos (Int.natCast_eq_zero.mpr none)]
    rfl
  · rw [if_neg none] at atMost ⊢
    rw [if_neg (mt Int.natCast_eq_zero.mp none)]
    have product : 2 * k * minor ≤ 2 * 8589934592 * 8589934592 :=
      Nat.mul_le_mul (by omega) (by omega)
    have dividend :
        2 * (k : Int) * minor + major - 1 =
          (2 * k * minor + major - 1 : Nat) := by
      rw [Nat.cast_sub (by omega)]
      push_cast
      rfl
    have quotient :
        (2 * (k : Int) * minor + major - 1).tdiv (2 * major) =
          ((2 * k * minor + major - 1) / (2 * major) : Nat) := by
      rw [dividend, Int.ofNat_tdiv]
      push_cast
      rfl
    generalize (2 * k * minor + major - 1) / (2 * major) = part
      at atMost quotient ⊢
    have products : ((2 * k * minor : Nat) : Int) = 2 * (k : Int) * minor := by
      push_cast
      rfl
    have calculated :
        bits128.calculate
            ((2 * (k : Int) * (minor : Int) + (major : Int) - 1) /
              (2 * (major : Int))) =
          some (part : Int) := by
      rw [← quotient]
      exact calculate_of_fits (by simp [quotient]; omega)
    rw [bind_of_some calculated]
    exact keep_of_holds (by simp; omega)

/-- A coordinate on the way from one value to another stays between them. -/
theorem advance_bounds
    {start stop : Int}
    {passed : Nat}
    (within : passed ≤ (stop - start).natAbs) :
    min start stop ≤ start + Segment.heading start stop * passed ∧
      start + Segment.heading start stop * passed ≤ max start stop := by
  unfold Segment.heading
  split <;> omega

/-- A coordinate on the way fits into a word. -/
theorem advance_eq
    {start stop : Int}
    {passed : Nat}
    (within : passed ≤ (stop - start).natAbs)
    (startBounds : -4294967296 ≤ start ∧ start ≤ 4294967296)
    (stopBounds : -4294967296 ≤ stop ∧ stop ≤ 4294967296) :
    bits64.calculate (start + Segment.heading start stop * (passed : Int)) =
      some (start + Segment.heading start stop * passed) := by
  apply calculate_of_fits
  unfold Segment.heading
  split
  · simp
    omega
  · simp
    omega

section Segments

variable
  {segment : Segment}
  {k : Nat}

/-- No coordinate passes more than lies between the ends. -/
theorem passed_le
    (inside : k ≤ segment.steps) :
    segment.columnsPassed k ≤ segment.width ∧
      segment.rowsPassed k ≤ segment.height := by
  unfold Segment.steps at inside
  unfold Segment.columnsPassed Segment.rowsPassed
  split
  · exact ⟨by omega, share_le (by omega)⟩
  · exact ⟨share_le (by omega), by omega⟩

/-- The course of a segment on exact integers. -/
def courseOf (segment : Segment) : Course :=
  ⟨segment.start, segment.width, segment.height,
    Segment.heading segment.start.x segment.stop.x,
    Segment.heading segment.start.y segment.stop.y⟩

variable
  (nearStart : Near segment.start)
  (nearStop : Near segment.stop)

include nearStart nearStop

/-- The points on the way between points that are near are near. -/
theorem near_point
    (inside : k ≤ segment.steps) :
    Near (segment.point k) := by
  obtain ⟨columns, rows⟩ := passed_le inside
  have column := advance_bounds columns
  have row := advance_bounds rows
  unfold Near at *
  unfold Segment.point
  rw [Segment.column_eq, Segment.row_eq]
  dsimp only
  omega

/-- How many steps such a segment has at most. -/
theorem steps_le :
    segment.steps ≤ 8589934592 := by
  unfold Near at *
  unfold Segment.steps Segment.width Segment.height
  omega

/-- The course of a segment fits into words. -/
theorem ofSegment_eq :
    Course.ofSegment segment = some (courseOf segment) := by
  unfold Near at *
  have width :
      bits64.calculate (.magnitude (segment.stop.x - segment.start.x)) =
        some (segment.width : Int) :=
    calculate_of_fits (by simp; omega)
  have height :
      bits64.calculate (.magnitude (segment.stop.y - segment.start.y)) =
        some (segment.height : Int) :=
    calculate_of_fits (by simp; omega)
  rw [Course.ofSegment, bind_of_some width, bind_of_some height]
  rfl

/-- A point of the course in words is the point of the segment. -/
theorem point_eq
    (inside : k ≤ segment.steps) :
    (courseOf segment).point k = some (segment.point k) := by
  obtain ⟨columns, rows⟩ := passed_le inside
  have bounded := steps_le nearStart nearStop
  have column :=
    advance_eq columns ⟨nearStart.1, nearStart.2.1⟩ ⟨nearStop.1, nearStop.2.1⟩
  have row := advance_eq rows nearStart.2.2 nearStop.2.2
  unfold Segment.steps at inside bounded
  unfold Segment.columnsPassed at column
  unfold Segment.rowsPassed at row
  unfold Course.point courseOf
  dsimp only
  by_cases flat : segment.height ≤ segment.width
  · rw [if_pos flat] at column row
    rw [if_pos (Int.ofNat_le.mpr flat)]
    have passed := share_eq (by omega : k ≤ segment.width) flat (by omega)
    rw [bind_of_some column, bind_of_some passed, bind_of_some row]
    unfold Segment.point Segment.column Segment.row
    rw [if_pos flat, if_pos flat]
    rfl
  · rw [if_neg flat] at column row
    rw [if_neg (mt Int.ofNat_le.mp flat)]
    have narrow : segment.width ≤ segment.height := by
      omega
    have passed := share_eq (by omega : k ≤ segment.height) narrow (by omega)
    rw [bind_of_some passed, bind_of_some column, bind_of_some row]
    unfold Segment.point Segment.column Segment.row
    rw [if_neg flat, if_neg flat]
    rfl

/--
The search for the first step that passes a test finds it in words as well.
-/
theorem firstAt_eq (test : Point → Bool) :
    (courseOf segment).firstAt test =
      some
        ((PixelBrush.firstWhere (fun k => test (segment.point k)) 0
          (segment.steps + 1) : Nat) :
          Int) := by
  have steps :
      max (courseOf segment).width (courseOf segment).height =
        segment.steps := by
    simp only [courseOf, Segment.steps]
    omega
  rw [Course.firstAt, steps]
  apply firstWhere_eq (steps_le nearStart nearStop)
  intro k inside
  rw [bind_of_some (point_eq nearStart nearStop inside)]
  rfl

/-- The window of a coordinate in words, which includes its last step. -/
theorem window_eq
    (coordinate : Point → Int)
    (direction low high : Int) :
    let window :=
      Segment.window (fun k => coordinate (segment.point k)) direction low high
        segment.steps
    (courseOf segment).window coordinate direction low high =
      some ⟨window.first, (window.stop : Int) - 1⟩ := by
  have bounded := steps_le nearStart nearStop
  have last (holds : Nat → Bool) :
      let stop := PixelBrush.firstWhere holds 0 (segment.steps + 1)
      bits64.calculate ((stop : Int) - 1) = some ((stop : Int) - 1) := by
    have within := (firstWhere_bounds holds (Nat.zero_le (segment.steps + 1))).2
    exact calculate_of_fits (by simp; omega)
  have first := firstAt_eq nearStart nearStop
  unfold Course.window Segment.window
  by_cases forward : 0 < direction
  · simp only [if_pos forward]
    rw [bind_of_some (first _), bind_of_some (first _), bind_of_some (last _)]
    rfl
  · simp only [if_neg forward]
    rw [bind_of_some (first _), bind_of_some (first _), bind_of_some (last _)]
    rfl

/-- The window of the columns in words is the window. -/
theorem columns_eq (direction low high : Int) :
    let window := Segment.window segment.column direction low high segment.steps
    (courseOf segment).window Point.x direction low high =
      some ⟨window.first, (window.stop : Int) - 1⟩ :=
  window_eq nearStart nearStop Point.x direction low high

/-- So is the window of the rows. -/
theorem rows_eq (direction low high : Int) :
    let window := Segment.window segment.row direction low high segment.steps
    (courseOf segment).window Point.y direction low high =
      some ⟨window.first, (window.stop : Int) - 1⟩ :=
  window_eq nearStart nearStop Point.y direction low high

/-- Stamping steps of a segment in words is stamping them. -/
theorem stampSteps_eq
    {canvas : Canvas}
    (color : Color)
    {size : Int}
    (side : canvas.size ≤ 512)
    (inRange : Number.InRange size)
    {count : Nat}
    (inside : ∀ step, k ≤ step → step < k + count → step ≤ segment.steps) :
    stampSteps canvas (courseOf segment) color size k count =
      some (canvas.stampSteps segment color size k count) := by
  induction count generalizing canvas k with
  | zero =>
      rfl
  | succ count inductionHypothesis =>
      have first : k ≤ segment.steps := inside k (Nat.le_refl k) (by omega)
      have sameSide :=
        (Canvas.Painted.stamp canvas (segment.point k) color size).size_eq
      have next : (k : Int) + 1 = (k + 1 : Nat) := rfl
      rw [stampSteps, bind_of_some (point_eq nearStart nearStop first),
        bind_of_some
          (stamp_eq color side (near_point nearStart nearStop first) inRange),
        next]
      apply inductionHypothesis
      · rw [sameSide]
        exact side
      · intro step reached below
        exact inside step (by omega) (by omega)

/-- Drawing a segment in words is drawing it. -/
theorem drawSegment_eq
    {canvas : Canvas}
    (color : Color)
    {size : Int}
    (side : canvas.size ≤ 512)
    (inRange : Number.InRange size) :
    drawSegment canvas segment color size =
      some (canvas.drawSegment segment color size) := by
  have within := (segment.visible_le canvas.size (Canvas.reach size)).2
  obtain ⟨low, high⟩ := edges_eq side (reach_bounds inRange)
  rw [drawSegment, bind_of_some (ofSegment_eq nearStart nearStop),
    bind_of_some (reach_eq inRange), bind_of_some low, bind_of_some high,
    bind_of_some (columns_eq nearStart nearStop ..),
    bind_of_some (rows_eq nearStart nearStop ..)]
  unfold Canvas.drawSegment
  unfold Segment.visible at within ⊢
  dsimp only [courseOf] at within ⊢
  generalize Segment.window segment.column _ _ _ _ = columns at within ⊢
  generalize Segment.window segment.row _ _ _ _ = rows at within ⊢
  have first :
      max (columns.first : Int) rows.first =
        (max columns.first rows.first : Nat) := by
    omega
  have count :
      (min ((columns.stop : Int) - 1) ((rows.stop : Int) - 1) -
          max (columns.first : Int) rows.first + 1).toNat =
        min columns.stop rows.stop - max columns.first rows.first := by
    omega
  rw [count, first]
  apply stampSteps_eq nearStart nearStop color side inRange
  intro step reached below
  omega

end Segments

/-- Drawing a box in words is drawing it. -/
theorem drawBox_eq
    {canvas : Canvas}
    {center : Point}
    {width height : Int}
    (color : Color)
    {size : Int}
    (side : canvas.size ≤ 512)
    (inRange : Number.InRange size)
    (column : Number.InRange center.x)
    (row : Number.InRange center.y)
    (wide : Number.InRange width)
    (high : Number.InRange height) :
    drawBox canvas center width height color size =
      some (canvas.drawBox center width height color size) := by
  have across := reach_bounds wide
  have along := reach_bounds high
  unfold Canvas.reach at across along
  unfold Number.InRange at column row wide high
  have left :
      bits64.calculate (center.x - width / 2) =
        some (center.x - width.tdiv 2) :=
    calculate_of_fits (by simp; omega)
  have right :
      bits64.calculate (center.x + width / 2) =
        some (center.x + width.tdiv 2) :=
    calculate_of_fits (by simp; omega)
  have top :
      bits64.calculate (center.y - height / 2) =
        some (center.y - height.tdiv 2) :=
    calculate_of_fits (by simp; omega)
  have bottom :
      bits64.calculate (center.y + height / 2) =
        some (center.y + height.tdiv 2) :=
    calculate_of_fits (by simp; omega)
  rw [drawBox, bind_of_some left, bind_of_some right, bind_of_some top,
    bind_of_some bottom]
  unfold Canvas.drawBox
  dsimp only
  apply foldlM_eq side
  · intro canvas segment
    exact (Canvas.Painted.drawSegment canvas segment color size).size_eq
  · intro canvas side segment member
    simp only [List.mem_cons, List.not_mem_nil, or_false] at member
    rcases member with rfl | rfl | rfl | rfl
    all_goals
      apply drawSegment_eq _ _ color side inRange
      all_goals
        simp only [Near]
        omega

end PixelBrush.Words
