import PixelBrush.Proofs.Cells
import PixelBrush.Proofs.SegmentWalk

namespace PixelBrush

/-!
# The cells of lines and boxes

A drawn segment colors the cells near its points, where near means within reach
of the brush in the larger of the two coordinates.  The points of a segment
along one of the eight directions are those that equal steps lead to, with
nothing rounded.  So the four sides of a box color what lies near its outline,
whatever the signs of its extents and however much of it is on the canvas.
-/

/-- The distance of two points in the coordinate in which they differ more. -/
def Point.distance (first second : Point) : Nat :=
  max (first.x - second.x).natAbs (first.y - second.y).natAbs

/--
A footprint holds the cells whose distance from its center is within reach.
-/
theorem Canvas.covers_iff
    {half : Int}
    {center : Point}
    {x y : Int} :
    Covers half center x y ↔ (Point.distance ⟨x, y⟩ center : Int) ≤ half := by
  simp only [Covers, Point.distance]
  omega

namespace Segment

/-- The points that the steps of a segment lead to. -/
def Contains (segment : Segment) (point : Point) : Prop :=
  ∃ k ≤ segment.steps, segment.point k = point

end Segment

namespace Canvas

/-- Stamps on the way color what one of them covers. -/
theorem colors_stampSteps
    (canvas : Canvas)
    (segment : Segment)
    (color : Color)
    (size : Int)
    (k count : Nat) :
    Colors color
      (fun x y =>
        ∃ step,
          k ≤ step ∧ step < k + count ∧
          Covers (reach size) (segment.point step) x y)
      canvas (canvas.stampSteps segment color size k count) := by
  induction count generalizing canvas k with
  | zero =>
      apply Colors.unchanged
      rintro x y _ ⟨step, reached, below, _⟩
      omega
  | succ count inductionHypothesis =>
      apply
        ((colors_stamp canvas (segment.point k) color size).trans
          (inductionHypothesis _ (k + 1))).congr
      intro x y _
      constructor
      · rintro (here | ⟨step, reached, below, covers⟩)
        · exact ⟨k, Nat.le_refl k, by omega, here⟩
        · exact ⟨step, by omega, by omega, covers⟩
      · rintro ⟨step, reached, below, covers⟩
        rcases Nat.eq_or_lt_of_le reached with rfl | later
        · exact .inl covers
        · exact .inr ⟨step, later, by omega, covers⟩

/-- A segment colors the cells within reach of its points. -/
theorem colors_drawSegment
    (canvas : Canvas)
    (segment : Segment)
    (color : Color)
    (size : Int) :
    Colors color
      (fun x y => ∃ point, segment.Contains point ∧
        Point.distance ⟨x, y⟩ point ≤ reach size)
      canvas (canvas.drawSegment segment color size) := by
  rw [drawSegment_eq_stampSteps]
  apply (colors_stampSteps canvas segment color size 0
    (segment.steps + 1)).congr
  intro x y _
  constructor
  · rintro ⟨step, _, below, covers⟩
    exact ⟨_, ⟨step, by omega, rfl⟩, covers_iff.mp covers⟩
  · rintro ⟨_, ⟨step, inside, rfl⟩, near⟩
    exact ⟨step, Nat.zero_le step, by omega, covers_iff.mpr near⟩

end Canvas

namespace Segment

/-! ## Segments along a direction -/

/-- A component of a direction: one step back, none or one step forward. -/
def IsUnit (component : Int) : Prop :=
  component = -1 ∨ component = 0 ∨ component = 1

/-- The segment that a number of equal steps leads along. -/
def along (start : Point) (right down : Int) (length : Nat) : Segment :=
  ⟨start, ⟨start.x + right * length, start.y + down * length⟩⟩

/-- Where there is nothing to pass, nothing is passed. -/
theorem share_none
    (k major : Nat) :
    share k 0 major = 0 := by
  rcases Nat.eq_zero_or_pos major with rfl | positive
  · rfl
  · rw [share_eq_iff positive]
    omega

section Coordinates

variable
  {component : Int}
  (isUnit : IsUnit component)

include isUnit

/-- The distance along one component of a direction. -/
theorem natAbs_along
    (start : Int)
    (length : Nat) :
    (start + component * length - start).natAbs =
      if component = 0 then 0 else length := by
  rcases isUnit with rfl | rfl | rfl <;> simp

/-- A coordinate heads where its component says, as far as it moves at all. -/
theorem heading_along
    (start : Int)
    {k length : Nat}
    (inside : k ≤ length) :
    start +
      heading start (start + component * length) *
      (if component = 0 then 0 else k : Nat) =
      start + component * k := by
  unfold heading
  rcases isUnit with rfl | rfl | rfl <;> split <;> simp <;> omega

end Coordinates

section Along

variable
  {start : Point}
  {right down : Int}
  {length k : Nat}
  (isRight : IsUnit right)
  (isDown : IsUnit down)

include isRight isDown

/-- A segment along a direction has all its steps, unless it stands still. -/
theorem steps_along :
    (along start right down length).steps =
      if right = 0 ∧ down = 0 then 0 else length := by
  simp only [steps, width, height, along, natAbs_along isRight,
    natAbs_along isDown]
  grind

/-- Nothing is rounded: a coordinate passes all of the steps or none of them. -/
theorem passed_along
    (inside : k ≤ (along start right down length).steps) :
    (along start right down length).columnsPassed k =
      (if right = 0 then 0 else k) ∧
      (along start right down length).rowsPassed k =
        (if down = 0 then 0 else k) := by
  rw [steps_along isRight isDown] at inside
  rcases Nat.eq_zero_or_pos k with rfl | moved
  · simp [columnsPassed, rowsPassed, share_zero]
  · have positive : 0 < length := by
      split at inside <;> omega
    simp only [columnsPassed, rowsPassed, width, height, along,
      natAbs_along isRight, natAbs_along isDown]
    by_cases upright : right = 0
    · by_cases flat : down = 0
      · simp only [upright, flat, and_self, if_true] at inside
        omega
      · simp [upright, flat, share_none, Nat.ne_of_gt positive]
    · by_cases flat : down = 0
      · simp [upright, flat, share_none]
      · simp [upright, flat, share_diagonal positive]

/-- Each step of such a segment is one step in the direction. -/
theorem point_along
    (inside : k ≤ (along start right down length).steps) :
    (along start right down length).point k =
      ⟨start.x + right * k, start.y + down * k⟩ := by
  obtain ⟨columns, rows⟩ := passed_along isRight isDown inside
  have within : k ≤ length := by
    rw [steps_along isRight isDown] at inside
    split at inside <;> omega
  rw [point, column_eq, row_eq, columns, rows]
  exact congrArg₂ Point.mk (heading_along isRight start.x within)
    (heading_along isDown start.y within)

/-- A segment along a direction holds what equal steps lead to. -/
theorem contains_along_iff
    {point : Point} :
    (along start right down length).Contains point ↔
      ∃ k ≤ length, point = ⟨start.x + right * k, start.y + down * k⟩ := by
  constructor
  · rintro ⟨k, inside, rfl⟩
    refine ⟨k, ?_, point_along isRight isDown inside⟩
    rw [steps_along isRight isDown] at inside
    split at inside <;> omega
  · rintro ⟨k, inside, rfl⟩
    by_cases still : right = 0 ∧ down = 0
    · refine ⟨0, Nat.zero_le _, ?_⟩
      rw [point_along isRight isDown (Nat.zero_le _), still.1, still.2]
      simp
    · refine ⟨k, ?_, point_along isRight isDown ?_⟩
      all_goals
        rw [steps_along isRight isDown, if_neg still]
        exact inside

end Along

/-! ## Sides of a box -/

/-- Standing still is a component of a direction. -/
theorem isUnit_zero : IsUnit 0 :=
  .inr (.inl rfl)

/-- The heading from one coordinate to another is a component of a direction. -/
theorem isUnit_heading
    (start stop : Int) :
    IsUnit (heading start stop) := by
  unfold heading
  split
  · exact .inr (.inr rfl)
  · exact .inl rfl

/-- Going from one value towards another leads to what lies between them. -/
theorem exists_step_iff
    {start stop value : Int} :
    (∃ k ≤ (stop - start).natAbs, value = start + heading start stop * k) ↔
      min start stop ≤ value ∧ value ≤ max start stop := by
  unfold heading
  constructor
  · rintro ⟨k, inside, rfl⟩
    split <;> omega
  · intro between
    refine ⟨(value - start).natAbs, by omega, ?_⟩
    split <;> omega

/-- A horizontal segment is all of its row between the ends. -/
theorem contains_horizontal_iff
    {left right row : Int}
    {point : Point} :
    (⟨⟨left, row⟩, ⟨right, row⟩⟩ : Segment).Contains point ↔
      (min left right ≤ point.x ∧ point.x ≤ max left right) ∧
        point.y = row := by
  have arrives :
      left + heading left right * ((right - left).natAbs : Nat) = right :=
    add_heading_mul_eq_iff.mpr rfl
  have shape :
      (⟨⟨left, row⟩, ⟨right, row⟩⟩ : Segment) =
        along ⟨left, row⟩ (heading left right) 0 (right - left).natAbs := by
    simp only [along, arrives, Int.zero_mul, Int.add_zero]
  rw [shape, contains_along_iff (isUnit_heading left right) isUnit_zero,
    ← exists_step_iff]
  obtain ⟨x, y⟩ := point
  simp only [Int.zero_mul, Int.add_zero, Point.mk.injEq, ← and_assoc,
    exists_and_right]

/-- A vertical segment is all of its column between the ends. -/
theorem contains_vertical_iff
    {top bottom column : Int}
    {point : Point} :
    (⟨⟨column, top⟩, ⟨column, bottom⟩⟩ : Segment).Contains point ↔
      point.x = column ∧ min top bottom ≤ point.y ∧
        point.y ≤ max top bottom := by
  have arrives :
      top + heading top bottom * ((bottom - top).natAbs : Nat) = bottom :=
    add_heading_mul_eq_iff.mpr rfl
  have shape :
      (⟨⟨column, top⟩, ⟨column, bottom⟩⟩ : Segment) =
        along ⟨column, top⟩ 0 (heading top bottom) (bottom - top).natAbs := by
    simp only [along, arrives, Int.zero_mul, Int.add_zero]
  rw [shape, contains_along_iff isUnit_zero (isUnit_heading top bottom),
    ← exists_step_iff]
  obtain ⟨x, y⟩ := point
  simp only [Int.zero_mul, Int.add_zero, Point.mk.injEq, and_left_comm,
    exists_and_left]

/-- The sides of a box around a point, from the top side on. -/
def ofBox (center : Point) (halfWidth halfHeight : Int) : List Segment :=
  let left := center.x - halfWidth
  let right := center.x + halfWidth
  let top := center.y - halfHeight
  let bottom := center.y + halfHeight
  [⟨⟨left, top⟩, ⟨right, top⟩⟩, ⟨⟨right, top⟩, ⟨right, bottom⟩⟩,
    ⟨⟨right, bottom⟩, ⟨left, bottom⟩⟩, ⟨⟨left, bottom⟩, ⟨left, top⟩⟩]

end Segment

/--
The outline of the box that reaches so far from its center in each coordinate.
-/
structure OnOutline
    (center : Point)
    (halfWidth halfHeight : Nat)
    (point : Point) :
    Prop where
  columns : (point.x - center.x).natAbs ≤ halfWidth
  rows : (point.y - center.y).natAbs ≤ halfHeight
  onEdge :
    (point.x - center.x).natAbs = halfWidth ∨
      (point.y - center.y).natAbs = halfHeight

/--
The sides of a box make up its outline; a negative extent only exchanges them.
-/
theorem onOutline_iff
    {center point : Point}
    {halfWidth halfHeight : Int} :
    OnOutline center halfWidth.natAbs halfHeight.natAbs point ↔
      ∃ side ∈ Segment.ofBox center halfWidth halfHeight,
        side.Contains point := by
  simp only [Segment.ofBox, List.mem_cons, List.not_mem_nil, or_false,
    exists_eq_or_imp, exists_eq_left, Segment.contains_horizontal_iff,
    Segment.contains_vertical_iff]
  constructor
  · rintro ⟨columns, rows, onColumn | onRow⟩
    · rcases Int.natAbs_eq_natAbs_iff.mp onColumn with right | left
      · exact .inr (.inl (by omega))
      · exact .inr (.inr (.inr (by omega)))
    · rcases Int.natAbs_eq_natAbs_iff.mp onRow with bottom | top
      · exact .inr (.inr (.inl (by omega)))
      · exact .inl (by omega)
  · rintro (top | right | bottom | left)
    · exact ⟨by omega, by omega, .inr (by omega)⟩
    · exact ⟨by omega, by omega, .inl (by omega)⟩
    · exact ⟨by omega, by omega, .inr (by omega)⟩
    · exact ⟨by omega, by omega, .inl (by omega)⟩

namespace Canvas

/--
Drawing a box gives the color to the cells of the canvas within reach of its
outline and leaves all other cells as they were.  The box reaches half its
extents from the center, rounded towards zero, and their signs do not matter.
-/
theorem colors_drawBox
    (canvas : Canvas)
    (center : Point)
    (width height : Int)
    (color : Color)
    (size : Int) :
    Colors color
      (fun x y =>
        ∃ point,
          OnOutline center (width.tdiv 2).natAbs (height.tdiv 2).natAbs point ∧
            Point.distance ⟨x, y⟩ point ≤ size.tdiv 2)
      canvas (canvas.drawBox center width height color size) := by
  have sides :=
    Colors.foldl (fun canvas side => colors_drawSegment canvas side color size)
      (Segment.ofBox center (width.tdiv 2) (height.tdiv 2)) canvas
  apply sides.congr
  intro x y _
  simp only [onOutline_iff]
  constructor
  · rintro ⟨side, member, point, contains, near⟩
    exact ⟨point, ⟨side, member, contains⟩, near⟩
  · rintro ⟨point, ⟨side, member, contains⟩, near⟩
    exact ⟨side, member, point, contains, near⟩

end Canvas

end PixelBrush
