import PixelBrush.Proofs.Flooding

namespace PixelBrush

/-!
# Rings have no gaps

A ring parts the plane.  By its symmetries a point is described by the smaller
and the larger of its two distances from the center: it lies inside when the
larger one has not yet reached the column of the walk at the row of the smaller
one.  Since the walk moves at most one column a row, a point beside an inner one
is an inner one or stands on the walk.  A flood from the center therefore stays
inside, whatever part of the ring the canvas cuts off.
-/

namespace Ring

/-- How many columns a point is away from the center. -/
def across (ring : Ring) (point : Point) : Nat :=
  (point.x - ring.center.x).natAbs

/-- How many rows a point is away from the center. -/
def along (ring : Ring) (point : Point) : Nat :=
  (point.y - ring.center.y).natAbs

/-- The smaller of the two distances of a point from the center. -/
def near (ring : Ring) (point : Point) : Nat :=
  min (ring.across point) (ring.along point)

/-- The larger of the two distances of a point from the center. -/
def far (ring : Ring) (point : Point) : Nat :=
  max (ring.across point) (ring.along point)

/-- A point that lies before the walk in its row. -/
def Encloses (ring : Ring) (point : Point) : Prop :=
  (ring.far point : Int) < (Walk.atRow ring.radius (ring.near point)).x

/-- The smaller distance from the center is not larger than the greater one. -/
theorem near_le_far
    (ring : Ring)
    (point : Point) :
    ring.near point ≤ ring.far point := by
  simp only [near, far]
  omega

/-- A ring encloses its center. -/
theorem encloses_center
    {ring : Ring}
    (positive : 1 ≤ ring.radius) :
    ring.Encloses ring.center := by
  simp only [Encloses, near, far, across, along, Int.sub_self, Int.natAbs_zero,
    Nat.min_self, Nat.max_self, Walk.atRow, Walk.start]
  omega

/--
What a ring encloses is nearer to the center than its radius along both axes.
-/
theorem Encloses.lt_radius
    {ring : Ring}
    {point : Point}
    (inside : ring.Encloses point) :
    (ring.across point : Int) < ring.radius ∧
      (ring.along point : Int) < ring.radius := by
  have column := Walk.atRow_x_le ring.radius (ring.near point)
  simp only [Encloses, far] at inside
  omega

/-- To a side, one of the two distances changes by one. -/
theorem across_along_of_neighbor
    (ring : Ring)
    {point next : Point}
    (side : next ∈ Flood.neighbors point) :
    ring.along next = ring.along point ∧
        (ring.across next = ring.across point + 1 ∨
          ring.across next + 1 = ring.across point) ∨
      ring.across next = ring.across point ∧
        (ring.along next = ring.along point + 1 ∨
          ring.along next + 1 = ring.along point) := by
  simp only [Flood.neighbors, List.mem_cons, List.not_mem_nil, or_false] at side
  simp only [across, along]
  rcases side with rfl | rfl | rfl | rfl <;> dsimp only
  · exact .inl ⟨rfl, by omega⟩
  · exact .inl ⟨rfl, by omega⟩
  · exact .inr ⟨rfl, by omega⟩
  · exact .inr ⟨rfl, by omega⟩

/-- What such a change does to the smaller and the larger distance. -/
theorem near_far_of_neighbor
    (ring : Ring)
    {point next : Point}
    (side : next ∈ Flood.neighbors point) :
    ring.near next = ring.near point ∧ ring.far next ≤ ring.far point + 1 ∨
      ring.near next = ring.near point + 1 ∧ ring.far next = ring.far point ∨
      ring.near next + 1 = ring.near point ∧
        ring.far next = ring.far point := by
  have changed := across_along_of_neighbor ring side
  simp only [near, far]
  omega

/-- Beside an enclosed point no point lies beyond the walk. -/
theorem Encloses.far_le
    {ring : Ring}
    {point next : Point}
    (inside : ring.Encloses point)
    (side : next ∈ Flood.neighbors point) :
    (ring.far next : Int) ≤ (Walk.atRow ring.radius (ring.near next)).x := by
  unfold Encloses at inside
  rcases near_far_of_neighbor ring side with
    ⟨sameRow, further⟩ | ⟨nextRow, same⟩ | ⟨rowBefore, same⟩
  · rw [sameRow]
    omega
  · -- The walk gives way by one column at most, which an enclosed point had
    -- to spare.
    have column := Walk.le_next_x (Walk.atRow ring.radius (ring.near point))
    rw [nextRow, same, Walk.atRow]
    omega
  · have column := Walk.next_x_le (Walk.atRow ring.radius (ring.near next))
    rw [← rowBefore, Walk.atRow] at inside
    rw [same]
    omega

/-- A point where the walk stands is one of the eight points of its row. -/
theorem mem_octants_of_far_eq
    {ring : Ring}
    {point : Point}
    (onWalk :
      (ring.far point : Int) = (Walk.atRow ring.radius (ring.near point)).x) :
    point ∈ (Walk.atRow ring.radius (ring.near point)).octants ring.center := by
  have signed :
      ∀ {coordinate center : Int} {distance : Nat},
        (coordinate - center).natAbs = distance →
        coordinate = center + distance ∨ coordinate = center - distance := by
    omega
  have ordered :
      ring.across point = ring.far point ∧ ring.along point = ring.near point ∨
        ring.across point = ring.near point ∧
          ring.along point = ring.far point := by
    simp only [near, far]
    omega
  simp only [Walk.octants, Walk.atRow_y, ← onWalk, List.mem_cons,
    List.not_mem_nil, or_false]
  generalize ring.near point = near, ring.far point = far at ordered
  obtain ⟨x, y⟩ := point
  rcases ordered with ⟨columns, rows⟩ | ⟨columns, rows⟩ <;>
    rcases signed columns with rfl | rfl <;>
    rcases signed rows with rfl | rfl <;>
    simp

/-- A point where the walk stands is stamped. -/
theorem stampedFrom_of_far_eq
    {ring : Ring}
    {point : Point}
    {half : Int}
    (solid : 0 ≤ half)
    (onWalk :
      (ring.far point : Int) = (Walk.atRow ring.radius (ring.near point)).x) :
    ring.StampedFrom half 0 point.x point.y := by
  refine ⟨ring.near point, Nat.zero_le _, ?_, point,
    mem_octants_of_far_eq onWalk, ?_⟩
  · rw [← onWalk]
    exact_mod_cast near_le_far ring point
  · simp only [Canvas.Covers]
    omega

end Ring

namespace Canvas

/-- A brush of a positive size reaches at least its own cell. -/
theorem reach_nonneg
    {size : Int}
    (positive : 1 ≤ size) :
    0 ≤ reach size := by
  simp only [reach, Int.tdiv_eq_ediv_of_nonneg (by omega : 0 ≤ size)]
  omega

/--
From an enclosed point a side of another color than the ring leads to an
enclosed point.
-/
theorem encloses_of_adjoins
    {canvas : Canvas}
    {ring : Ring}
    {color old : Color}
    {size : Int}
    (solid : 0 ≤ reach size)
    (differ : old ≠ color)
    {point next : Point}
    (inside : ring.Encloses point)
    (adjoins : (canvas.drawRing ring color size).Adjoins old point next) :
    ring.Encloses next := by
  obtain ⟨side, shown⟩ := adjoins
  apply lt_of_le_of_ne (inside.far_le side)
  intro onWalk
  have drawn := colors_drawRing canvas ring color size
  have onCanvas : InSquare canvas.size next.x next.y :=
    drawn.size ▸ inSquare_of_get? shown
  have colored :=
    drawn.colored _ _ onCanvas (Ring.stampedFrom_of_far_eq solid onWalk)
  rw [shown, Option.some.injEq] at colored
  exact differ colored

/-- A path through cells of another color does not leave the ring. -/
theorem encloses_of_joined
    {canvas : Canvas}
    {ring : Ring}
    {color old : Color}
    {size : Int}
    (solid : 0 ≤ reach size)
    (differ : old ≠ color)
    {point last : Point}
    (inside : ring.Encloses point)
    (joined : (canvas.drawRing ring color size).Joined old point last) :
    ring.Encloses last := by
  induction joined with
  | refl =>
      exact inside
  | tail _ adjoins inductionHypothesis =>
      exact encloses_of_adjoins solid differ inductionHypothesis adjoins

/--
A flood from the center of a ring that was drawn in another color than the
center has changes only cells nearer than the radius along both axes.
-/
theorem lt_radius_of_flood_drawRing
    (canvas : Canvas)
    (ring : Ring)
    (color : Color)
    (size : Int)
    (wide : 1 ≤ ring.radius)
    (positive : 1 ≤ size)
    (unlike :
      (canvas.drawRing ring color size).get? ring.center.x ring.center.y ≠
        some color)
    (fill : Color)
    (x y : Int)
    (changed :
      ((canvas.drawRing ring color size).flood
          ring.center.x ring.center.y fill).canvas.get? x y ≠
        (canvas.drawRing ring color size).get? x y) :
    (ring.across ⟨x, y⟩ : Int) < ring.radius ∧
      (ring.along ⟨x, y⟩ : Int) < ring.radius := by
  obtain ⟨old, found, joined⟩ := joined_of_flood ring.center ⟨x, y⟩ changed
  have differ : old ≠ color := by
    rintro rfl
    exact unlike found
  exact
    (encloses_of_joined (reach_nonneg positive) differ
      (Ring.encloses_center wide) joined).lt_radius

/--
A red ring of radius two around the second column of a small canvas is cut off
at the left edge; a blue flood from its center changes the cell at that edge.
-/
theorem lt_radius_of_flood_clipped_ring :
    let drawn := (blank 5).drawRing ⟨⟨1, 2⟩, 2⟩ .red 1
    drawn.get? 1 2 ≠ some .red ∧
      (drawn.flood 1 2 .blue).canvas.get? 0 2 ≠ drawn.get? 0 2 ∧
      (Ring.across ⟨⟨1, 2⟩, 2⟩ ⟨0, 2⟩ : Int) < 2 ∧
      (Ring.along ⟨⟨1, 2⟩, 2⟩ ⟨0, 2⟩ : Int) < 2 := by
  have unlike :
      ((blank 5).drawRing ⟨⟨1, 2⟩, 2⟩ .red 1).get? 1 2 ≠ some .red := by
    decide +kernel
  have changed :
      (((blank 5).drawRing ⟨⟨1, 2⟩, 2⟩ .red 1).flood 1 2 .blue).canvas.get? 0
        2 ≠
        ((blank 5).drawRing ⟨⟨1, 2⟩, 2⟩ .red 1).get? 0 2 := by
    decide +kernel
  exact ⟨unlike, changed,
    lt_radius_of_flood_drawRing (blank 5) ⟨⟨1, 2⟩, 2⟩ .red 1
      (by decide) (by decide)
      unlike .blue 0 2 changed⟩

end Canvas

end PixelBrush
