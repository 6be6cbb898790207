import PixelBrush.Proofs.Enclosure

namespace PixelBrush

/-!
# Rings are round

The column of a walk is never much too far in and never much too far out.  It is
not too far in, since the walk gives a column up only when it does not fit.  It
may be too far out where one column a row is not enough, but this happens only
next to the diagonal, in the last rows of the walk.  Every point of a ring is
therefore at most two cells inside the circle and at most one cell outside.

A thin ring colors exactly the points where the walk stands in one of the eight
directions, so it is symmetric wherever the canvas does not cut it off.  And as
the walk passes no column over, the ring crosses every row and every column up
to its radius.
-/

namespace Ring

namespace Walk

/-- The column next to the walk on the outer side does not fit. -/
theorem excess_outer_nonneg
    {radius : Int}
    (wide : 2 ≤ radius)
    (row : Nat) :
    0 ≤ excess radius ((atRow radius row).x + 1) row := by
  induction row with
  | zero =>
      exact (fits_start wide).2
  | succ row inductionHypothesis =>
      have step := atRow_succ_x radius row
      push_cast
      split at step
      · rename_i outside
        rw [step, Int.sub_add_cancel]
        exact outside
      · rw [step, excess_succ_row]
        omega

/--
Before the diagonal the column of the walk fits, apart from the last columns,
where it is at most a little too far out.
-/
theorem excess_le_two
    {radius : Int}
    (positive : 1 ≤ radius)
    (row : Nat)
    (inside : (row : Int) ≤ (atRow radius row).x) :
    excess radius (atRow radius row).x row ≤ 2 ∧
      ((row : Int) + 2 ≤ (atRow radius row).x →
        excess radius (atRow radius row).x row < 0) := by
  induction row with
  | zero =>
      have atStart : excess radius (atRow radius 0).x (0 : Nat) = -radius := by
        simp only [atRow, start, excess]
        push_cast
        ring
      omega
  | succ row inductionHypothesis =>
      have step := atRow_succ_x radius row
      push_cast at inside ⊢
      split at step
      · -- A column is given up only two or more columns before the diagonal,
        -- where it fitted.
        have before := (inductionHypothesis (by omega)).2 (by omega)
        rw [step, excess_inwards]
        omega
      · rw [step]
        omega

/--
A row of the walk lies between the circles two cells inside and one cell
outside.
-/
theorem squares_atRow
    {radius : Int}
    (positive : 1 ≤ radius)
    {row : Nat}
    (inside : (row : Int) ≤ (atRow radius row).x) :
    (radius - 2) * (radius - 2) ≤
        (atRow radius row).x * (atRow radius row).x + row * row ∧
      (atRow radius row).x * (atRow radius row).x + row * row ≤
        (radius + 1) * (radius + 1) := by
  have outermost := atRow_x_le radius row
  have innermost := radius_le_atRow radius row
  have fitting := (excess_le_two positive row inside).1
  constructor
  · rcases Int.lt_or_eq_of_le positive with wide | rfl
    · have outer := excess_outer_nonneg wide row
      simp only [excess] at outer
      linarith
    · have square : 1 * 1 ≤ (atRow 1 row).x * (atRow 1 row).x :=
        Int.mul_le_mul (by omega) (by omega) (by omega) (by omega)
      have rows : 0 ≤ (row : Int) * row := Int.mul_nonneg (by omega) (by omega)
      omega
  · simp only [excess] at fitting
    linarith

/--
The walk passes no column over: it has stood in every one that lies further out.
-/
theorem exists_atRow_eq
    {radius column : Int}
    (within : column ≤ radius)
    {last : Nat}
    (reached : (atRow radius last).x ≤ column) :
    ∃ row : Nat, row ≤ last ∧ (atRow radius row).x = column := by
  induction last with
  | zero =>
      exact ⟨0, Nat.le_refl 0, Int.le_antisymm reached within⟩
  | succ last inductionHypothesis =>
      by_cases earlier : (atRow radius last).x ≤ column
      · obtain ⟨row, before, found⟩ := inductionHypothesis earlier
        exact ⟨row, Nat.le_succ_of_le before, found⟩
      · have step := le_next_x (atRow radius last)
        refine ⟨last + 1, Nat.le_refl _, ?_⟩
        rw [atRow] at reached ⊢
        omega

end Walk

/-- A point where the walk stands in one of the eight directions. -/
def Meets (ring : Ring) (point : Point) : Prop :=
  (ring.far point : Int) = (Walk.atRow ring.radius (ring.near point)).x

instance (ring : Ring) (point : Point) : Decidable (ring.Meets point) :=
  inferInstanceAs (Decidable (_ = _))

/-- The point that lies a number of columns and rows away from the center. -/
def offset (ring : Ring) (a b : Int) : Point :=
  ⟨ring.center.x + a, ring.center.y + b⟩

/-- Around the center, only the absolute values of the offsets matter. -/
theorem meets_offset_iff
    {ring : Ring}
    {a b : Int} :
    ring.Meets (ring.offset a b) ↔
      (max a.natAbs b.natAbs : Nat) =
        (Walk.atRow ring.radius (min a.natAbs b.natAbs)).x := by
  simp only [Meets, near, far, across, along, offset, add_sub_cancel_left]

/-- The eight points of a row lie on the walk. -/
theorem meets_of_mem_octants
    {ring : Ring}
    {row : Nat}
    (inside : (row : Int) ≤ (Walk.atRow ring.radius row).x)
    {point : Point}
    (member : point ∈ (Walk.atRow ring.radius row).octants ring.center) :
    ring.Meets point := by
  have distances : ring.near point = row ∧
      (ring.far point : Int) = (Walk.atRow ring.radius row).x := by
    have rowShape := Walk.atRow_y ring.radius row
    simp only [Walk.octants, List.mem_cons, List.not_mem_nil,
      or_false] at member
    simp only [near, far, across, along]
    rcases member with rfl | rfl | rfl | rfl | rfl | rfl | rfl | rfl <;>
      dsimp only <;> omega
  rw [Meets, distances.1]
  exact distances.2

/-- A thin ring stamps the points where its walk stands. -/
theorem stampedFrom_thin_iff
    {ring : Ring}
    {x y : Int} :
    ring.StampedFrom 0 0 x y ↔ ring.Meets ⟨x, y⟩ := by
  constructor
  · rintro ⟨row, _, inside, ⟨column, line⟩, member, covers⟩
    simp only [Canvas.Covers] at covers
    have same : (⟨column, line⟩ : Point) = ⟨x, y⟩ := by
      rw [Point.mk.injEq]
      omega
    exact meets_of_mem_octants inside (same ▸ member)
  · exact stampedFrom_of_far_eq (Int.le_refl 0)

/--
The points of a ring lie between the circles two cells inside and one cell
outside.
-/
theorem Meets.squares
    {ring : Ring}
    (positive : 1 ≤ ring.radius)
    {a b : Int}
    (meets : ring.Meets (ring.offset a b)) :
    (ring.radius - 2) * (ring.radius - 2) ≤ a * a + b * b ∧
      a * a + b * b ≤ (ring.radius + 1) * (ring.radius + 1) := by
  rw [meets_offset_iff] at meets
  have sum :
      a * a + b * b =
        ((max a.natAbs b.natAbs : Nat) : Int) * (max a.natAbs b.natAbs : Nat) +
          ((min a.natAbs b.natAbs : Nat) : Int) *
            (min a.natAbs b.natAbs : Nat) := by
    rw [← Int.natAbs_mul_self (a := a), ← Int.natAbs_mul_self (a := b)]
    rcases Nat.le_total a.natAbs b.natAbs with less | greater
    · rw [Nat.max_eq_right less, Nat.min_eq_left less]
      push_cast
      ring
    · rw [Nat.max_eq_left greater, Nat.min_eq_right greater]
      push_cast
      ring
  rw [sum, meets]
  apply Walk.squares_atRow positive
  omega

/-- One pair of offsets is the mirror image of another in axes and diagonals. -/
def Mirrors (a b c d : Int) : Prop :=
  (c = a ∨ c = -a) ∧ (d = b ∨ d = -b) ∨ (c = b ∨ c = -b) ∧ (d = a ∨ d = -a)

/-- Mirroring keeps a point on the ring. -/
theorem Meets.mirrors
    {ring : Ring}
    {a b c d : Int}
    (meets : ring.Meets (ring.offset a b))
    (mirrors : Mirrors a b c d) :
    ring.Meets (ring.offset c d) := by
  rw [meets_offset_iff] at meets ⊢
  rcases mirrors with ⟨columns, rows⟩ | ⟨columns, rows⟩
  · rw [Int.natAbs_eq_natAbs_iff.mpr columns, Int.natAbs_eq_natAbs_iff.mpr rows]
    exact meets
  · rw [Int.natAbs_eq_natAbs_iff.mpr columns, Int.natAbs_eq_natAbs_iff.mpr rows,
      Nat.max_comm, Nat.min_comm]
    exact meets

/-- A ring crosses every row up to its radius. -/
theorem exists_meets
    (ring : Ring)
    {b : Int}
    (within : (b.natAbs : Int) ≤ ring.radius) :
    ∃ a, ring.Meets (ring.offset a b) := by
  simp only [meets_offset_iff]
  by_cases inside : (b.natAbs : Int) ≤ (Walk.atRow ring.radius b.natAbs).x
  · -- The walk stands in this row before it has crossed the diagonal.
    refine ⟨(Walk.atRow ring.radius b.natAbs).x, ?_⟩
    rw [Nat.min_eq_right (by omega), Nat.max_eq_left (by omega)]
    omega
  · -- Beyond the diagonal the row is a column that the walk passed.
    have beyond : (Walk.atRow ring.radius b.natAbs).x ≤ b.natAbs := by
      omega
    obtain ⟨row, before, found⟩ := Walk.exists_atRow_eq within beyond
    refine ⟨row, ?_⟩
    rw [Int.natAbs_natCast, Nat.min_eq_left before, Nat.max_eq_right before,
      found]

end Ring

namespace Canvas

/-- A canvas on which no cell has a color. -/
def Lacks (canvas : Canvas) (color : Color) : Prop :=
  ∀ x y, canvas.get? x y ≠ some color

/-- A blank canvas is white. -/
theorem lacks_blank
    (size : Nat)
    {color : Color}
    (colored : color ≠ .white) :
    (blank size).Lacks color := by
  intro x y shown
  obtain ⟨index, _, found⟩ := Option.bind_eq_some_iff.mp shown
  have member : color ∈ (blank size).cells := Array.mem_of_getElem? found
  exact colored (Array.mem_replicate.mp member).2

/-- A color that was not there before shows where a thin ring stands. -/
theorem get?_drawRing_thin_iff
    {canvas : Canvas}
    {color : Color}
    (unused : canvas.Lacks color)
    (ring : Ring)
    {x y : Int} :
    (canvas.drawRing ring color 1).get? x y = some color ↔
      InSquare canvas.size x y ∧ ring.Meets ⟨x, y⟩ := by
  have drawn := colors_drawRing canvas ring color 1
  have thin : reach 1 = 0 := rfl
  rw [thin] at drawn
  constructor
  · intro shown
    refine ⟨drawn.size ▸ inSquare_of_get? shown, ?_⟩
    apply Decidable.byContradiction
    intro apart
    rw [drawn.get?_eq (mt Ring.stampedFrom_thin_iff.mp apart)] at shown
    exact unused x y shown
  · rintro ⟨onCanvas, meets⟩
    exact drawn.colored x y onCanvas (Ring.stampedFrom_thin_iff.mpr meets)

/--
A thin ring in a color of its own is at most two cells inside and at most one
cell outside its circle, is symmetric as far as the canvas reaches, and crosses
every row up to its radius.
-/
theorem drawRing_round_and_symmetric
    (canvas : Canvas)
    (ring : Ring)
    (color : Color)
    (positive : 1 ≤ ring.radius)
    (unused : canvas.Lacks color) :
    let onCanvas (a b : Int) : Prop :=
      InSquare canvas.size (ring.center.x + a) (ring.center.y + b)
    let painted (a b : Int) : Prop :=
      (canvas.drawRing ring color 1).get? (ring.center.x + a)
        (ring.center.y + b) =
        some color
    let accurate (a b : Int) : Prop :=
      (ring.radius - 2) * (ring.radius - 2) ≤ a * a + b * b ∧
        a * a + b * b ≤ (ring.radius + 1) * (ring.radius + 1)
    (∀ a b, painted a b → accurate a b) ∧
      (∀ a b c d, painted a b → Ring.Mirrors a b c d → onCanvas c d →
        painted c d) ∧
      ∀ b : Int, (b.natAbs : Int) ≤ ring.radius →
        ∃ a, accurate a b ∧
          ∀ c d, Ring.Mirrors a b c d → onCanvas c d → painted c d := by
  intro onCanvas painted accurate
  have shows :
      ∀ {a b}, painted a b ↔ onCanvas a b ∧ ring.Meets (ring.offset a b) :=
    get?_drawRing_thin_iff unused ring
  refine ⟨?_, ?_, ?_⟩
  · intro a b isPainted
    exact (shows.mp isPainted).2.squares positive
  · intro a b c d isPainted mirrors inside
    exact shows.mpr ⟨inside, (shows.mp isPainted).2.mirrors mirrors⟩
  · intro b within
    obtain ⟨a, meets⟩ := ring.exists_meets within
    refine ⟨a, meets.squares positive, ?_⟩
    intro c d mirrors inside
    exact shows.mpr ⟨inside, meets.mirrors mirrors⟩

/--
Of a red ring of radius four around a corner of the canvas a quarter is left.
The cell three columns and two rows from the corner is red, and so is its image
in the diagonal.
-/
theorem drawRing_round_and_symmetric_corner :
    let drawn := (blank 6).drawRing ⟨⟨0, 0⟩, 4⟩ .red 1
    (blank 6).Lacks .red ∧ drawn.get? 3 2 = some .red ∧
      (((4 : Int) - 2) * (4 - 2) ≤ 3 * 3 + 2 * 2 ∧
        (3 : Int) * 3 + 2 * 2 ≤ (4 + 1) * (4 + 1)) ∧
      drawn.get? 2 3 = some .red := by
  have unused : (blank 6).Lacks .red := lacks_blank 6 (by decide)
  obtain ⟨accurate, symmetric, _⟩ :=
    drawRing_round_and_symmetric (blank 6) ⟨⟨0, 0⟩, 4⟩ .red (by decide) unused
  have painted :
      ((blank 6).drawRing ⟨⟨0, 0⟩, 4⟩ .red 1).get? (0 + 3) (0 + 2) =
        some .red := by
    decide +kernel
  have between := accurate 3 2 painted
  have mirrored :=
    symmetric 3 2 2 3 painted (.inr ⟨.inl rfl, .inl rfl⟩) (by decide)
  exact ⟨unused, painted, between, mirrored⟩

end Canvas

end PixelBrush
