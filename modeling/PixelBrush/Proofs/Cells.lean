import PixelBrush.Proofs.RingWalk

namespace PixelBrush

/-!
# The cells that drawing colors

Every drawing operation gives one color to a region of the canvas and leaves all
other cells as they were.  `Canvas.Colors` says so with the region as a
predicate on coordinates, and regions of operations that follow one another add
up.  This module finds the region of each operation up to rings: a ring colors
what the stamps of its walk cover.
-/

namespace InSquare

/-- Cells of a square have different indices. -/
theorem eq_of_index_eq
    {size : Nat}
    {x y column row : Int}
    (inside : InSquare size x y)
    (alsoInside : InSquare size column row)
    (same : y.toNat * size + x.toNat = row.toNat * size + column.toNat) :
    x = column ∧ y = row := by
  simp only [InSquare] at inside alsoInside
  have narrow : x.toNat < size := by
    omega
  have alsoNarrow : column.toNat < size := by
    omega
  have sameColumn : x.toNat = column.toNat := by
    have remainders := congrArg (· % size) same
    simpa only [Nat.mul_add_mod_self_right, Nat.mod_eq_of_lt narrow,
      Nat.mod_eq_of_lt alsoNarrow] using remainders
  have sameRow : y.toNat = row.toNat := by
    rw [sameColumn] at same
    exact Nat.eq_of_mul_eq_mul_right (by omega) (Nat.add_right_cancel same)
  omega

/-- A square has an index for each of its cells. -/
theorem index_lt
    {size : Nat}
    {x y : Int}
    (inside : InSquare size x y) :
    y.toNat * size + x.toNat < size * size := by
  simp only [InSquare] at inside
  calc
    y.toNat * size + x.toNat
      < y.toNat * size + size := by omega
    _ = (y.toNat + 1) * size := (Nat.succ_mul _ _).symm
    _ ≤ size * size := Nat.mul_le_mul_right _ (by omega)

end InSquare

namespace Canvas

/-- A cell inside the square has an index. -/
theorem index?_of_inSquare
    {canvas : Canvas}
    {x y : Int}
    (inside : InSquare canvas.size x y) :
    canvas.index? x y = some (y.toNat * canvas.size + x.toNat) :=
  if_pos inside

/-- There is no index outside the square. -/
theorem index?_of_not_inSquare
    {canvas : Canvas}
    {x y : Int}
    (outside : ¬ InSquare canvas.size x y) :
    canvas.index? x y = none :=
  if_neg outside

/-- The index of a cell lies in the canvas. -/
theorem index_lt
    {canvas : Canvas}
    {x y : Int}
    (inside : InSquare canvas.size x y) :
    y.toNat * canvas.size + x.toNat < canvas.cells.size := by
  rw [canvas.cells_size]
  exact inside.index_lt

/-- There are no cells outside the square. -/
theorem get?_of_not_inSquare
    {canvas : Canvas}
    {x y : Int}
    (outside : ¬ InSquare canvas.size x y) :
    canvas.get? x y = none := by
  rw [get?, index?_of_not_inSquare outside]
  rfl

/-- What has a color is inside the square. -/
theorem inSquare_of_get?
    {canvas : Canvas}
    {x y : Int}
    {color : Color}
    (shown : canvas.get? x y = some color) :
    InSquare canvas.size x y := by
  apply Decidable.byContradiction
  intro outside
  rw [get?_of_not_inSquare outside] at shown
  cases shown

/-- Writing changes the cell at its index and no other. -/
theorem getElem?_write
    (canvas : Canvas)
    {index : Nat}
    (inBounds : index < canvas.cells.size)
    (color : Color)
    (other : Nat) :
    (canvas.write index color).cells[other]? =
      if index = other then some color else canvas.cells[other]? := by
  unfold write
  rw [Array.getElem?_eq_getElem inBounds]
  dsimp only
  split
  · rename_i already
    split
    · rename_i same
      rw [← same, Array.getElem?_eq_getElem inBounds, already]
    · rfl
  · rw [Array.getElem?_setIfInBounds]
    simp only [inBounds, ↓reduceIte]

/--
The second canvas is the first one with a region in one color and the other
cells as they were.
-/
structure Colors
    (color : Color)
    (region : Int → Int → Prop)
    (before after : Canvas) :
    Prop where
  size : after.size = before.size
  colored :
    ∀ x y,
      InSquare before.size x y →
      region x y →
      after.get? x y = some color
  kept :
    ∀ x y,
      InSquare before.size x y →
      ¬ region x y →
      after.get? x y = before.get? x y

namespace Colors

variable
  {color : Color}
  {region first second : Int → Int → Prop}
  {before middle after : Canvas}

/-- Only the part of a region that lies on the canvas matters. -/
theorem congr
    (colors : Colors color first before after)
    (same :
      ∀ x y,
        InSquare before.size x y →
        (first x y ↔ second x y)) :
    Colors color second before after where
  size := colors.size
  colored := fun x y inside member =>
    colors.colored x y inside ((same x y inside).mpr member)
  kept := fun x y inside other =>
    colors.kept x y inside (mt (same x y inside).mp other)

/-- Where the region has no cell of the canvas, nothing is colored. -/
theorem unchanged
    (misses :
      ∀ x y,
        InSquare before.size x y →
        ¬ region x y) :
    Colors color region before before where
  size := rfl
  colored := fun x y inside member => absurd member (misses x y inside)
  kept := fun _ _ _ _ => rfl

/-- Regions colored one after the other add up. -/
theorem trans
    (toMiddle : Colors color first before middle)
    (toAfter : Colors color second middle after) :
    Colors color (fun x y => first x y ∨ second x y) before after where
  size := toAfter.size.trans toMiddle.size
  colored := by
    intro x y inside member
    have insideMiddle : InSquare middle.size x y := toMiddle.size ▸ inside
    by_cases inSecond : second x y
    · exact toAfter.colored x y insideMiddle inSecond
    · rw [toAfter.kept x y insideMiddle inSecond]
      exact toMiddle.colored x y inside (member.resolve_right inSecond)
  kept := by
    intro x y inside other
    rw [not_or] at other
    have insideMiddle : InSquare middle.size x y := toMiddle.size ▸ inside
    exact (toAfter.kept x y insideMiddle other.2).trans
      (toMiddle.kept x y inside other.1)

/-- A list of drawing steps colors what each of them colors. -/
theorem foldl
    {Item : Type}
    {draw : Canvas → Item → Canvas}
    {covered : Item → Int → Int → Prop}
    (each :
      ∀ canvas item, Colors color (covered item) canvas (draw canvas item))
    (items : List Item)
    (canvas : Canvas) :
    Colors color (fun x y => ∃ item ∈ items, covered item x y) canvas
      (items.foldl draw canvas) := by
  induction items generalizing canvas with
  | nil =>
      exact unchanged (by simp)
  | cons item rest inductionHypothesis =>
      apply ((each canvas item).trans (inductionHypothesis _)).congr
      simp

/-- A cell outside the region is as it was, wherever it lies. -/
theorem get?_eq
    (colors : Colors color region before after)
    {x y : Int}
    (other : ¬ region x y) :
    after.get? x y = before.get? x y := by
  by_cases inside : InSquare before.size x y
  · exact colors.kept x y inside other
  · rw [get?_of_not_inSquare inside]
    exact get?_of_not_inSquare (colors.size ▸ inside)

end Colors

/-! ## Regions of the operations -/

/-- Painting a cell colors this cell. -/
theorem colors_paint
    (canvas : Canvas)
    (x y : Int)
    (color : Color) :
    Colors color (fun column row => column = x ∧ row = y) canvas
      (canvas.paint x y color) := by
  by_cases inside : InSquare canvas.size x y
  · have written :
        ∀ column row : Int,
          InSquare canvas.size column row →
          (canvas.paint x y color).get? column row =
            if y.toNat * canvas.size + x.toNat =
                row.toNat * canvas.size + column.toNat then
              some color
            else
              canvas.get? column row := by
      intro column row alsoInside
      have sameSquare : InSquare (canvas.paint x y color).size column row :=
        size_paint canvas x y color ▸ alsoInside
      rw [get?, index?_of_inSquare sameSquare, size_paint, get?,
        index?_of_inSquare alsoInside, paint, index?_of_inSquare inside]
      exact getElem?_write canvas (index_lt inside) color _
    exact
      { size := size_paint canvas x y color
        colored := by
          rintro column row alsoInside ⟨rfl, rfl⟩
          rw [written column row alsoInside, if_pos rfl]
        kept := by
          intro column row alsoInside other
          rw [written column row alsoInside, if_neg]
          intro same
          obtain ⟨sameColumn, sameRow⟩ := inside.eq_of_index_eq alsoInside same
          exact other ⟨sameColumn.symm, sameRow.symm⟩ }
  · have nothing : canvas.paint x y color = canvas := by
      rw [paint, index?_of_not_inSquare inside]
    rw [nothing]
    apply Colors.unchanged
    rintro column row alsoInside ⟨rfl, rfl⟩
    exact inside alsoInside

/-- A run of painted cells colors a stretch of one row. -/
theorem colors_paintRun
    (canvas : Canvas)
    (x y : Int)
    (color : Color)
    (count : Nat) :
    Colors color
      (fun column row => (x ≤ column ∧ column < x + count) ∧ row = y) canvas
      (canvas.paintRun x y color count) := by
  induction count generalizing canvas x with
  | zero =>
      apply Colors.unchanged
      omega
  | succ count inductionHypothesis =>
      apply ((colors_paint canvas x y color).trans
        (inductionHypothesis _ (x + 1))).congr
      omega

/-- A painted block colors the cells of a rectangle. -/
theorem colors_paintBlock
    (canvas : Canvas)
    (x y : Int)
    (color : Color)
    (width height : Nat) :
    Colors color
      (fun column row =>
        (x ≤ column ∧ column < x + width) ∧ y ≤ row ∧ row < y + height)
      canvas (canvas.paintBlock x y color width height) := by
  induction height generalizing canvas y with
  | zero =>
      apply Colors.unchanged
      omega
  | succ height inductionHypothesis =>
      apply
        ((colors_paintRun canvas x y color width).trans
          (inductionHypothesis _ (y + 1))).congr
      omega

/-- A stamp colors its footprint. -/
theorem colors_stamp
    (canvas : Canvas)
    (center : Point)
    (color : Color)
    (size : Int) :
    Colors color (Covers (reach size) center) canvas
      (canvas.stamp center color size) := by
  unfold stamp
  apply (colors_paintBlock canvas _ _ color _ _).congr
  intro x y inside
  simp only [InSquare] at inside
  simp only [Covers]
  omega

/-- One row of a walk colors the footprints at its eight points. -/
theorem colors_stampOctants
    (canvas : Canvas)
    (walk : Ring.Walk)
    (center : Point)
    (color : Color)
    (size : Int) :
    Colors color
      (fun x y => ∃ point ∈ walk.octants center, Covers (reach size) point x y)
      canvas (canvas.stampOctants walk center color size) :=
  Colors.foldl
    (fun canvas point => colors_stamp canvas point color size) _ canvas

end Canvas

namespace Ring

/-- The cells under the stamps of a walk, from one row on to the diagonal. -/
def StampedFrom
    (ring : Ring)
    (half : Int)
    (first : Nat)
    (x y : Int) :
    Prop :=
  ∃ row : Nat,
    first ≤ row ∧
      (row : Int) ≤ (Walk.atRow ring.radius row).x ∧
      ∃ point ∈ (Walk.atRow ring.radius row).octants ring.center,
        Canvas.Covers half point x y

/-- What is stamped from a row on is stamped at that row or after it. -/
theorem stampedFrom_iff
    {ring : Ring}
    {half : Int}
    {first : Nat}
    (inside : (first : Int) ≤ (Walk.atRow ring.radius first).x)
    {x y : Int} :
    ((∃ point ∈ (Walk.atRow ring.radius first).octants ring.center,
          Canvas.Covers half point x y) ∨
        ring.StampedFrom half (first + 1) x y) ↔
      ring.StampedFrom half first x y := by
  constructor
  · rintro (here | ⟨row, reached, before, later⟩)
    · exact ⟨first, Nat.le_refl first, inside, here⟩
    · exact ⟨row, Nat.le_of_succ_le reached, before, later⟩
  · rintro ⟨row, reached, before, point⟩
    rcases Nat.eq_or_lt_of_le reached with rfl | later
    · exact .inl point
    · exact .inr ⟨row, later, before, point⟩

end Ring

namespace Canvas

/-- The plain walk colors what its stamps cover from its row on. -/
theorem colors_walkEveryRow
    (canvas : Canvas)
    (ring : Ring)
    (color : Color)
    (size : Int)
    {walk : Ring.Walk}
    {first : Nat}
    (walkShape : walk = .atRow ring.radius first) :
    Colors color (ring.StampedFrom (reach size) first) canvas
      (canvas.walkEveryRow ring.center color size walk) := by
  fun_induction walkEveryRow canvas ring.center color size walk
    generalizing first with
  | case1 canvas walk inside inductionHypothesis =>
      subst walkShape
      rw [Ring.Walk.atRow_y] at inside
      have nextShape :
          (Ring.Walk.atRow ring.radius first).next =
            .atRow ring.radius (first + 1) := rfl
      apply
        ((colors_stampOctants canvas _ ring.center color size).trans
          (inductionHypothesis nextShape)).congr
      intro x y _
      exact Ring.stampedFrom_iff inside
  | case2 canvas walk done =>
      subst walkShape
      rw [Ring.Walk.atRow_y] at done
      apply Colors.unchanged
      rintro x y _ ⟨row, reached, before, _⟩
      -- Past the diagonal the walk stays past it.
      have column := Ring.Walk.atRow_antitone ring.radius reached
      omega

/-- A ring colors what the stamps of its whole walk cover. -/
theorem colors_drawRing
    (canvas : Canvas)
    (ring : Ring)
    (color : Color)
    (size : Int) :
    Colors color (ring.StampedFrom (reach size) 0) canvas
      (canvas.drawRing ring color size) := by
  have startShape : Ring.Walk.start ring.radius = .atRow ring.radius 0 := rfl
  unfold drawRing
  dsimp only
  split
  · rw [walkRing_eq_walkEveryRow color rfl startShape]
    exact colors_walkEveryRow canvas ring color size startShape
  · rename_i dismissed
    apply Colors.unchanged
    rintro x y onCanvas ⟨row, _, before, point, member, covers⟩
    exact dismissed (Ring.mayTouch_of_covers before member onCanvas covers)

end Canvas

end PixelBrush
