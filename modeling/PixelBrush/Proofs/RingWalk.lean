import Mathlib.Data.List.Sort
import PixelBrush.Proofs.MidpointWalk
import PixelBrush.Proofs.Painting

namespace PixelBrush

/-!
# Drawing a ring is walking all of it

A ring is drawn with three shortcuts: rings far from the canvas are not walked,
rows outside every band are not painted, and the walk jumps to a band by its
closed form.  The plain walk takes none of them.  Both leave the same canvas,
since every row that is passed over would have stamped outside the canvas.
-/

namespace Canvas

/-- The plain walk: every row is painted until the walk crosses the diagonal. -/
def walkEveryRow
    (canvas : Canvas)
    (center : Point)
    (color : Color)
    (size : Int)
    (walk : Ring.Walk) :
    Canvas :=
  if walk.y ≤ walk.x then
    (canvas.stampOctants walk center color size).walkEveryRow
      center color size walk.next
  else
    canvas
termination_by (walk.x - walk.y + 1).toNat
decreasing_by
  have row := walk.next_y
  have column := walk.next_x_le
  omega

/-- A row of a walk all of whose stamps miss the canvas. -/
def MissesRow
    (canvas : Canvas)
    (half : Int)
    (walk : Ring.Walk)
    (center : Point) :
    Prop :=
  ∀ point ∈ walk.octants center, canvas.Misses half point

/-- A row that misses the canvas paints nothing. -/
theorem stampOctants_of_missesRow
    {canvas : Canvas}
    {walk : Ring.Walk}
    {center : Point}
    {size : Int}
    (color : Color)
    (misses : canvas.MissesRow (reach size) walk center) :
    canvas.stampOctants walk center color size = canvas := by
  unfold stampOctants
  unfold MissesRow at misses
  generalize walk.octants center = points at misses ⊢
  induction points with
  | nil =>
      rfl
  | cons point rest inductionHypothesis =>
      have first : canvas.stamp point color size = canvas :=
        stamp_of_misses color (misses point (by simp))
      rw [List.foldl_cons, first]
      exact inductionHypothesis
        (fun other member => misses other (by simp [member]))

variable
  {canvas : Canvas}
  {center : Point}
  {size radius : Int}

/-- The plain walk passes over such a row. -/
theorem walkEveryRow_of_missesRow
    (color : Color)
    {walk : Ring.Walk}
    (inside : walk.y ≤ walk.x)
    (misses : canvas.MissesRow (reach size) walk center) :
    canvas.walkEveryRow center color size walk =
      canvas.walkEveryRow center color size walk.next := by
  rw [walkEveryRow, if_pos inside, stampOctants_of_missesRow color misses]

/-- The plain walk may pass over any number of rows that miss the canvas. -/
theorem walkEveryRow_skip
    (color : Color)
    {first last : Nat}
    (ordered : first ≤ last)
    (inside :
      ∀ row : Nat,
        first ≤ row →
        row < last →
        (row : Int) ≤ (Ring.Walk.atRow radius row).x)
    (misses :
      ∀ row : Nat,
        first ≤ row →
        row < last →
        canvas.MissesRow (reach size) (.atRow radius row) center) :
    canvas.walkEveryRow center color size (.atRow radius first) =
      canvas.walkEveryRow center color size (.atRow radius last) := by
  induction last, ordered using Nat.le_induction with
  | base =>
      rfl
  | succ last reached inductionHypothesis =>
      have earlier :=
        inductionHypothesis
          (fun row start stop => inside row start (by omega))
          (fun row start stop => misses row start (by omega))
      have lastInside :
          (Ring.Walk.atRow radius last).y ≤
            (Ring.Walk.atRow radius last).x := by
        rw [Ring.Walk.atRow_y]
        exact inside last reached (by omega)
      exact earlier.trans
        (walkEveryRow_of_missesRow color lastInside
          (misses last reached (by omega)))

/-- A plain walk all of whose remaining rows miss the canvas changes nothing. -/
theorem walkEveryRow_of_misses
    (color : Color)
    {first : Nat}
    (misses :
      ∀ row : Nat,
        first ≤ row →
        (row : Int) ≤ (Ring.Walk.atRow radius row).x →
        canvas.MissesRow (reach size) (.atRow radius row) center) :
    canvas.walkEveryRow center color size (.atRow radius first) = canvas := by
  -- The walk ends at the latest one row after the radius.
  induction gap : (radius + 1 - first).toNat generalizing first with
  | zero =>
      have column := Ring.Walk.atRow_x_le radius first
      rw [walkEveryRow, Ring.Walk.atRow_y, if_neg (by omega)]
  | succ gap inductionHypothesis =>
      by_cases inside : (first : Int) ≤ (Ring.Walk.atRow radius first).x
      · have rest :
            canvas.walkEveryRow center color size (.atRow radius (first + 1)) =
              canvas :=
          inductionHypothesis
            (fun row start stop => misses row (by omega) stop) (by omega)
        rw [walkEveryRow_of_missesRow color
          (by rw [Ring.Walk.atRow_y]; exact inside)
          (misses first (Nat.le_refl first) inside)]
        exact rest
      · rw [walkEveryRow, Ring.Walk.atRow_y, if_neg inside]

end Canvas

namespace Ring

namespace Band

/-- Either of two bands comes first. -/
instance : Std.Total fun band other : Band => band.le other = true where
  total band other := by
    simp only [le, decide_eq_true_eq]
    omega

/-- A band before a band before a third one is before the third. -/
instance : IsTrans Band fun band other => band.le other = true where
  trans first second third := by
    simp only [le, decide_eq_true_eq]
    omega

/-- Adding a band in order is what insertion sort does with each item. -/
theorem insert_eq_orderedInsert
    (band : Band)
    (bands : List Band) :
    insert band bands =
      bands.orderedInsert (fun band other => band.le other = true) band := by
  induction bands with
  | nil =>
      rfl
  | cons first rest inductionHypothesis =>
      rw [insert, List.orderedInsert, inductionHypothesis]

/-- Bands are put in order by insertion sort. -/
theorem sort_eq_insertionSort (bands : List Band) :
    sort bands =
      bands.insertionSort fun band other => band.le other = true := by
  unfold sort List.insertionSort
  congr 1
  funext band bands
  exact insert_eq_orderedInsert band bands

/-- Sorting keeps the bands. -/
theorem mem_sort
    {band : Band}
    {bands : List Band} :
    band ∈ sort bands ↔ band ∈ bands := by
  rw [sort_eq_insertionSort]
  exact List.mem_insertionSort _

/-- Sorted bands come in the order of their first rows. -/
theorem pairwise_sort
    (bands : List Band) :
    (sort bands).Pairwise fun band other => band.first ≤ other.first := by
  rw [sort_eq_insertionSort]
  apply (List.pairwise_insertionSort _ bands).imp
  intro band other ordered
  have before := of_decide_eq_true ordered
  omega

end Band

/--
A band lists the rows whose distance from a center along one axis can be
stamped.
-/
theorem mem_bands_iff
    {ring : Ring}
    {size : Nat}
    {half : Int}
    {band : Band} :
    band ∈ ring.bands size half ↔
      (band = ⟨max (-half - ring.center.x) 0, size - 1 + half - ring.center.x⟩ ∨
        band =
          ⟨max (ring.center.x - (size - 1 + half)) 0, ring.center.x - -half⟩ ∨
        band =
          ⟨max (-half - ring.center.y) 0, size - 1 + half - ring.center.y⟩ ∨
        band =
          ⟨max (ring.center.y - (size - 1 + half)) 0, ring.center.y - -half⟩) ∧
        band.first ≤ band.last := by
  rw [bands, Band.mem_sort]
  simp

/--
Every octant point lies the row of the walk away from the center along one axis.
-/
theorem row_of_mem_octants
    {walk : Walk}
    {center point : Point}
    (member : point ∈ walk.octants center) :
    point.x = center.x + walk.y ∨ point.x = center.x - walk.y ∨
      point.y = center.y + walk.y ∨ point.y = center.y - walk.y := by
  simp only [Walk.octants, List.mem_cons, List.not_mem_nil, or_false] at member
  rcases member with rfl | rfl | rfl | rfl | rfl | rfl | rfl | rfl <;> simp

/-- A row of the walk whose stamps reach the canvas lies in a band. -/
theorem exists_band_of_covers
    {ring : Ring}
    {size : Nat}
    {half x y : Int}
    {walk : Walk}
    {point : Point}
    (nonnegative : 0 ≤ walk.y)
    (member : point ∈ walk.octants ring.center)
    (onCanvas : InSquare size x y)
    (covers : Canvas.Covers half point x y) :
    ∃ band ∈ ring.bands size half,
      band.first ≤ walk.y ∧ walk.y ≤ band.last := by
  simp only [InSquare] at onCanvas
  simp only [Canvas.Covers] at covers
  rcases row_of_mem_octants member with right | left | down | up
  · refine ⟨⟨_, _⟩, mem_bands_iff.mpr ⟨.inl rfl, ?_⟩, ?_, ?_⟩ <;>
      dsimp only <;> omega
  · refine ⟨⟨_, _⟩, mem_bands_iff.mpr ⟨.inr (.inl rfl), ?_⟩, ?_, ?_⟩ <;>
      dsimp only <;> omega
  · refine ⟨⟨_, _⟩, mem_bands_iff.mpr ⟨.inr (.inr (.inl rfl)), ?_⟩, ?_, ?_⟩ <;>
      dsimp only <;> omega
  · refine ⟨⟨_, _⟩, mem_bands_iff.mpr ⟨.inr (.inr (.inr rfl)), ?_⟩, ?_, ?_⟩ <;>
      dsimp only <;> omega

/-- How far from the center a cell under a stamp of the walk can lie. -/
theorem distance_of_covers
    {walk : Walk}
    {center point : Point}
    {half x y : Int}
    (nonnegative : 0 ≤ walk.y)
    (inside : walk.y ≤ walk.x)
    (member : point ∈ walk.octants center)
    (covers : Canvas.Covers half point x y) :
    (x - center.x).natAbs ≤ walk.x + half ∧
      (y - center.y).natAbs ≤ walk.x + half ∧
      walk.x + walk.y - 2 * half ≤
        (x - center.x).natAbs + (y - center.y).natAbs := by
  simp only [Walk.octants, List.mem_cons, List.not_mem_nil, or_false] at member
  simp only [Canvas.Covers] at covers
  rcases member with rfl | rfl | rfl | rfl | rfl | rfl | rfl | rfl <;>
    dsimp only at covers <;> omega

/-- A ring of which one stamp reaches the canvas is not dismissed. -/
theorem mayTouch_of_covers
    {ring : Ring}
    {size : Nat}
    {half x y : Int}
    {row : Nat}
    {point : Point}
    (inside : (row : Int) ≤ (Walk.atRow ring.radius row).x)
    (member : point ∈ (Walk.atRow ring.radius row).octants ring.center)
    (onCanvas : InSquare size x y)
    (covers : Canvas.Covers half point x y) :
    ring.mayTouch size half = true := by
  have rowShape := Walk.atRow_y ring.radius row
  have outermost := Walk.atRow_x_le ring.radius row
  have innermost := Walk.radius_le_atRow ring.radius row
  obtain ⟨columns, rows, sum⟩ :=
    distance_of_covers (by omega) (by omega) member covers
  simp only [InSquare] at onCanvas
  -- No cell is nearer than the clamped center or farther than the far corner.
  have nearest :
      ∀ center cell : Int,
        0 ≤ cell →
        cell < size →
        (center - min (max center 0) (max ((size : Int) - 1) 0)).natAbs ≤
          (cell - center).natAbs := by
    omega
  have farthest :
      ∀ center cell : Int,
        0 ≤ cell →
        cell < size →
        (cell - center).natAbs ≤
          max center.natAbs (center - ((size : Int) - 1)).natAbs := by
    omega
  have nearX := nearest ring.center.x x onCanvas.1 onCanvas.2.1
  have nearY := nearest ring.center.y y onCanvas.2.2.1 onCanvas.2.2.2
  have farX := farthest ring.center.x x onCanvas.1 onCanvas.2.1
  have farY := farthest ring.center.y y onCanvas.2.2.1 onCanvas.2.2.2
  unfold mayTouch
  dsimp only
  rw [Bool.and_eq_true, decide_eq_true_iff, decide_eq_true_iff]
  constructor
  · omega
  · omega

/-- Where no band comes next, all of them have been passed. -/
theorem last_lt_of_nextBand?_none
    {bands : List Band}
    {row : Int}
    (none : nextBand? bands row = .none)
    {band : Band}
    (member : band ∈ bands) :
    band.last < row := by
  unfold nextBand? at none
  rw [Option.map_eq_none_iff, List.find?_eq_none] at none
  have ended := none band member
  simpa using ended

/-- The next band starts no later than any band that has not ended. -/
theorem nextBand?_le
    {bands : List Band}
    (sorted : bands.Pairwise fun band other => band.first ≤ other.first)
    {row target : Int}
    (found : nextBand? bands row = some target)
    {band : Band}
    (member : band ∈ bands)
    (open_ : row ≤ band.last) :
    target ≤ band.first := by
  -- Bands before the next one have ended, and those after it start no earlier.
  obtain ⟨next, isNext, rfl⟩ := Option.map_eq_some_iff.mp found
  obtain ⟨_, ended, later, rfl, allEnded⟩ :=
    List.find?_eq_some_iff_append.mp isNext
  rcases List.mem_append.mp member with earlier | here
  · have hasEnded := allEnded band earlier
    simp only [open_, decide_true, Bool.not_true,
      Bool.false_eq_true] at hasEnded
  · rcases List.mem_cons.mp here with rfl | after
    · exact Int.le_refl band.first
    · have ordered := (List.pairwise_append.mp sorted).2.1
      exact (List.pairwise_cons.mp ordered).1 band after

/-- A jump goes to the closed form of the walk, at a later row. -/
theorem jump?_spec
    {radius target : Int}
    {walk later : Walk}
    (jumped : jump? radius walk target = some later) :
    walkAt? radius target = some later ∧ walk.y < later.y := by
  unfold jump? at jumped
  split at jumped
  · obtain ⟨found, forward⟩ := Option.filter_eq_some_iff.mp jumped
    rw [Bool.and_eq_true, decide_eq_true_iff] at forward
    exact ⟨found, forward.1⟩
  · cases jumped

/--
On the walk of a ring, a jump asks for a later row and for nothing else: no
later row lies further out.
-/
theorem jump?_atRow
    {radius target : Int}
    (nonnegative : 0 ≤ radius)
    (row : Nat) :
    jump? radius (.atRow radius row) target =
      if (Walk.atRow radius row).y < target then
        (walkAt? radius target).filter fun later =>
          (Walk.atRow radius row).y < later.y
      else
        none := by
  unfold jump?
  split
  · cases closed : walkAt? radius target with
    | none =>
        rfl
    | some later =>
        obtain ⟨laterRow, _, _, rfl, _, _, _⟩ := walkAt?_spec nonnegative closed
        have inwards :
            (Walk.atRow radius row).y < (Walk.atRow radius laterRow).y →
              (Walk.atRow radius laterRow).x ≤ (Walk.atRow radius row).x := by
          rw [Walk.atRow_y, Walk.atRow_y]
          intro later
          exact Walk.atRow_antitone radius (by omega)
        have same := Bool.and_eq_left_iff_imp.mpr fun later =>
          decide_eq_true (inwards (of_decide_eq_true later))
        rw [Option.filter_some, Option.filter_some, same]
  · rfl

/-- A row that lies in no band misses the canvas. -/
theorem missesRow_of_no_band
    {ring : Ring}
    {canvas : Canvas}
    {half : Int}
    {row : Nat}
    (outside :
      ∀ band ∈ ring.bands canvas.size half,
        band.first ≤ row →
        band.last < row) :
    canvas.MissesRow half (.atRow ring.radius row) ring.center := by
  intro point member x y onCanvas covers
  have rowShape := Walk.atRow_y ring.radius row
  obtain ⟨band, listed, started, open_⟩ :=
    exists_band_of_covers (by omega) member onCanvas covers
  have ended := outside band listed (by omega)
  omega

end Ring

namespace Canvas

/--
From every row on, the walk with bands and jumps paints what the plain walk
paints.
-/
theorem walkRing_eq_walkEveryRow
    {canvas : Canvas}
    {ring : Ring}
    {bands : List Ring.Band}
    (color : Color)
    {size : Int}
    {walk : Ring.Walk}
    (bandsShape : bands = ring.bands canvas.size (reach size))
    {row : Nat}
    (walkShape : walk = .atRow ring.radius row) :
    canvas.walkRing ring bands color size walk =
      canvas.walkEveryRow ring.center color size walk := by
  fun_induction walkRing canvas ring bands color size walk generalizing row with
  | case1 canvas walk inside noBand =>
      subst walkShape bandsShape
      rw [Ring.Walk.atRow_y] at noBand
      symm
      apply walkEveryRow_of_misses
      intro later reached _
      apply Ring.missesRow_of_no_band
      intro band member _
      have ended := Ring.last_lt_of_nextBand?_none noBand member
      omega
  | case2 canvas walk inside target found later jumped inductionHypothesis =>
      subst walkShape bandsShape
      obtain ⟨closed, forward⟩ := Ring.jump?_spec jumped
      have outermost := Ring.Walk.atRow_x_le ring.radius row
      rw [Ring.Walk.atRow_y] at inside found forward
      obtain ⟨laterRow, _, before, rfl, far, _, _⟩ :=
        Ring.walkAt?_spec (by omega) closed
      rw [Ring.Walk.atRow_y] at forward
      rw [inductionHypothesis rfl rfl]
      symm
      apply walkEveryRow_skip color (by omega)
      · intro skipped start stop
        have column := far skipped (Nat.le_of_lt stop)
        omega
      · intro skipped start stop
        apply Ring.missesRow_of_no_band
        intro band member started
        apply Decidable.byContradiction
        intro open_
        have notYet :=
          Ring.nextBand?_le (Ring.Band.pairwise_sort _) found member (by omega)
        omega
  | case3 canvas walk inside target found stays inductionHypothesis =>
      have sameBands :
          bands =
            ring.bands (canvas.stampOctants walk ring.center color size).size
              (reach size) := by
        rw [(Painted.stampOctants canvas walk ring.center color size).size_eq]
        exact bandsShape
      have nextShape : walk.next = .atRow ring.radius (row + 1) := by
        rw [walkShape]
        rfl
      rw [walkEveryRow, if_pos inside]
      exact inductionHypothesis sameBands nextShape
  | case4 canvas walk done =>
      rw [walkEveryRow, if_neg done]

end Canvas

end PixelBrush
