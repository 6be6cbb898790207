import Mathlib.Tactic.Ring
import PixelBrush.Proofs.Painting

namespace PixelBrush

/-!
# Drawing a segment is walking all of it

A plain walk along a segment keeps an error term that tells which coordinates
move next, stamps every point it visits and stops at the end of the segment.
Drawing computes its points from their step numbers instead, and only for steps
inside a window that bisection finds.  The closed form is the state of the walk,
and every step outside the window would have stamped outside the canvas, so both
leave the same one.
-/

namespace Segment

/-! ## Shares -/

/--
A share differs from the exact ratio by half at most, and halves are rounded
down.
-/
theorem share_eq_iff
    {k minor major part : Nat}
    (positive : 0 < major) :
    share k minor major = part ↔
      2 * (k * minor) ≤ 2 * (major * part) + major ∧
        2 * (major * part) < 2 * (k * minor) + major := by
  rw [share, if_neg (Nat.ne_of_gt positive), Nat.div_eq_iff (by omega),
    Nat.mul_assoc, Nat.mul_left_comm part 2 major, Nat.mul_comm part major]
  omega

/-- Before the first step nothing is passed. -/
theorem share_zero
    (minor major : Nat) :
    share 0 minor major = 0 := by
  rcases Nat.eq_zero_or_pos major with rfl | positive
  · rfl
  · rw [share_eq_iff positive]
    omega

/-- No step takes back what is passed. -/
theorem share_mono
    (minor major : Nat)
    {first second : Nat}
    (ordered : first ≤ second) :
    share first minor major ≤ share second minor major := by
  unfold share
  split
  · exact Nat.le_refl 0
  · have products : 2 * first * minor ≤ 2 * second * minor :=
      Nat.mul_le_mul_right minor (Nat.mul_le_mul_left 2 ordered)
    exact Nat.div_le_div_right (by omega)

section Shares

variable
  {minor major : Nat}
  (positive : 0 < major)

include positive

/--
What is passed is the exact share, rounded to the nearest integer, and halves
rounded down.
-/
theorem share_bounds (k minor : Nat) :
    2 * (k * minor) ≤ 2 * (major * share k minor major) + major ∧
      2 * (major * share k minor major) < 2 * (k * minor) + major :=
  (share_eq_iff positive).mp rfl

/--
One step further the share grows by one where it would be off by more than half.
-/
theorem share_succ
    (narrow : minor ≤ major)
    (k : Nat) :
    share (k + 1) minor major =
      share k minor major +
        if 2 * (major * share k minor major) + major <
            2 * ((k + 1) * minor) then
          1
        else
          0 := by
  have bounds := share_bounds positive k minor
  rw [share_eq_iff positive, Nat.add_mul k 1]
  split
  · rw [Nat.mul_add major]
    omega
  · rw [Nat.add_zero (share k minor major)]
    omega

/-- After all steps everything is passed. -/
theorem share_full (minor : Nat) :
    share major minor major = minor := by
  rw [share_eq_iff positive]
  omega

/-- On a diagonal, each step passes one. -/
theorem share_diagonal (k : Nat) :
    share k major major = k := by
  rw [share_eq_iff positive, Nat.mul_comm k major]
  omega

end Shares

/-! ## The walk and its closed form -/

/-- Where a walk along a segment stands, and the error that steers it. -/
structure Walk where
  point : Point
  error : Int
  deriving Repr, DecidableEq

namespace Walk

/-- A walk before its first step. -/
def start (segment : Segment) : Walk :=
  ⟨segment.start, segment.width - segment.height⟩

/-- One step of a walk: the column moves, the row moves, or both do. -/
def next (segment : Segment) (walk : Walk) : Walk :=
  let sideways : Walk :=
    if -(segment.height : Int) < 2 * walk.error then
      ⟨⟨walk.point.x + heading segment.start.x segment.stop.x, walk.point.y⟩,
        walk.error - segment.height⟩
    else
      walk
  if 2 * walk.error < segment.width then
    ⟨⟨sideways.point.x,
      sideways.point.y + heading segment.start.y segment.stop.y⟩,
      sideways.error + segment.width⟩
  else
    sideways

/-- The number of columns that the next step passes. -/
def columnsAhead (segment : Segment) (walk : Walk) : Nat :=
  if -(segment.height : Int) < 2 * walk.error then 1 else 0

/-- The number of rows that the next step passes. -/
def rowsAhead (segment : Segment) (walk : Walk) : Nat :=
  if 2 * walk.error < segment.width then 1 else 0

/-- A step adds what each coordinate moves, and the error follows both. -/
theorem next_eq
    (segment : Segment)
    (walk : Walk) :
    walk.next segment =
      ⟨⟨walk.point.x +
            heading segment.start.x segment.stop.x * walk.columnsAhead segment,
          walk.point.y +
            heading segment.start.y segment.stop.y * walk.rowsAhead segment⟩,
        walk.error + segment.width * walk.rowsAhead segment -
          segment.height * walk.columnsAhead segment⟩ := by
  unfold next columnsAhead rowsAhead
  by_cases sideways : -(segment.height : Int) < 2 * walk.error
  · by_cases downwards : 2 * walk.error < segment.width
    · simp [sideways, downwards]
      ring
    · simp [sideways, downwards]
  · by_cases downwards : 2 * walk.error < segment.width
    · simp [sideways, downwards]
    · simp [sideways, downwards]

end Walk

/-- The number of columns passed after `k` steps. -/
def columnsPassed (segment : Segment) (k : Nat) : Nat :=
  if segment.height ≤ segment.width then
    k
  else
    share k segment.width segment.height

/-- The number of rows passed after `k` steps. -/
def rowsPassed (segment : Segment) (k : Nat) : Nat :=
  if segment.height ≤ segment.width then
    share k segment.height segment.width
  else
    k

/-- The column after some steps, by the columns that are passed. -/
theorem column_eq
    (segment : Segment)
    (k : Nat) :
    segment.column k =
      segment.start.x +
        heading segment.start.x segment.stop.x * segment.columnsPassed k :=
  rfl

/-- The row after some steps, by the rows that are passed. -/
theorem row_eq
    (segment : Segment)
    (k : Nat) :
    segment.row k =
      segment.start.y +
        heading segment.start.y segment.stop.y * segment.rowsPassed k :=
  rfl

/-- The state of a walk after `k` steps. -/
def Walk.atStep (segment : Segment) (k : Nat) : Walk where
  point := segment.point k
  error :=
    segment.width - segment.height + segment.width * segment.rowsPassed k -
      segment.height * segment.columnsPassed k

section Steps

variable
  {segment : Segment}
  {k : Nat}

/-- The walk passes the columns that its state says are ahead. -/
theorem columnsPassed_succ
    (inside : k < segment.steps) :
    segment.columnsPassed (k + 1) =
      segment.columnsPassed k +
        (Walk.atStep segment k).columnsAhead segment := by
  unfold steps at inside
  simp only [Walk.columnsAhead, Walk.atStep, columnsPassed, rowsPassed]
  by_cases flat : segment.height ≤ segment.width
  · have positive : 0 < segment.width := by omega
    have bounds := share_bounds positive k segment.height
    simp only [flat, if_true]
    -- The longer axis moves at every step; on a diagonal the share is exact.
    rw [if_pos]
    rcases Nat.eq_or_lt_of_le flat with diagonal | less
    · rw [diagonal, share_diagonal positive]
      omega
    · rw [Nat.mul_comm k] at bounds
      omega
  · have positive : 0 < segment.height := by omega
    have narrow : segment.width ≤ segment.height := by omega
    simp only [flat, if_false]
    rw [share_succ positive narrow, Nat.add_mul k 1, Nat.mul_comm k]
    congr 1
    split <;> split <;> omega

/-- It passes the rows that its state says are ahead. -/
theorem rowsPassed_succ
    (inside : k < segment.steps) :
    segment.rowsPassed (k + 1) =
      segment.rowsPassed k + (Walk.atStep segment k).rowsAhead segment := by
  unfold steps at inside
  simp only [Walk.rowsAhead, Walk.atStep, columnsPassed, rowsPassed]
  by_cases flat : segment.height ≤ segment.width
  · have positive : 0 < segment.width := by omega
    simp only [flat, if_true]
    rw [share_succ positive flat, Nat.add_mul k 1, Nat.mul_comm k]
    congr 1
    split <;> split <;> omega
  · have positive : 0 < segment.height := by omega
    have bounds := share_bounds positive k segment.width
    simp only [flat, if_false]
    rw [Nat.mul_comm k] at bounds
    rw [if_pos]
    omega

/--
Before the end of a segment, a step leads from one closed form to the next.
-/
theorem Walk.next_atStep
    (inside : k < segment.steps) :
    (atStep segment k).next segment = atStep segment (k + 1) := by
  rw [next_eq]
  simp only [atStep, Segment.point, column_eq, row_eq, mk.injEq, Point.mk.injEq]
  rw [columnsPassed_succ inside, rowsPassed_succ inside]
  refine ⟨⟨?_, ?_⟩, ?_⟩
  all_goals
    simp only [atStep, Segment.point, column_eq, row_eq, Nat.cast_add]
    ring

/-- The walk starts in the closed form of no steps. -/
theorem Walk.start_eq_atStep (segment : Segment) :
    start segment = atStep segment 0 := by
  have columns : segment.columnsPassed 0 = 0 := by
    simp [columnsPassed, share_zero]
  have rows : segment.rowsPassed 0 = 0 := by
    simp [rowsPassed, share_zero]
  simp [start, atStep, Segment.point, column_eq, row_eq, columns, rows]

/--
A coordinate has arrived exactly when it has passed all that lies between.
-/
theorem add_heading_mul_eq_iff
    {start stop : Int}
    {passed : Nat} :
    start + heading start stop * passed = stop ↔
      passed = (stop - start).natAbs := by
  unfold heading
  split <;> omega

/-- Within a segment, only its last step leads to its end. -/
theorem point_eq_stop_iff
    (inside : k ≤ segment.steps) :
    segment.point k = segment.stop ↔ k = segment.steps := by
  have arrived :
      segment.point k = segment.stop ↔
        segment.columnsPassed k = segment.width ∧
          segment.rowsPassed k = segment.height := by
    rw [width, height, ← add_heading_mul_eq_iff, ← add_heading_mul_eq_iff]
    exact Iff.of_eq (Point.mk.injEq ..)
  rw [arrived]
  unfold steps at *
  unfold columnsPassed rowsPassed
  by_cases flat : segment.height ≤ segment.width
  · rw [if_pos flat, if_pos flat, Nat.max_eq_left flat, and_iff_left_iff_imp]
    rintro rfl
    rcases Nat.eq_zero_or_pos segment.width with none | positive
    · rw [none, share_zero]
      omega
    · exact share_full positive segment.height
  · rw [if_neg flat, if_neg flat, Nat.max_eq_right (by omega),
      and_iff_right_iff_imp]
    rintro rfl
    exact share_full (by omega) segment.width

end Steps

/-! ## Windows -/

/-- A coordinate that never turns back. -/
def Moves (direction : Int) (coordinate : Nat → Int) : Prop :=
  ∀ {first second : Nat},
    first ≤ second →
    if 0 < direction then
      coordinate first ≤ coordinate second
    else
      coordinate second ≤ coordinate first

/-- A coordinate that passes more and more never turns back. -/
theorem moves_heading
    (start stop : Int)
    {passed : Nat → Nat}
    (grows : Monotone passed) :
    Moves (heading start stop) fun k =>
      start + heading start stop * passed k := by
  intro first second ordered
  have further := grows ordered
  unfold heading
  by_cases forward : start < stop
  · rw [if_pos forward, if_pos (by decide)]
    dsimp only
    omega
  · rw [if_neg forward, if_neg (by decide)]
    dsimp only
    omega

/-- The columns of a segment never turn back. -/
theorem moves_column (segment : Segment) :
    Moves (heading segment.start.x segment.stop.x) segment.column := by
  apply moves_heading
  intro first second ordered
  dsimp only
  split
  · exact ordered
  · exact share_mono _ _ ordered

/-- Neither do its rows. -/
theorem moves_row (segment : Segment) :
    Moves (heading segment.start.y segment.stop.y) segment.row := by
  apply moves_heading
  intro first second ordered
  dsimp only
  split
  · exact share_mono _ _ ordered
  · exact ordered

/--
Outside its window, a coordinate that never turns back is out of its bounds.
-/
theorem window_excludes
    {coordinate : Nat → Int}
    {direction : Int}
    (moves : Moves direction coordinate)
    (low high : Int)
    {steps k : Nat}
    (inside : k ≤ steps)
    (outside :
      k < (window coordinate direction low high steps).first ∨
        (window coordinate direction low high steps).stop ≤ k) :
    coordinate k < low ∨ high < coordinate k := by
  have below : k < steps + 1 := Nat.lt_succ_of_le inside
  unfold window at outside
  by_cases forward : 0 < direction
  · have grows {first second : Nat} (ordered : first ≤ second) :
        coordinate first ≤ coordinate second := by
      simpa only [if_pos forward] using moves ordered
    rw [if_pos forward] at outside
    have enters :
        firstWhere (fun k => low ≤ coordinate k) 0 (steps + 1) ≤ k ↔
          low ≤ coordinate k :=
      firstWhere_le_iff
        (fun _ _ ordered reached => reached.trans (grows ordered))
        (Nat.zero_le k) below
    have leaves :
        firstWhere (fun k => high < coordinate k) 0 (steps + 1) ≤ k ↔
          high < coordinate k :=
      firstWhere_le_iff
        (fun _ _ ordered reached => reached.trans_le (grows ordered))
        (Nat.zero_le k) below
    dsimp only at outside
    omega
  · have shrinks {first second : Nat} (ordered : first ≤ second) :
        coordinate second ≤ coordinate first := by
      simpa only [if_neg forward] using moves ordered
    rw [if_neg forward] at outside
    have enters :
        firstWhere (fun k => coordinate k ≤ high) 0 (steps + 1) ≤ k ↔
          coordinate k ≤ high :=
      firstWhere_le_iff
        (fun _ _ ordered reached => (shrinks ordered).trans reached)
        (Nat.zero_le k) below
    have leaves :
        firstWhere (fun k => coordinate k < low) 0 (steps + 1) ≤ k ↔
          coordinate k < low :=
      firstWhere_le_iff
        (fun _ _ ordered reached => (shrinks ordered).trans_lt reached)
        (Nat.zero_le k) below
    dsimp only at outside
    omega

/-- The visible steps end no later than the segment. -/
theorem visible_le
    (segment : Segment)
    (size : Nat)
    (half : Int) :
    (segment.visible size half).first ≤ segment.steps + 1 ∧
      (segment.visible size half).stop ≤ segment.steps + 1 := by
  have found_le (holds : Nat → Bool) :
      firstWhere holds 0 (segment.steps + 1) ≤ segment.steps + 1 :=
    (firstWhere_bounds holds (Nat.zero_le _)).2
  have window_le (coordinate : Nat → Int) (direction low high : Int) :
      (window coordinate direction low high segment.steps).first ≤
        segment.steps + 1 ∧
        (window coordinate direction low high segment.steps).stop ≤
          segment.steps + 1 := by
    unfold window
    split
    · exact ⟨found_le _, found_le _⟩
    · exact ⟨found_le _, found_le _⟩
  constructor
  · exact Nat.max_le.mpr ⟨(window_le ..).1, (window_le ..).1⟩
  · exact (Nat.min_le_left _ _).trans (window_le ..).2

/-- A step that is not visible stamps outside the canvas. -/
theorem misses_of_not_visible
    {segment : Segment}
    {canvas : Canvas}
    {half : Int}
    {k : Nat}
    (inside : k ≤ segment.steps)
    (outside :
      k < (segment.visible canvas.size half).first ∨
        (segment.visible canvas.size half).stop ≤ k) :
    canvas.Misses half (segment.point k) := by
  intro x y onCanvas covers
  have column :=
    window_excludes (moves_column segment) (-half)
      (canvas.size - 1 + half) inside
  have row :=
    window_excludes (moves_row segment) (-half) (canvas.size - 1 + half) inside
  simp only [visible] at outside
  simp only [InSquare] at onCanvas
  simp only [Canvas.Covers, point] at covers
  omega

end Segment

namespace Canvas

/-! ## Stamping all steps -/

variable
  {segment : Segment}
  {size : Int}

/-- Stamps can be painted one stretch after the other. -/
theorem stampSteps_add
    (canvas : Canvas)
    (segment : Segment)
    (color : Color)
    (size : Int)
    (k first second : Nat) :
    canvas.stampSteps segment color size k (first + second) =
      (canvas.stampSteps segment color size k first).stampSteps
        segment color size
        (k + first) second := by
  induction first generalizing canvas k with
  | zero =>
      rw [Nat.zero_add]
      rfl
  | succ first inductionHypothesis =>
      rw [Nat.succ_add, stampSteps, stampSteps, inductionHypothesis,
        Nat.add_right_comm]
      rfl

/-- Steps that all stamp outside the canvas change nothing. -/
theorem stampSteps_of_misses
    {canvas : Canvas}
    (color : Color)
    {k count : Nat}
    (misses :
      ∀ step,
        k ≤ step →
        step < k + count →
        canvas.Misses (reach size) (segment.point step)) :
    canvas.stampSteps segment color size k count = canvas := by
  induction count generalizing k with
  | zero =>
      rfl
  | succ count inductionHypothesis =>
      rw [stampSteps,
        stamp_of_misses color (misses k (Nat.le_refl k) (by omega))]
      apply inductionHypothesis
      intro step reached below
      exact misses step (by omega) (by omega)

/-- Stamping the visible steps of a segment is stamping all of them. -/
theorem drawSegment_eq_stampSteps
    (canvas : Canvas)
    (segment : Segment)
    (color : Color)
    (size : Int) :
    canvas.drawSegment segment color size =
      canvas.stampSteps segment color size 0 (segment.steps + 1) := by
  have misses :
      ∀ step ≤ segment.steps,
        step < (segment.visible canvas.size (reach size)).first ∨
          (segment.visible canvas.size (reach size)).stop ≤ step →
        canvas.Misses (reach size) (segment.point step) :=
    fun step inside => Segment.misses_of_not_visible inside
  obtain ⟨firstBound, stopBound⟩ := segment.visible_le canvas.size (reach size)
  unfold drawSegment
  generalize segment.visible canvas.size (reach size) = window at *
  dsimp only
  -- The steps before the window, those in it, and those after both of its ends.
  have parts :
      segment.steps + 1 =
        window.first + ((window.stop - window.first) +
          (segment.steps + 1 - max window.first window.stop)) := by
    omega
  have before :
      canvas.stampSteps segment color size 0 window.first = canvas := by
    apply stampSteps_of_misses
    intro step _ below
    exact misses step (by omega) (.inl (by omega))
  rw [parts, stampSteps_add, before, Nat.zero_add, stampSteps_add]
  symm
  apply stampSteps_of_misses
  intro step reached below
  unfold Misses
  rw [(Painted.stampSteps canvas segment color size window.first _).size_eq]
  exact misses step (by omega) (.inr (by omega))

/-! ## The plain walk -/

/--
The plain walk: every point is stamped until the end of the segment is reached.
-/
inductive Walks (segment : Segment) (color : Color) (size : Int) :
    Canvas → Segment.Walk → Canvas → Prop where
  | arrive
      {canvas : Canvas}
      {walk : Segment.Walk}
      (arrived : walk.point = segment.stop) :
      Walks segment color size canvas walk (canvas.stamp walk.point color size)
  | move
      {canvas final : Canvas}
      {walk : Segment.Walk}
      (notYet : walk.point ≠ segment.stop)
      (rest :
        Walks segment color size (canvas.stamp walk.point color size)
          (walk.next segment) final) :
      Walks segment color size canvas walk final

/-- A walk leaves one canvas only. -/
theorem Walks.unique
    {canvas first second : Canvas}
    {color : Color}
    {walk : Segment.Walk}
    (walks : Walks segment color size canvas walk first)
    (also : Walks segment color size canvas walk second) :
    first = second := by
  induction walks with
  | arrive arrived =>
      cases also with
      | arrive =>
          rfl
      | move notYet =>
          exact (notYet arrived).elim
  | move notYet _ inductionHypothesis =>
      cases also with
      | arrive arrived =>
          exact (notYet arrived).elim
      | move _ rest =>
          exact inductionHypothesis rest

/--
From any of its steps on, the walk comes to an end and stamps all the steps
left.
-/
theorem walks_atStep
    (canvas : Canvas)
    (color : Color)
    (size : Int)
    {k : Nat}
    (inside : k ≤ segment.steps) :
    Walks segment color size canvas (.atStep segment k)
      (canvas.stampSteps segment color size k (segment.steps - k + 1)) := by
  induction gap : segment.steps - k generalizing canvas k with
  | zero =>
      have arrived : segment.point k = segment.stop :=
        (Segment.point_eq_stop_iff inside).mpr (by omega)
      exact .arrive arrived
  | succ gap inductionHypothesis =>
      have notYet : segment.point k ≠ segment.stop := by
        rw [ne_eq, Segment.point_eq_stop_iff inside]
        omega
      refine .move notYet ?_
      rw [Segment.Walk.next_atStep (by omega)]
      exact inductionHypothesis _ (by omega) (by omega)

/--
The plain walk along a segment comes to its end, and leaves the canvas that
drawing the segment leaves, and no other.
-/
theorem walks_iff_eq_drawSegment
    (canvas final : Canvas)
    (segment : Segment)
    (color : Color)
    (size : Int) :
    Walks segment color size canvas (.start segment) final ↔
      final = canvas.drawSegment segment color size := by
  have walks := walks_atStep canvas color size (Nat.zero_le segment.steps)
  rw [Nat.sub_zero, ← Segment.Walk.start_eq_atStep,
    ← drawSegment_eq_stampSteps] at walks
  constructor
  · intro ends
    exact ends.unique walks
  · rintro rfl
    exact walks

end Canvas

end PixelBrush
