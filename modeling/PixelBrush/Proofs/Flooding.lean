import Mathlib.Data.Finset.Card
import PixelBrush.Proofs.Cells

namespace PixelBrush

/-!
# The area of a flood

A flood goes from cell to cell through sides and looks at the canvas as it is
being painted.  The cells that it has painted, followed by those that wait for
their turn, are the cells found so far.  None of them is found twice, they are
the visited cells, and each is joined to the seed by cells that all had the
color of the seed before.  The painted cells are counted, no other cell has
changed, and all their neighbors of the old color have been found.  When no cell
waits, the painted cells are all that is joined to the seed.
-/

namespace CellSet

/-- A set holds the cells of its square that are marked. -/
instance : Membership Point CellSet where
  mem cells point :=
    InSquare cells.size point.x point.y ∧
      cells.marks[cells.index point]? = some true

/-- A set has a mark for each cell of its square. -/
theorem index_lt
    {cells : CellSet}
    {point : Point}
    (inside : InSquare cells.size point.x point.y) :
    cells.index point < cells.marks.size := by
  rw [cells.marks_size]
  exact inside.index_lt

/-- The empty set holds nothing. -/
theorem notMem_empty (size : Nat) (point : Point) : point ∉ empty size := by
  rintro ⟨_, marked⟩
  rw [empty, Array.getElem?_replicate] at marked
  split at marked <;> cases marked

/-- A set lacks the cells of its square that it does not hold. -/
theorem lacks_iff
    {cells : CellSet}
    {point : Point}
    (inside : InSquare cells.size point.x point.y) :
    cells.lacks point ↔ point ∉ cells := by
  have stored := Array.getElem?_eq_getElem (index_lt inside)
  simp only [lacks, decide_eq_true_eq, Membership.mem, inside, true_and]
  rw [stored, Option.some.injEq, Option.some.injEq, Bool.not_eq_true]

/--
A set to which a cell of its square was added holds this cell in addition.
-/
theorem mem_insert_iff
    {cells : CellSet}
    {point : Point}
    (inside : InSquare cells.size point.x point.y)
    (other : Point) :
    other ∈ cells.insert point ↔ other ∈ cells ∨ other = point := by
  -- Two cells of the square share their mark only if they are the same.
  by_cases same : other = point
  · subst same
    simp only [or_true, iff_true]
    exact ⟨inside, Array.getElem?_setIfInBounds_self_of_lt (index_lt inside)⟩
  · simp only [same, or_false]
    apply and_congr_right
    intro alsoInside
    have apart : cells.index point ≠ cells.index other := by
      intro sameIndex
      obtain ⟨sameColumn, sameRow⟩ := inside.eq_of_index_eq alsoInside sameIndex
      exact same (Point.mk.injEq .. ▸ ⟨sameColumn.symm, sameRow.symm⟩)
    exact Eq.congr_left (Array.getElem?_setIfInBounds_ne apart)

end CellSet

namespace Canvas

/-- The second point is a cell of a color at a side of the first. -/
def Adjoins (canvas : Canvas) (color : Color) (point next : Point) : Prop :=
  next ∈ Flood.neighbors point ∧ canvas.get? next.x next.y = some color

/-- The second point is reached from the first through cells of a color. -/
abbrev Joined (canvas : Canvas) (color : Color) : Point → Point → Prop :=
  Relation.ReflTransGen (canvas.Adjoins color)

end Canvas

namespace Flood

/--
The cells found so far: those that have been painted, then those that wait.
-/
def found (done : List Point) (flood : Flood) : List Point :=
  done ++ flood.queue.toList

/-- What links the queue, the visited cells and the painted cells of a flood. -/
structure Fills
    (before : Canvas)
    (old new : Color)
    (seed : Point)
    (done : List Point)
    (flood : Flood) :
    Prop where
  joined : ∀ point ∈ flood.found done, before.Joined old seed point
  once : (flood.found done).Nodup
  square : flood.visited.size = before.size
  visited : ∀ point, point ∈ flood.visited ↔ point ∈ flood.found done
  painted : flood.painted = done.length
  colors : Canvas.Colors new (fun x y => ⟨x, y⟩ ∈ done) before flood.canvas

/--
What looking at cells adds: the found cells stay and those of the old color
come.
-/
structure Finds
    (before : Canvas)
    (old : Color)
    (looked : List Point)
    (found more : List Point) :
    Prop where
  kept : ∀ point ∈ found, point ∈ more
  added :
    ∀ point ∈ looked, before.get? point.x point.y = some old → point ∈ more

variable
  {before : Canvas}
  {old new : Color}
  {seed : Point}
  {done : List Point}
  {flood : Flood}

/-- Looking at more cells afterwards finds what both find. -/
theorem Finds.cons
    {point : Point}
    {rest found middle more : List Point}
    (first : Finds before old [point] found middle)
    (others : Finds before old rest middle more) :
    Finds before old (point :: rest) found more where
  kept := fun other member => others.kept other (first.kept other member)
  added := by
    intro other looked hasOld
    rcases List.mem_cons.mp looked with rfl | later
    · exact others.kept other (first.added other List.mem_cons_self hasOld)
    · exact others.added other later hasOld

namespace Fills

/-- Nothing is found before the search. -/
theorem start
    (before : Canvas)
    (old new : Color)
    (seed : Point) :
    Fills before old new seed [] (.start before) where
  joined := by simp [found, Flood.start]
  once := List.nodup_nil
  square := rfl
  visited := by
    intro point
    simp [found, Flood.start, CellSet.notMem_empty]
  painted := rfl
  colors := .unchanged (by simp)

/--
The cells that still have the old color are those that have not been painted.
-/
theorem get?_eq_old_iff
    (fills : Fills before old new seed done flood)
    (differ : new ≠ old)
    (point : Point) :
    flood.canvas.get? point.x point.y = some old ↔
      before.get? point.x point.y = some old ∧ point ∉ done := by
  by_cases member : point ∈ done
  · simp only [member, not_true_eq_false, and_false, iff_false]
    intro still
    have onCanvas : InSquare before.size point.x point.y :=
      fills.colors.size ▸ Canvas.inSquare_of_get? still
    have painted := fills.colors.colored point.x point.y onCanvas member
    rw [still, Option.some.injEq] at painted
    exact differ painted.symm
  · simp only [member, not_false_eq_true, and_true]
    rw [fills.colors.get?_eq member]

/-- A cell is let in when it had the old color and has not been found yet. -/
theorem discover_iff
    (fills : Fills before old new seed done flood)
    (differ : new ≠ old)
    (point : Point) :
    flood.canvas.get? point.x point.y = some old ∧ flood.visited.lacks point ↔
      before.get? point.x point.y = some old ∧ point ∉ flood.found done := by
  rw [fills.get?_eq_old_iff differ, and_assoc]
  apply and_congr_right
  intro hadOld
  have inside : InSquare flood.visited.size point.x point.y :=
    fills.square ▸ Canvas.inSquare_of_get? hadOld
  rw [CellSet.lacks_iff inside, fills.visited, and_iff_right_iff_imp]
  exact mt (List.mem_append_left _)

/-- Looking at a cell that is joined to the seed, if it has the old color. -/
theorem discover
    (fills : Fills before old new seed done flood)
    (differ : new ≠ old)
    {point : Point}
    (joined :
      before.get? point.x point.y = some old →
      before.Joined old seed point) :
    Fills before old new seed done (flood.discover old point) ∧
      Finds before old [point] (flood.found done)
        ((flood.discover old point).found done) := by
  unfold Flood.discover
  split
  · rename_i letIn
    obtain ⟨hadOld, fresh⟩ := (fills.discover_iff differ point).mp letIn
    have inside : InSquare flood.visited.size point.x point.y :=
      fills.square ▸ Canvas.inSquare_of_get? hadOld
    have longer :
        { flood with
          visited := flood.visited.insert point
          queue := flood.queue.push point : Flood }.found done =
          flood.found done ++ [point] := by
      simp only [found, Queue.toList_push, List.append_assoc]
    constructor
    · exact
        { fills with
          joined := by
            rw [longer]
            intro other member
            rcases List.mem_append.mp member with older | latest
            · exact fills.joined other older
            · rw [List.mem_singleton.mp latest]
              exact joined hadOld
          once := by
            rw [longer, List.nodup_append_comm]
            exact List.nodup_cons.mpr ⟨fresh, fills.once⟩
          visited := by
            intro other
            rw [longer, List.mem_append, List.mem_singleton, ← fills.visited]
            exact CellSet.mem_insert_iff inside other }
    · rw [longer]
      exact
        { kept := fun other member => List.mem_append_left _ member
          added := fun other looked _ => List.mem_append_right _ looked }
  · rename_i refused
    refine ⟨fills, fun _ member => member, ?_⟩
    intro other looked hadOld
    rw [List.mem_singleton.mp looked] at hadOld ⊢
    exact Decidable.byContradiction fun fresh =>
      refused ((fills.discover_iff differ point).mpr ⟨hadOld, fresh⟩)

/-- Looking at several cells, one after the other. -/
theorem discoverAll
    (differ : new ≠ old)
    (points : List Point)
    (joined :
      ∀ point ∈ points,
        before.get? point.x point.y = some old →
        before.Joined old seed point)
    {flood : Flood}
    (fills : Fills before old new seed done flood) :
    Fills before old new seed done (points.foldl (Flood.discover old) flood) ∧
      Finds before old points (flood.found done)
        ((points.foldl (Flood.discover old) flood).found done) := by
  induction points generalizing flood with
  | nil =>
      exact ⟨fills, fun _ member => member, by simp⟩
  | cons first rest inductionHypothesis =>
      obtain ⟨joinedFirst, joinedRest⟩ := List.forall_mem_cons.mp joined
      obtain ⟨fillsMiddle, finds⟩ := fills.discover differ joinedFirst
      obtain ⟨fillsAll, findsRest⟩ := inductionHypothesis joinedRest fillsMiddle
      exact ⟨fillsAll, finds.cons findsRest⟩

/-- The cell whose turn comes is painted, and the same cells have been found. -/
theorem paint
    (fills : Fills before old new seed done flood)
    {point : Point}
    {queue : Queue Point}
    (popped : flood.queue.pop? = some (point, queue)) :
    Fills before old new seed (done ++ [point])
      ({ flood with queue }.paint new point) ∧
      ({ flood with queue }.paint new point).found (done ++ [point]) =
        flood.found done := by
  have same :
      ({ flood with queue }.paint new point).found (done ++ [point]) =
        flood.found done := by
    simp only [found, Flood.paint, Queue.toList_of_pop? popped,
      List.append_assoc, List.singleton_append]
  refine ⟨?_, same⟩
  exact
    { joined := same ▸ fills.joined
      once := same ▸ fills.once
      square := fills.square
      visited := same ▸ fills.visited
      painted := by
        rw [List.length_append, List.length_singleton, ← fills.painted]
        rfl
      colors := by
        apply (fills.colors.trans
          (Canvas.colors_paint _ point.x point.y new)).congr
        intro x y _
        rw [List.mem_append, List.mem_singleton, Point.mk.injEq] }

end Fills

/-- All neighbors of the old color of a cell have been found. -/
def Explored
    (before : Canvas)
    (old : Color)
    (found : List Point)
    (point : Point) :
    Prop :=
  ∀ next, before.Adjoins old point next → next ∈ found

/-- A cell stays explored while more cells are found. -/
theorem Explored.mono
    {found more : List Point}
    {point : Point}
    (explored : Explored before old found point)
    (kept : ∀ other ∈ found, other ∈ more) :
    Explored before old more point :=
  fun next adjoins => kept next (explored next adjoins)

/--
Painting until no cell waits leaves no neighbor of a painted cell unpainted.
-/
theorem Fills.spread
    (differ : new ≠ old)
    (fills : Fills before old new seed done flood)
    (explored : ∀ point ∈ done, Explored before old (flood.found done) point) :
    ∃ area,
      Fills before old new seed area (Flood.spread old new flood) ∧
        (∀ point ∈ flood.found done, point ∈ area) ∧
          ∀ point ∈ area, Explored before old area point := by
  -- The invariant is about the painted cells, so it is carried for all of them.
  fun_induction Flood.spread old new flood generalizing done with
  | case1 flood popped =>
      have all : flood.found done = done := by
        rw [found, Queue.toList_of_pop?_none popped, List.append_nil]
      rw [all] at explored ⊢
      exact ⟨done, fills, fun _ member => member, explored⟩
  | case2 flood point queue popped inductionHypothesis =>
      obtain ⟨fillsPainted, same⟩ := fills.paint popped
      have waited : point ∈ flood.found done := by
        rw [found, Queue.toList_of_pop? popped]
        exact List.mem_append_right _ List.mem_cons_self
      obtain ⟨fillsNext, finds⟩ :=
        fillsPainted.discoverAll differ (neighbors point)
          fun next side hasOld =>
            (fills.joined point waited).tail ⟨side, hasOld⟩
      rw [same] at finds
      -- Looking at its neighbors explores the cell that has just been painted.
      have exploredNext :
          ∀ other ∈ done ++ [point],
            Explored before old
              (((neighbors point).foldl (Flood.discover old)
                ({ flood with queue }.paint new point)).found (done ++ [point]))
              other := by
        intro other member
        rcases List.mem_append.mp member with older | latest
        · exact (explored other older).mono finds.kept
        · rw [List.mem_singleton.mp latest]
          exact fun next adjoins => finds.added next adjoins.1 adjoins.2
      obtain ⟨area, fillsAll, kept, closed⟩ :=
        inductionHypothesis fillsNext exploredNext
      exact ⟨area, fillsAll,
        fun other member => kept other (finds.kept other member), closed⟩

end Flood

namespace Canvas

/-- An explored area that holds the seed holds all that is joined to it. -/
theorem Joined.mem
    {canvas : Canvas}
    {old : Color}
    {area : List Point}
    {seed point : Point}
    (joined : canvas.Joined old seed point)
    (seeded : seed ∈ area)
    (closed : ∀ point ∈ area, Flood.Explored canvas old area point) :
    point ∈ area := by
  induction joined with
  | refl =>
      exact seeded
  | tail _ adjoins inductionHypothesis =>
      exact closed _ inductionHypothesis _ adjoins

/-- What is joined to a cell of a color has that color. -/
theorem Joined.get?_eq
    {canvas : Canvas}
    {old : Color}
    {seed point : Point}
    (joined : canvas.Joined old seed point)
    (found : canvas.get? seed.x seed.y = some old) :
    canvas.get? point.x point.y = some old := by
  cases joined with
  | refl =>
      exact found
  | tail _ adjoins =>
      exact adjoins.2

/--
A flood from a cell of another color recolors what is joined to that cell.
-/
theorem colors_flood
    {canvas : Canvas}
    {old color : Color}
    {seed : Point}
    (found : canvas.get? seed.x seed.y = some old)
    (differ : color ≠ old) :
    ∃ area : Finset Point,
      (∀ point, point ∈ area ↔ canvas.Joined old seed point) ∧
        (canvas.flood seed.x seed.y color).painted = area.card ∧
          Colors color (fun x y => ⟨x, y⟩ ∈ area) canvas
            (canvas.flood seed.x seed.y color).canvas := by
  obtain ⟨fills, finds⟩ :=
    (Flood.Fills.start canvas old color seed).discover differ fun _ => .refl
  obtain ⟨area, fillsArea, kept, closed⟩ :=
    fills.spread differ (fun _ member => absurd member List.not_mem_nil)
  have joined : ∀ point ∈ area, canvas.Joined old seed point :=
    fun point member => fillsArea.joined point (List.mem_append_left _ member)
  have once : area.Nodup :=
    fillsArea.once.of_append_left
  have seeded : seed ∈ area :=
    kept seed (finds.added seed List.mem_cons_self found)
  have isSpread :
      canvas.flood seed.x seed.y color =
        Flood.spread old color ((Flood.start canvas).discover old seed) := by
    simp only [flood, found, if_neg differ.symm]
  rw [isSpread]
  refine ⟨area.toFinset, ?_, ?_, ?_⟩
  · intro point
    rw [List.mem_toFinset]
    exact ⟨joined point, fun joined => joined.mem seeded closed⟩
  · rw [List.toFinset_card_of_nodup once, fillsArea.painted]
  · apply fillsArea.colors.congr
    intro x y _
    rw [List.mem_toFinset]

/-- A flood outside the canvas or from a cell of its own color does nothing. -/
theorem flood_of_not_differ
    {canvas : Canvas}
    {x y : Int}
    {color : Color}
    (idle : canvas.get? x y = none ∨ canvas.get? x y = some color) :
    canvas.flood x y color = .start canvas := by
  rcases idle with outside | already
  · simp only [flood, outside]
  · simp only [flood, already, ↓reduceIte]

/--
A cell that a flood changes is joined to the seed by cells of the seed's color.
-/
theorem joined_of_flood
    {canvas : Canvas}
    {color : Color}
    (seed point : Point)
    (changed :
      (canvas.flood seed.x seed.y color).canvas.get? point.x point.y ≠
        canvas.get? point.x point.y) :
    ∃ old,
      canvas.get? seed.x seed.y = some old ∧ canvas.Joined old seed point := by
  cases found : canvas.get? seed.x seed.y with
  | none =>
      rw [flood_of_not_differ (.inl found)] at changed
      exact absurd rfl changed
  | some old =>
      by_cases same : color = old
      · rw [flood_of_not_differ (.inr (same ▸ found))] at changed
        exact absurd rfl changed
      · obtain ⟨area, joined, _, colors⟩ := colors_flood found same
        refine ⟨old, rfl, (joined point).mp ?_⟩
        exact Decidable.byContradiction fun outside =>
          changed (colors.get?_eq outside)

end Canvas

end PixelBrush
