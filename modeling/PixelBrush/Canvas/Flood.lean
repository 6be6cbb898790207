import PixelBrush.Canvas.Basic
import PixelBrush.Queue

namespace PixelBrush

/-!
# Flooding

Flooding recolors the cells joined to a seed through side-by-side cells of its
color.  The cells that are found wait in a queue.  A cell is painted and counted
when its turn comes, and its neighbors are looked at then; those of the old
color that have not been visited before are found.  A cell is visited once, and
so the search ends.
-/

/-- A set of cells of a square, with a mark for each cell of the square. -/
structure CellSet where
  size : Nat
  marks : Array Bool
  marks_size : marks.size = size * size

namespace CellSet

/-- The set without cells. -/
def empty (size : Nat) : CellSet where
  size := size
  marks := Array.replicate (size * size) false
  marks_size := Array.size_replicate

/-- Where the mark of a cell is kept. -/
def index (cells : CellSet) (point : Point) : Nat :=
  point.y.toNat * cells.size + point.x.toNat

/-- Whether a point is a cell of the square that is not in the set. -/
def lacks (cells : CellSet) (point : Point) : Bool :=
  InSquare cells.size point.x point.y ∧
    cells.marks[cells.index point]? = some false

/-- Adds a cell. -/
def insert (cells : CellSet) (point : Point) : CellSet where
  size := cells.size
  marks := cells.marks.setIfInBounds (cells.index point) true
  marks_size := by rw [Array.size_setIfInBounds, cells.marks_size]

/-- How many cells of the square are not in the set. -/
def missing (cells : CellSet) : Nat :=
  cells.marks.count false

/-- Adding a cell that is not in the set leaves one cell less outside. -/
theorem missing_insert
    {cells : CellSet}
    {point : Point}
    (lacking : cells.lacks point) :
    (cells.insert point).missing + 1 = cells.missing := by
  obtain ⟨_, unmarked⟩ := of_decide_eq_true lacking
  obtain ⟨inside, same⟩ := Array.getElem?_eq_some_iff.mp unmarked
  have present : 0 < cells.marks.count false :=
    Array.count_pos_iff.mpr (same ▸ Array.getElem_mem inside)
  simp only [insert, missing, Array.setIfInBounds, inside, ↓reduceDIte]
  rw [Array.count_set, same, if_pos (beq_self_eq_true false),
    if_neg (by decide)]
  exact Nat.sub_add_cancel present

end CellSet

/--
A flood in progress: the canvas, the cells that wait for their turn, the cells
that have been visited, and how many have been painted.
-/
structure Flood where
  canvas : Canvas
  queue : Queue Point
  visited : CellSet
  painted : Nat

namespace Flood

/-- The flood of a canvas before the first cell is found. -/
def start (canvas : Canvas) : Flood :=
  ⟨canvas, .empty, .empty canvas.size, 0⟩

/-- The four neighbors of a point. -/
def neighbors (point : Point) : List Point :=
  [⟨point.x + 1, point.y⟩, ⟨point.x - 1, point.y⟩, ⟨point.x, point.y + 1⟩,
    ⟨point.x, point.y - 1⟩]

/-- Lets a cell wait that has the old color and has not been visited before. -/
def discover (old : Color) (flood : Flood) (point : Point) : Flood :=
  if flood.canvas.get? point.x point.y = some old ∧
      flood.visited.lacks point then
    { flood with
      visited := flood.visited.insert point
      queue := flood.queue.push point }
  else
    flood

/-- Paints a cell whose turn has come, and counts it. -/
def paint (new : Color) (flood : Flood) (point : Point) : Flood :=
  { flood with
    canvas := flood.canvas.paint point.x point.y new
    painted := flood.painted + 1 }

/--
How much searching is left at most.  A cell that is found weighs less in the
queue than it did among the missing ones.
-/
def work (flood : Flood) : Nat :=
  2 * flood.visited.missing + flood.queue.toList.length

/-- Looking at a cell does not add work. -/
theorem work_discover_le
    (old : Color)
    (flood : Flood)
    (point : Point) :
    (flood.discover old point).work ≤ flood.work := by
  unfold discover
  split
  · rename_i found
    have fewer := CellSet.missing_insert found.2
    simp only [work, Queue.toList_push, List.length_append,
      List.length_singleton]
    omega
  · exact Nat.le_refl _

/-- Looking at several cells does not add work. -/
theorem work_discoverAll_le
    (old : Color)
    (points : List Point)
    (flood : Flood) :
    (points.foldl (discover old) flood).work ≤ flood.work := by
  induction points generalizing flood with
  | nil =>
      exact Nat.le_refl _
  | cons point points inductionHypothesis =>
      exact Nat.le_trans (inductionHypothesis _)
        (work_discover_le old flood point)

/-- Paints one cell after the other until none waits. -/
def spread (old new : Color) (flood : Flood) : Flood :=
  match _next : flood.queue.pop? with
  | none => flood
  | some (point, queue) =>
      spread old new
        ((neighbors point).foldl (discover old)
          ({ flood with queue }.paint new point))
termination_by flood.work
decreasing_by
  have noMore :=
    work_discoverAll_le old (neighbors point)
      ({ flood with queue }.paint new point)
  have popped : flood.queue.toList = point :: queue.toList :=
    Queue.toList_of_pop? (by assumption)
  have fewer : ({ flood with queue }.paint new point).work < flood.work := by
    simp only [work, paint, popped, List.length_cons]
    omega
  exact Nat.lt_of_le_of_lt noMore fewer

end Flood

namespace Canvas

/--
Floods from a seed; nothing happens outside the canvas or on the new color.
-/
def flood (canvas : Canvas) (x y : Int) (color : Color) : Flood :=
  match canvas.get? x y with
  | none => .start canvas
  | some old =>
      if old = color then
        .start canvas
      else
        Flood.spread old color ((Flood.start canvas).discover old ⟨x, y⟩)

end Canvas

end PixelBrush
