import PixelBrush.Palette
import PixelBrush.Point

namespace PixelBrush

/-!
# The canvas

A canvas is a square of colored cells, kept row by row.  Painting outside the
square has no effect.  While a journal is open, every write that changes a cell
records the color it replaced, and rolling back restores the recorded colors
from the newest to the oldest.
-/

/-- A cell that was changed, and the color it had before. -/
structure Change where
  index : Nat
  previous : Color
  deriving Repr, DecidableEq

/--
A square of colored cells, and the changes made since a journal was opened.
-/
structure Canvas where
  size : Nat
  cells : Array Color
  journal : Option (List Change)
  cells_size : cells.size = size * size
  deriving Repr, DecidableEq

/-- Undoes changes, the first of the list first. -/
def undo (cells : Array Color) (changes : List Change) : Array Color :=
  changes.foldl
    (fun cells change => cells.setIfInBounds change.index change.previous) cells

/-- Undoing changes keeps the number of cells. -/
theorem size_undo (cells : Array Color) (changes : List Change) :
    (undo cells changes).size = cells.size := by
  unfold undo
  induction changes generalizing cells with
  | nil =>
      rfl
  | cons change changes inductionHypothesis =>
      simp [inductionHypothesis]

namespace Canvas

/-- The white canvas with the given side. -/
def blank (size : Nat) : Canvas where
  size := size
  cells := Array.replicate (size * size) .white
  journal := none
  cells_size := Array.size_replicate

/-- The index of a cell of the canvas. -/
def index? (canvas : Canvas) (x y : Int) : Option Nat :=
  if InSquare canvas.size x y then
    some (y.toNat * canvas.size + x.toNat)
  else
    none

/-- The color of a cell. -/
def get? (canvas : Canvas) (x y : Int) : Option Color :=
  (canvas.index? x y).bind fun index => canvas.cells[index]?

/--
Gives the cell at an index a color, recording a change while a journal is open.
-/
def write (canvas : Canvas) (index : Nat) (color : Color) : Canvas :=
  match canvas.cells[index]? with
  | none => canvas
  | some previous =>
      if previous = color then
        canvas
      else
        { canvas with
          cells := canvas.cells.setIfInBounds index color
          journal := canvas.journal.map (⟨index, previous⟩ :: ·)
          cells_size := Array.size_setIfInBounds.trans canvas.cells_size }

/-- Paints one cell, if the canvas has it. -/
def paint (canvas : Canvas) (x y : Int) (color : Color) : Canvas :=
  match canvas.index? x y with
  | none => canvas
  | some index => canvas.write index color

/-- Opens an empty journal. -/
def openJournal (canvas : Canvas) : Canvas :=
  { canvas with journal := some [] }

/-- Keeps all changes and closes the journal. -/
def commit (canvas : Canvas) : Canvas :=
  { canvas with journal := none }

/-- The changes recorded since the journal was opened, newest first. -/
def changes (canvas : Canvas) : List Change :=
  canvas.journal.getD []

/-- How many changes rolling back undoes. -/
def restored (canvas : Canvas) : Nat :=
  canvas.changes.length

/-- Undoes the recorded changes and closes the journal. -/
def rollback (canvas : Canvas) : Canvas :=
  { canvas with
    cells := undo canvas.cells canvas.changes
    journal := none
    cells_size := (size_undo _ _).trans canvas.cells_size }

/--
The number of cells of a color between two corners, clipped to the canvas.
-/
def count (canvas : Canvas) (color : Color) (x₁ y₁ x₂ y₂ : Int) : Nat :=
  let left := (min x₁ x₂).toNat
  let top := (min y₁ y₂).toNat
  let right := min (max x₁ x₂ + 1).toNat canvas.size
  let bottom := min (max y₁ y₂ + 1).toNat canvas.size
  let inRow (row : Nat) : Nat :=
    (canvas.cells.extract (row * canvas.size + left)
      (row * canvas.size + right)).count color
  ((List.range' top (bottom - top)).map inRow).foldr (· + ·) 0

/-- The colors of one row, from left to right. -/
def row (canvas : Canvas) (y : Nat) : List Color :=
  (canvas.cells.extract (y * canvas.size) ((y + 1) * canvas.size)).toList

/-- The rows, from top to bottom. -/
def rows (canvas : Canvas) : List (List Color) :=
  (List.range canvas.size).map canvas.row

/-- One line of letters for each row. -/
def textLines (canvas : Canvas) : List String :=
  canvas.rows.map fun row => String.ofList (row.map Color.letter)

/--
The memory that a canvas is counted with: a fixed part and a byte for each cell.
-/
def byteSize (canvas : Canvas) : Nat :=
  56 + canvas.size * canvas.size

end Canvas

end PixelBrush
