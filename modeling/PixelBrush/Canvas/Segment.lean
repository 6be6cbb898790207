import PixelBrush.Canvas.Stamp
import PixelBrush.Search

namespace PixelBrush

/-!
# Line segments

The `k`-th point of a segment lies `k` cells along its longer axis and a rounded
share of `k` along the other, halves rounded down.  Each coordinate moves one
way only, so the steps whose stamps can reach the canvas form one interval,
found by bisection; the cost of a line follows the canvas and not its length.
-/

/-- A straight segment between two points. -/
structure Segment where
  start : Point
  stop : Point
  deriving Repr, DecidableEq

namespace Segment

/-- The number of columns between the ends. -/
def width (segment : Segment) : Nat :=
  (segment.stop.x - segment.start.x).natAbs

/-- The number of rows between the ends. -/
def height (segment : Segment) : Nat :=
  (segment.stop.y - segment.start.y).natAbs

/-- The number of steps from one end to the other. -/
def steps (segment : Segment) : Nat :=
  max segment.width segment.height

/-- The direction of a coordinate from one value towards another. -/
def heading (start stop : Int) : Int :=
  if start < stop then 1 else -1

/-- The share `k * minor / major`, halves rounded down. -/
def share (k minor major : Nat) : Nat :=
  if major = 0 then
    0
  else
    (2 * k * minor + major - 1) / (2 * major)

/-- The column after `k` steps. -/
def column (segment : Segment) (k : Nat) : Int :=
  segment.start.x + heading segment.start.x segment.stop.x *
    (if segment.height ≤ segment.width then
        k
      else
        share k segment.width segment.height :
      Nat)

/-- The row after `k` steps. -/
def row (segment : Segment) (k : Nat) : Int :=
  segment.start.y + heading segment.start.y segment.stop.y *
    (if segment.height ≤ segment.width then
        share k segment.height segment.width
      else
        k :
      Nat)

/-- The point after `k` steps. -/
def point (segment : Segment) (k : Nat) : Point :=
  ⟨segment.column k, segment.row k⟩

/-- The steps from the first up to but not including the second. -/
structure Window where
  first : Nat
  stop : Nat
  deriving Repr, DecidableEq

/--
The steps at which a coordinate that moves in one direction is between two
bounds.
-/
def window
    (coordinate : Nat → Int)
    (direction low high : Int)
    (steps : Nat) :
    Window :=
  if 0 < direction then
    ⟨firstWhere (fun k => low ≤ coordinate k) 0 (steps + 1),
      firstWhere (fun k => high < coordinate k) 0 (steps + 1)⟩
  else
    ⟨firstWhere (fun k => coordinate k ≤ high) 0 (steps + 1),
      firstWhere (fun k => coordinate k < low) 0 (steps + 1)⟩

/-- The steps whose stamps can reach a canvas of the given side. -/
def visible (segment : Segment) (size : Nat) (half : Int) : Window :=
  let low := -half
  let high := size - 1 + half
  let columns := window segment.column (heading segment.start.x segment.stop.x)
    low high segment.steps
  let rows := window segment.row (heading segment.start.y segment.stop.y)
    low high segment.steps
  ⟨max columns.first rows.first, min columns.stop rows.stop⟩

end Segment

namespace Canvas

/-- Stamps `count` points of a segment, starting at step `k`. -/
def stampSteps
    (canvas : Canvas)
    (segment : Segment)
    (color : Color)
    (size : Int)
    (k : Nat) :
    Nat → Canvas
  | 0 => canvas
  | count + 1 =>
      (canvas.stamp (segment.point k) color size).stampSteps segment color size
        (k + 1) count

/-- Draws a segment, both ends included. -/
def drawSegment
    (canvas : Canvas)
    (segment : Segment)
    (color : Color)
    (size : Int) :
    Canvas :=
  let window := segment.visible canvas.size (reach size)
  canvas.stampSteps segment color size window.first (window.stop - window.first)

/-- Draws the outline of a box around a point as four segments. -/
def drawBox
    (canvas : Canvas)
    (center : Point)
    (width height : Int)
    (color : Color)
    (size : Int) :
    Canvas :=
  let left := center.x - width.tdiv 2
  let right := center.x + width.tdiv 2
  let top := center.y - height.tdiv 2
  let bottom := center.y + height.tdiv 2
  let sides : List Segment :=
    [⟨⟨left, top⟩, ⟨right, top⟩⟩, ⟨⟨right, top⟩, ⟨right, bottom⟩⟩,
      ⟨⟨right, bottom⟩, ⟨left, bottom⟩⟩, ⟨⟨left, bottom⟩, ⟨left, top⟩⟩]
  sides.foldl (fun canvas side => canvas.drawSegment side color size) canvas

end Canvas

end PixelBrush
