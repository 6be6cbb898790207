import PixelBrush.Canvas.Basic

namespace PixelBrush

/-!
# Stamps

A stamp paints the square footprint of a brush around a point.  The part outside
the canvas is cut off before any cell is visited.
-/

namespace Canvas

/-- Paints `count` cells of one row, starting at `x`. -/
def paintRun (canvas : Canvas) (x y : Int) (color : Color) : Nat → Canvas
  | 0 => canvas
  | count + 1 => (canvas.paint x y color).paintRun (x + 1) y color count

/-- Paints `height` rows of `width` cells each, starting at `(x, y)`. -/
def paintBlock
    (canvas : Canvas)
    (x y : Int)
    (color : Color)
    (width : Nat) :
    Nat → Canvas
  | 0 => canvas
  | height + 1 =>
      (canvas.paintRun x y color width).paintBlock x (y + 1) color width height

/-- How far a footprint of the given side reaches from its center. -/
def reach (size : Int) : Int :=
  size.tdiv 2

/-- Paints the footprint of a brush around a point, clipped to the canvas. -/
def stamp
    (canvas : Canvas)
    (center : Point)
    (color : Color)
    (size : Int) :
    Canvas :=
  let half := reach size
  let left := max (center.x - half) 0
  let right := min (center.x + half) (canvas.size - 1)
  let top := max (center.y - half) 0
  let bottom := min (center.y + half) (canvas.size - 1)
  canvas.paintBlock left top color (right - left + 1).toNat
    (bottom - top + 1).toNat

end Canvas

end PixelBrush
