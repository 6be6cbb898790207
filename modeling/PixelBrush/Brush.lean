import PixelBrush.Number
import PixelBrush.Palette

namespace PixelBrush

/-!
# The brush

The brush has a position, a color and the side of its square footprint.  The
footprint has a center cell, so an even side is lowered to the odd one below.
-/

/-- Where the brush is and how it paints. -/
structure Brush where
  x : Number
  y : Number
  color : Color
  size : Number
  deriving Repr, DecidableEq

namespace Brush

/-- The brush before a program starts. -/
def initial : Brush :=
  ⟨0, 0, .transparent, 1⟩

/-- The odd side used for a requested one; only positive sides exist. -/
def adjustedSize? (requested : Number) : Option Number :=
  if requested.toInt ≤ 0 then
    none
  else if requested.toInt % 2 = 0 then
    some (requested - 1)
  else
    some requested

/-- The same brush at another position. -/
def moveTo (brush : Brush) (x y : Number) : Brush :=
  { brush with x, y }

end Brush

end PixelBrush
