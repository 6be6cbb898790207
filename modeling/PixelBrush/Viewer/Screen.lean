namespace PixelBrush

/-!
# Screens

A screen has a limited number of cells.  A larger one that is asked for is
scaled down with its proportions kept.
-/

/-- The width and the height of a screen, in cells. -/
structure Screen where
  width : Nat
  height : Nat
  deriving Repr, DecidableEq

namespace Screen

/-- The most cells that a screen has. -/
def largest : Nat :=
  65535

/--
The screen for a size that is asked for.  The sides of a screen that is too
large are calculated in double precision and cut to whole cells.
-/
def ofSize (width height : Nat) : Screen :=
  if width * height ≤ largest then
    ⟨width, height⟩
  else
    let proportion := width.toFloat / height.toFloat
    let scaledHeight := (largest.toFloat / proportion).sqrt
    let scaledWidth := scaledHeight * proportion
    ⟨scaledWidth.toUInt16.toNat, scaledHeight.toUInt16.toNat⟩

/-- A screen with few enough cells has the size that is asked for. -/
theorem ofSize_of_le
    {width height : Nat}
    (small : width * height ≤ largest) :
    ofSize width height = ⟨width, height⟩ :=
  if_pos small

end Screen

end PixelBrush
