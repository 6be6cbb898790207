import PixelBrush.Brush
import PixelBrush.Canvas.Basic
import PixelBrush.Source.Location
import PixelBrush.Table
import PixelBrush.Value

namespace PixelBrush

/-!
# Moments

A moment is everything that the rest of a run depends on: the canvas, the brush,
what the names are bound to and the index of the next instruction, together with
the place of the instruction executed last.
-/

/-- The state of a run between two instructions. -/
structure Moment where
  canvas : Canvas
  brush : Brush
  bindings : Table Value
  next : Nat
  location : Location
  deriving Repr, DecidableEq

namespace Moment

/-- The moment before the first instruction, on a white canvas. -/
def initial (size : Nat) : Moment where
  canvas := Canvas.blank size
  brush := Brush.initial
  bindings := Table.empty
  next := 0
  location := Location.start

/-- The memory that a variable with its value is counted with. -/
def bindingBytes (entry : String × Value) : Nat :=
  32 + entry.1.utf8ByteSize + (entry.2.string?.map String.utf8ByteSize).getD 0

/-- The memory that a moment is counted with. -/
def byteSize (moment : Moment) : Nat :=
  128 + moment.canvas.byteSize +
    (moment.bindings.entries.map bindingBytes).foldr (· + ·) 0

end Moment

end PixelBrush
