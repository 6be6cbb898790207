import PixelBrush.Brush
import PixelBrush.Canvas.Basic
import PixelBrush.Viewer.Picture

namespace PixelBrush

/-!
# The canvas pane

Every cell of the canvas is two characters wide.  A canvas that does not fit is
shown through a window around the brush.  A diamond marks the cell of the brush.
-/

namespace CanvasPane

/--
The first of the visible cells of a side, with the focus in the middle if it can
be.
-/
def windowStart (focus : Int) (visible size : Nat) : Nat :=
  if size ≤ visible then
    0
  else
    min (min focus.toNat (size - 1) - visible / 2) (size - visible)

/-- The style of a cell of the canvas. -/
def cellStyle (color : Color) : Style :=
  match Theme.cell? color with
  | some ink => Style.ofBackground ink
  | none => Style.ofForeground Theme.comment

/-- The color of the brush mark on a cell. -/
def markInk : Color → Ink
  | .black => .white
  | .blue => .white
  | .purple => .white
  | _ => .black

/-- The two characters of a cell of the canvas. -/
def cellSpan (color : Color) (marked : Bool) : Span :=
  if marked then
    ⟨"◆ ",
      ((cellStyle color).patch (Style.ofForeground (markInk color))).inBold⟩
  else
    ⟨if color = .transparent then "··" else "  ", cellStyle color⟩

/-- The visible cells of one row of the canvas. -/
def rowSpans
    (brush : Brush)
    (firstColumn columns : Nat)
    (row : Nat)
    (colors : List Color) :
    List Span :=
  ((colors.zipIdx.drop firstColumn).take columns).map fun (color, column) =>
    cellSpan color (brush.x.toInt = column && brush.y.toInt = row)

/-- The text in the border of the pane. -/
def title (canvas : Canvas) (brush : Brush) : String :=
  s!" Canvas {canvas.size}x{canvas.size} │ " ++
    s!"brush ({brush.x.toInt}, {brush.y.toInt}) " ++
    s!"{brush.color.name} size {brush.size.toInt} "

/-- The pane for a canvas and a brush. -/
def draw (width height : Nat) (canvas : Canvas) (brush : Brush) : Picture :=
  let columns := max (insideBorder width / 2) 1
  let lines := visibleLines height
  let firstColumn := windowStart brush.x.toInt columns canvas.size
  let firstRow := windowStart brush.y.toInt lines canvas.size
  let visible :=
    (List.range' firstRow (min lines (canvas.size - firstRow))).map fun row =>
      rowSpans brush firstColumn columns row (canvas.row row)
  Picture.framed width height (Theme.border false) Style.plain
    (title canvas brush)
    (visible.map (Row.ofSpans (insideBorder width) Style.plain))

end CanvasPane

end PixelBrush
