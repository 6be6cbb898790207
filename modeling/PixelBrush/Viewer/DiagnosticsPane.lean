import PixelBrush.Viewer.Picture

namespace PixelBrush

/-!
# The diagnostics pane

One line for each line of the report on the run, in the color of its severity.
-/

namespace DiagnosticsPane

/-- The color of a report line. -/
def lineInk (line : String) : Ink :=
  if "[Error]".toList.isPrefixOf line.toList then
    Theme.error
  else if "[Warning]".toList.isPrefixOf line.toList then
    Theme.warning
  else
    Theme.text

/-- The row of a report line, one cell away from the border. -/
def lineRow (width : Nat) (line : String) : Row :=
  let style := Style.ofForeground (lineInk line)
  (Row.blank 1 Style.plain ++
    Row.ofSpans (width - 1) style [⟨line, Style.plain⟩]).take width

/-- The pane for report lines, and the first one shown then. -/
def draw
    (width height : Nat)
    (lines : List String)
    (scroll : Nat)
    (focused : Bool) :
    Picture × Nat :=
  let inside := insideBorder width
  let framed := Picture.framed width height (Theme.border focused)
  if lines.isEmpty then
    let base := Style.ofForeground Theme.success
    (framed base " Diagnostics "
      [Row.ofSpans inside base [⟨"(no diagnostics)", Style.plain⟩]], scroll)
  else
    let visible := visibleLines height
    let offset := clampScroll scroll lines.length visible
    (framed Style.plain " Diagnostics "
      (((lines.drop offset).take visible).map (lineRow inside)), offset)

end DiagnosticsPane

end PixelBrush
