import PixelBrush.Source.Lines
import PixelBrush.Viewer.Highlight

namespace PixelBrush

/-!
# The source pane

The source text is shown with line numbers.  The pane scrolls so that the
current line stays on one row of the pane, as far as the ends of the text allow.
-/

/-- The first line shown, and the row on which the current line is kept. -/
structure SourceScroll where
  offset : Nat
  row : Option Nat
  deriving Repr, DecidableEq

namespace SourceScroll

/-- Before anything was drawn. -/
def initial : SourceScroll :=
  ⟨0, none⟩

/--
Scrolls to the current line of a text; the row starts in the middle of the pane.
-/
def follow
    (scroll : SourceScroll)
    (visible current total : Nat) :
    SourceScroll :=
  let row := min (scroll.row.getD (visible / 2)) (visible - 1)
  if 0 < current ∧ current ≤ total then
    ⟨clampScroll (current - 1 - row) total visible, some row⟩
  else
    ⟨scroll.offset, some row⟩

end SourceScroll

namespace SourcePane

/-- A line number before its line. -/
def numberText (number : Nat) : String :=
  let digits := toString number
  String.ofList (List.replicate (4 - digits.length) ' ') ++ digits ++ " "

/--
The text of a numbered line; the failed line and the current one stand out.
-/
def lineSpans
    (current : Nat)
    (failed : Option Nat)
    (number : Nat)
    (line : List Char) :
    
    List Span :=
  let content := highlight line
  if failed = some number then
    ⟨numberText number, (Style.ofForeground Theme.error).inBold⟩ ::
      content.map fun span =>
        { span with style := (Style.ofInks .white Theme.error).inBold }
  else if number = current then
    ⟨numberText number, (Style.ofForeground Theme.secondary).inBold⟩ ::
      content.map fun span =>
        { span with
          style := span.style.patch (Style.ofBackground Theme.currentLine) }
  else
    ⟨numberText number, Style.ofForeground Theme.comment⟩ :: content

/-- The pane for a text, and how it is scrolled then. -/
def draw
    (width height : Nat)
    (source : String)
    (current : Nat)
    (failed : Option Nat)
    (scroll : SourceScroll)
    (focused : Bool) :
    Picture × SourceScroll :=
  let lines := textLines source
  let visible := visibleLines height
  let scrolled := scroll.follow visible current lines.length
  let shown := ((lines.zipIdx 1).drop scrolled.offset).take visible
  let rows := shown.map fun (line, number) =>
    Row.ofSpans (insideBorder width) Style.plain
      (lineSpans current failed number line)
  (Picture.framed width height (Theme.border focused) Style.plain " Source "
    rows, scrolled)

end SourcePane

end PixelBrush
