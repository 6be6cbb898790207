import PixelBrush.Table
import PixelBrush.Value
import PixelBrush.Viewer.Picture

namespace PixelBrush

/-!
# The variables pane

One line for each variable in the order of the names, with the kind of its value
at the right edge.
-/

namespace VariablesPane

/-- The color of a value. -/
def valueInk : Value → Ink
  | .int _ => Theme.number
  | .string _ => Theme.string
  | .bool _ => Theme.keyword

/--
The blanks before the kind; widths are counted in bytes, and one blank is left.
-/
def gap (width : Nat) (name value kind : String) : Nat :=
  max (width - (name.utf8ByteSize + 3 + value.utf8ByteSize + kind.utf8ByteSize))
    1

/-- The line of a variable. -/
def lineSpans (width : Nat) (name : String) (value : Value) : List Span :=
  let kind := value.kind.name
  let blanks := List.replicate (gap width name value.describe kind) ' '
  [⟨name, Style.ofForeground Theme.text⟩,
    ⟨" = ", Style.ofForeground Theme.comment⟩,
    ⟨value.describe, Style.ofForeground (valueInk value)⟩,
    ⟨String.ofList blanks, Style.plain⟩,
    ⟨kind, Style.ofForeground Theme.kind⟩]

/-- The variables in the order of their names. -/
def sorted (bindings : Table Value) : List (String × Value) :=
  bindings.entries.mergeSort fun first second => !decide (second.1 < first.1)

/-- The pane for variables, and the first one shown then. -/
def draw
    (width height : Nat)
    (bindings : Table Value)
    (scroll : Nat)
    (focused : Bool) :
    Picture × Nat :=
  let inside := insideBorder width
  let framed := Picture.framed width height (Theme.border focused)
  let entries := sorted bindings
  if entries.isEmpty then
    let base := Style.ofForeground Theme.comment
    (framed base " Variables "
      [Row.ofSpans inside base [⟨"(none)", Style.plain⟩]], scroll)
  else
    let visible := visibleLines height
    let offset := clampScroll scroll entries.length visible
    let rows := ((entries.drop offset).take visible).map fun (name, value) =>
      Row.ofSpans inside Style.plain (lineSpans inside name value)
    (framed Style.plain " Variables " rows, offset)

end VariablesPane

end PixelBrush
