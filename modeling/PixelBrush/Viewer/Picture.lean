import PixelBrush.Viewer.Style

namespace PixelBrush

/-!
# Pictures

A picture is a rectangle of styled characters.  Text is cut at the right edge
and the rest of a row is blank.  Pictures are put beside and above one another,
and a frame draws a border with a title around a content.
-/

/-- A character with a style. -/
structure Cell where
  character : Char
  style : Style
  deriving Repr, DecidableEq

/-- The cells of one row, from left to right. -/
abbrev Row := List Cell

/-- The rows, from top to bottom. -/
abbrev Picture := List Row

/-- A piece of text in one style. -/
structure Span where
  text : String
  style : Style
  deriving Repr, DecidableEq

/-- The cells of a piece of text over a base style. -/
def Span.cells (base : Style) (span : Span) : List Cell :=
  span.text.toList.map fun character => ⟨character, base.patch span.style⟩

namespace Row

/-- A row without text. -/
def blank (width : Nat) (base : Style) : Row :=
  List.replicate width ⟨' ', base⟩

/-- Cells cut or filled to a width. -/
def fit (width : Nat) (base : Style) (cells : List Cell) : Row :=
  let shown := cells.take width
  shown ++ blank (width - shown.length) base

/-- A fitted row has exactly the width it was fitted to. -/
@[simp]
theorem length_fit
    (width : Nat)
    (base : Style)
    (cells : List Cell) :
    (fit width base cells).length = width := by
  simp only [fit, blank, List.length_append, List.length_take,
    List.length_replicate]
  omega

/-- Text from the left edge. -/
def ofSpans (width : Nat) (base : Style) (spans : List Span) : Row :=
  fit width base (spans.flatMap (Span.cells base))

/-- Text up to the right edge; a longer text shows its beginning. -/
def ofSpansRight (width : Nat) (base : Style) (spans : List Span) : Row :=
  let shown := (spans.flatMap (Span.cells base)).take width
  blank (width - shown.length) base ++ shown

/-- A line with two ends. -/
def between (width : Nat) (left right : Cell) (middle : List Cell) : Row :=
  match width with
  | 0 => []
  | 1 => [left]
  | _ => left :: (middle ++ [right])

end Row

namespace Picture

/-- Rows cut or filled to a height. -/
def fit (width height : Nat) (base : Style) (rows : List Row) : Picture :=
  let shown := rows.take height
  shown ++ List.replicate (height - shown.length) (Row.blank width base)

/-- A fitted picture has exactly the height it was fitted to. -/
@[simp]
theorem length_fit
    (width height : Nat)
    (base : Style)
    (rows : List Row) :
    (fit width height base rows).length = height := by
  simp only [fit, List.length_append, List.length_take, List.length_replicate]
  omega

/-- One picture to the left of another of the same height. -/
def beside (left right : Picture) : Picture :=
  List.zipWith (· ++ ·) left right

/-- A border with a title around a content of the remaining size. -/
def framed
    (width height : Nat)
    (border base : Style)
    (title : String)
    (content : List Row) :
    Picture :=
  let style := base.patch border
  let cell (character : Char) : Cell := ⟨character, style⟩
  let rule := List.replicate (width - 2) (cell '─')
  let heading := (title.toList.take (width - 2)).map cell
  let top :=
    Row.between width (cell '┌') (cell '┐')
      (heading ++ rule.drop heading.length)
  let bottom := Row.between width (cell '└') (cell '┘') rule
  let inside := (fit (width - 2) (height - 2) base content).map
    (Row.between width (cell '│') (cell '│'))
  match height with
  | 0 => []
  | 1 => [top]
  | _ => top :: (inside ++ [bottom])

end Picture

/-- The rows or columns that a border leaves for the content. -/
def insideBorder (extent : Nat) : Nat :=
  extent - 2

/-- The number of lines that a pane scrolls over; at least one. -/
def visibleLines (height : Nat) : Nat :=
  max (insideBorder height) 1

/-- The first item shown of a list that is scrolled as far as its end allows. -/
def clampScroll (offset total visible : Nat) : Nat :=
  if visible < total then
    min offset (total - visible)
  else
    0

/-- The edge at a percentage of an extent, rounded to the nearest. -/
def edgeAt (extent percentage : Nat) : Nat :=
  (extent * percentage + 50) / 100

end PixelBrush
