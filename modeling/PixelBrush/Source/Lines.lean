namespace PixelBrush

/-!
# The lines of a text

Lines end at line feeds; one carriage return before a line feed belongs to the
line end.  A line feed at the end of a text starts no further line.
-/

namespace Lines

/-- A reversed line without a final carriage return. -/
def dropReturn : List Char → List Char
  | '\r' :: line => line
  | line => line

/--
The lines of what is left of a text, given the reversed start of the current
line.
-/
def split (current : List Char) : List Char → List (List Char)
  | [] =>
      if current.isEmpty then
        []
      else
        [current.reverse]
  | character :: rest =>
      if character = '\n' then
        (dropReturn current).reverse :: split [] rest
      else
        split (character :: current) rest

end Lines

/-- The lines of a text, without their ends. -/
def textLines (source : String) : List (List Char) :=
  Lines.split [] source.toList

end PixelBrush
