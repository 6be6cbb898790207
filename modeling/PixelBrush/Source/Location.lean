namespace PixelBrush

/-!
# Places in a source text

A place is a line and a column, both counted from one.  Columns count characters
since the last line break.  Every token, node and report carries a place, and
every place is reached by advancing over the characters before it.
-/

/-- A line and a column of a source text. -/
structure Location where
  line : Nat
  column : Nat
  deriving Repr, DecidableEq, Inhabited

namespace Location

/-- The place of the first character of a text. -/
def start : Location :=
  ⟨1, 1⟩

/-- The place reported when there is no text to point into. -/
def nowhere : Location :=
  ⟨0, 0⟩

/-- The place after one character. -/
def advance (location : Location) (character : Char) : Location :=
  if character = '\n' then
    ⟨location.line + 1, 1⟩
  else
    ⟨location.line, location.column + 1⟩

/-- The place after a run of characters. -/
def advanceOver (location : Location) (characters : List Char) : Location :=
  characters.foldl advance location

/-- Source order: by line, then by column. -/
def notAfter (first second : Location) : Bool :=
  first.line < second.line ||
    (first.line == second.line && first.column ≤ second.column)

/-- Advancing over two runs is advancing over the first and then the second. -/
theorem advanceOver_append
    (location : Location)
    (first second : List Char) :
    location.advanceOver (first ++ second) =
      (location.advanceOver first).advanceOver second := by
  simp [advanceOver, List.foldl_append]

end Location

end PixelBrush
