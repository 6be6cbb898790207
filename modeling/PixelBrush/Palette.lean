namespace PixelBrush

/-!
# The palette

Nine colors, each with a name and a letter.  Source programs spell a name
exactly; running programs compare names without regard to the case of ASCII
letters.
-/

/-- The colors of cells and brushes. -/
inductive Color where
  | red
  | blue
  | green
  | yellow
  | orange
  | purple
  | black
  | white
  | transparent
  deriving Repr, DecidableEq, Inhabited

namespace Color

/-- Every color, in palette order. -/
def all : List Color :=
  [.red, .blue, .green, .yellow, .orange, .purple, .black, .white, .transparent]

/-- The name of a color. -/
def name : Color → String
  | .red => "Red"
  | .blue => "Blue"
  | .green => "Green"
  | .yellow => "Yellow"
  | .orange => "Orange"
  | .purple => "Purple"
  | .black => "Black"
  | .white => "White"
  | .transparent => "Transparent"

/-- The letter of a color in the text of a canvas. -/
def letter : Color → Char
  | .red => 'R'
  | .blue => 'B'
  | .green => 'G'
  | .yellow => 'Y'
  | .orange => 'O'
  | .purple => 'P'
  | .black => 'K'
  | .white => '.'
  | .transparent => ' '

/-- The color with exactly this name. -/
def ofName? (name : String) : Option Color :=
  all.find? fun color => color.name == name

/-- Two texts that differ at most in the case of ASCII letters. -/
def sameLetters (first second : String) : Bool :=
  first.toList.map Char.toLower == second.toList.map Char.toLower

/-- The color with this name in any case. -/
def ofAnyCase? (name : String) : Option Color :=
  all.find? fun color => sameLetters color.name name

/-- The message for a name that no color has. -/
def unknownMessage (name : String) : String :=
  s!"Unknown color '{name}'"

end Color

end PixelBrush
