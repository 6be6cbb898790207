import PixelBrush.Source.Alphanumeric
import PixelBrush.Token.Scan
import PixelBrush.Viewer.Picture

namespace PixelBrush

/-!
# Highlighting source lines

A line is cut into string literals, words and single other characters, each in
the style of its class.  A string literal that is not closed reaches to the end
of its line.
-/

namespace Highlight

/-- A character of a word. -/
def isWordCharacter (character : Char) : Bool :=
  isAlphanumeric character || character == '_'

/-- The style of a word. -/
def wordStyle (word : List Char) : Style :=
  let text := String.ofList word
  if Scan.keywords.contains text then
    (Style.ofForeground Theme.keyword).inBold
  else if Scan.functions.contains text || Scan.commands.contains text then
    Style.ofForeground Theme.function
  else if word.head?.any Char.isDigit then
    Style.ofForeground Theme.number
  else
    Style.ofForeground Theme.text

/-- The style of a character between words. -/
def symbolStyle (character : Char) : Style :=
  if ['(', ')', '[', ']'].contains character then
    Style.ofForeground Theme.primary
  else
    Style.ofForeground Theme.text

/--
The length of a string literal after its opening quote, with the closing one.
-/
def literalLength (characters : List Char) : Nat :=
  (characters.takeWhile (· != '"')).length + 1

/-- The pieces of a line. -/
def pieces (line : List Char) : List (List Char × Style) :=
  match line with
  | [] => []
  | first :: rest =>
      if first = '"' then
        ('"' :: rest.take (literalLength rest),
          Style.ofForeground Theme.string) ::
          pieces (rest.drop (literalLength rest))
      else if isWordCharacter first then
        let word := first :: rest.takeWhile isWordCharacter
        (word, wordStyle word) :: pieces (rest.dropWhile isWordCharacter)
      else
        ([first], symbolStyle first) :: pieces rest
termination_by line.length
decreasing_by
  · simp only [List.length_drop, List.length_cons]
    omega
  · have shorter := Scan.length_dropWhile_le isWordCharacter rest
    simp only [List.length_cons]
    omega
  · simp

end Highlight

/-- The styled text of a source line. -/
def highlight (line : List Char) : List Span :=
  (Highlight.pieces line).map fun piece => ⟨String.ofList piece.1, piece.2⟩

end PixelBrush
