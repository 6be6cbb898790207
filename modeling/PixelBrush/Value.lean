import PixelBrush.Number
import PixelBrush.Program.Vocabulary

namespace PixelBrush

/-!
# Values

Programs compute with integers, strings and truth values.  Only names of palette
colors become strings while a program runs.
-/

/-- What an expression can give. -/
inductive Value where
  | int (number : Number)
  | string (text : String)
  | bool (truth : Bool)
  deriving Repr, DecidableEq

namespace Value

/-- The kind of a value. -/
def kind : Value → ValueKind
  | .int _ => .int
  | .string _ => .string
  | .bool _ => .bool

/-- The text in a string value. -/
def string? : Value → Option String
  | .string text => some text
  | _ => none

/-- The number that comparisons see: truth values count as one and zero. -/
def numeric? : Value → Option Number
  | .int number => some number
  | .bool truth => some (if truth then 1 else 0)
  | .string _ => none

/-- Nonzero numbers, nonempty strings and the true value count as true. -/
def isTrue : Value → Bool
  | .int number => number ≠ 0
  | .string text => !text.isEmpty
  | .bool truth => truth

/-- A value as it is shown to people. -/
def describe : Value → String
  | .int number => toString number.toInt
  | .string text => "\"" ++ text ++ "\""
  | .bool true => "true"
  | .bool false => "false"

end Value

end PixelBrush
