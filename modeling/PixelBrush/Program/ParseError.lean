import PixelBrush.Token.Scan

namespace PixelBrush

/-!
# Parse errors

A parse error says what the grammar asked for and which token stood there
instead.  It points to that token, or to the last token when the input has
ended.
-/

/-- The positions of the grammar that ask for an integer literal. -/
inductive LiteralUse where
  | spawnX
  | spawnY
  | brushSize
  | operand
  deriving Repr, DecidableEq

/-- What the grammar asked for. -/
inductive Expectation where
  | instruction
  | endOfLine
  | expression
  | openAfter (word : String)
  | spawnComma
  | spawnClose
  | colorClose
  | sizeClose
  | fillClose
  | labelOpen
  | labelClose
  | conditionOpen
  | conditionClose
  | argumentsClose
  | expressionClose
  | arrow
  | integer (use : LiteralUse)
  | colorName
  | labelName
  deriving Repr, DecidableEq

/-- Why a list of tokens is not a program. -/
inductive ParseCause where
  | expected (expectation : Expectation) (found : Option Token)
  | unknownKeyword (word : String)
  | notAnInstruction (found : Token)
  | unknownCommand (name : String)
  | unknownFunction (name : String)
  | outOfRange (literal : String)
  | unscannable (cause : ScanCause)
  deriving Repr, DecidableEq

/-- A cause and the place it points to. -/
structure ParseError where
  cause : ParseCause
  location : Location
  deriving Repr, DecidableEq

/-- The wording of the use of an integer literal. -/
def LiteralUse.describe : LiteralUse → String
  | .spawnX => "for Spawn x"
  | .spawnY => "for Spawn y"
  | .brushSize => "for brush size"
  | .operand => "in expression"

/-- The wording of what the grammar asked for. -/
def Expectation.describe : Expectation → String
  | .instruction => "instruction"
  | .endOfLine => "end of line after instruction"
  | .expression => "expression"
  | .openAfter word => s!"'(' after '{word}'"
  | .spawnComma => "',' between Spawn coordinates"
  | .spawnClose => "')' after Spawn coordinates"
  | .colorClose => "')' after color"
  | .sizeClose => "')' after brush size"
  | .fillClose => "')' after 'Fill('"
  | .labelOpen => "'[' after 'GoTo'"
  | .labelClose => "']' after label"
  | .conditionOpen => "'(' before GoTo condition"
  | .conditionClose => "')' after GoTo condition"
  | .argumentsClose => "')' after arguments"
  | .expressionClose => "')' after expression"
  | .arrow => "'<-' in assignment"
  | .integer use => "integer literal " ++ use.describe
  | .colorName => "color string"
  | .labelName => "label name"

/-- The token that stood in the place, or the end of the input. -/
def describeFound : Option Token → String
  | some token => token.describe
  | none => "end of input"

/-- The wording of a cause. -/
def ParseCause.message : ParseCause → String
  | .expected expectation found =>
      s!"Expected {expectation.describe}, found {describeFound found}"
  | .unknownKeyword word =>
      s!"Unrecognised instruction '{word}'"
  | .notAnInstruction found =>
      s!"Unrecognised instruction: {found.describe}"
  | .unknownCommand name =>
      s!"Unknown drawing command '{name}'"
  | .unknownFunction name =>
      s!"Unknown function '{name}'"
  | .outOfRange literal =>
      s!"Integer literal out of range: {literal}"
  | .unscannable cause =>
      cause.message

/-- The full report of a parse error. -/
def ParseError.message (error : ParseError) : String :=
  s!"Parse error at line {error.location.line}, column {error.location.column}: " ++
    error.cause.message

/-- A text without tokens is not a program either, for the same cause. -/
def ParseError.ofScanError (error : ScanError) : ParseError :=
  ⟨.unscannable error.cause, error.location⟩

end PixelBrush
