import PixelBrush.Number
import PixelBrush.Palette
import PixelBrush.Program.Vocabulary
import PixelBrush.Source.Location

namespace PixelBrush

/-!
# Diagnostics

What validation can find in a program.  Errors keep the program from running,
warnings do not.
-/

/-- Why a program must not run. -/
inductive ErrorCause where
  | noSpawnFirst
  | repeatedSpawn
  | repeatedLabel (name : String)
  | spawnOutside (x y : Number) (size : Nat)
  | unknownColor (name : String)
  | brushSize (size : Number)
  | drawArity (command : DrawCommand) (given : Nat)
  | drawArgument (command : DrawCommand) (index : Nat) (got : ValueKind)
  | direction (command : DrawCommand) (component : Number)
  | radius (value : Number)
  | distance (value : Number)
  | extent (value : Number)
  | leavesCanvas (command : DrawCommand) (x y side : Int)
  | transparentFill
  | undefinedLabel (name : String)
  | conditionKind
  | undefinedVariable (name : String)
  | callArity (function : Builtin) (given : Nat)
  | callArgument (function : Builtin) (index : Nat) (expected got : ValueKind)
  | operandKind (operator : ArithmeticOperator) (got : ValueKind)
  | stringOrder (operator : BooleanOperator)
  | incomparable (left right : ValueKind)
  deriving Repr, DecidableEq

/-- What deserves attention in a program that may run. -/
inductive WarningCause where
  | sizeAdjusted (size : Number)
  | readBeforeAssigned (name : String)
  | manyJumps (threshold : Nat)
  | endlessJump (label : String)
  deriving Repr, DecidableEq

/-- An error or a warning. -/
inductive Finding where
  | error (cause : ErrorCause)
  | warning (cause : WarningCause)
  deriving Repr, DecidableEq

/-- A finding and the place it points to. -/
structure Diagnostic where
  finding : Finding
  location : Location
  deriving Repr, DecidableEq

/-- The wording of an error. -/
def ErrorCause.message : ErrorCause → String
  | .noSpawnFirst =>
      "Program must start with Spawn"
  | .repeatedSpawn =>
      "Spawn can only be used once"
  | .repeatedLabel name =>
      s!"Label '{name}' is declared more than once"
  | .spawnOutside x y size =>
      s!"Spawn position ({x.toInt}, {y.toInt}) is outside the {size}x{size} canvas"
  | .unknownColor name =>
      Color.unknownMessage name
  | .brushSize size =>
      s!"Brush size must be a positive integer, got {size.toInt}"
  | .drawArity command given =>
      s!"{command.name} expects {command.arity} arguments, got {given}"
  | .drawArgument command index got =>
      s!"Argument {index} of {command.name} must be int, got {got.name}"
  | .direction command component =>
      s!"Invalid direction {component.toInt} in {command.name}: must be -1, 0 or 1"
  | .radius value =>
      s!"Radius must be positive, got {value.toInt}"
  | .distance value =>
      s!"Distance cannot be negative, got {value.toInt}"
  | .extent value =>
      s!"Rectangle width and height must be positive, got {value.toInt}"
  | .leavesCanvas command x y side =>
      s!"{command.name} moves the brush to ({x}, {y}), " ++
        s!"outside the {side}x{side} canvas"
  | .transparentFill =>
      "Cannot use Fill with a Transparent brush"
  | .undefinedLabel name =>
      s!"Undefined label '{name}'"
  | .conditionKind =>
      "GoTo condition must be a boolean expression"
  | .undefinedVariable name =>
      s!"Undefined variable '{name}'"
  | .callArity function given =>
      s!"{function.name} expects {function.arityPhrase}, got {given}"
  | .callArgument function index expected got =>
      s!"Argument {index} of {function.name} must be {expected.name}, " ++
        s!"got {got.name}"
  | .operandKind operator got =>
      s!"Operand of '{operator.symbol}' must be int, got {got.name}"
  | .stringOrder operator =>
      s!"Strings can only be compared with '==' or '!=', not '{operator.symbol}'"
  | .incomparable left right =>
      s!"Cannot compare {left.name} with {right.name}"

/-- The wording of a warning. -/
def WarningCause.message : WarningCause → String
  | .sizeAdjusted size =>
      s!"Size adjusted to {size.toInt}; use odd numbers"
  | .readBeforeAssigned name =>
      s!"Variable '{name}' is read before it is assigned"
  | .manyJumps threshold =>
      s!"More than {threshold} GoTo instructions; watch for infinite loops"
  | .endlessJump label =>
      s!"Backward jump to '{label}' has a condition that never changes; " ++
        "possible infinite loop"

/-- A report line for a failure at a place. -/
def errorLine (location : Location) (message : String) : String :=
  s!"[Error] line {location.line}: {message}"

/-- A report line for a warning at a place. -/
def warningLine (location : Location) (message : String) : String :=
  s!"[Warning] line {location.line}: {message}"

namespace Diagnostic

/-- An error at a place. -/
def error (cause : ErrorCause) (location : Location) : Diagnostic :=
  ⟨.error cause, location⟩

/-- A warning at a place. -/
def warning (cause : WarningCause) (location : Location) : Diagnostic :=
  ⟨.warning cause, location⟩

/-- Errors keep a program from running. -/
def isError (diagnostic : Diagnostic) : Bool :=
  match diagnostic.finding with
  | .error _ => true
  | .warning _ => false

/-- The report line of a diagnostic. -/
def describe (diagnostic : Diagnostic) : String :=
  match diagnostic.finding with
  | .error cause => errorLine diagnostic.location cause.message
  | .warning cause => warningLine diagnostic.location cause.message

end Diagnostic

end PixelBrush
