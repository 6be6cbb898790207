import PixelBrush.Palette
import PixelBrush.Program.Vocabulary
import PixelBrush.Number
import PixelBrush.Source.Location

namespace PixelBrush

/-!
# Run errors

Why an instruction, a run or a move through the history fails, and the wording
of each cause.  An error carries the place it points to; its message does not.
-/

/-- An operand or argument of the wrong kind. -/
inductive KindMismatch where
  | wantedInt (got : ValueKind)
  | operands (operator : ArithmeticOperator) (left right : ValueKind)
  | argument (function : Builtin) (expected got : ValueKind)
  | stringOrder (operator : BooleanOperator)
  | incomparable (operator : BooleanOperator) (left right : ValueKind)
  | instruction
  deriving Repr, DecidableEq

/-- A division that has no result. -/
inductive ZeroDivision where
  | quotient
  | remainder
  | power (exponent : Number)
  deriving Repr, DecidableEq

/-- A result that is not a number of the language. -/
inductive Overflow where
  | arithmetic (operator : ArithmeticOperator) (left right : Number)
  | movement (x y distance directionX directionY : Number)
  deriving Repr, DecidableEq

/-- An argument that a command or function does not take. -/
inductive BadArgument where
  | drawArity (command : DrawCommand) (given : Nat)
  | callArity (function : Builtin) (given : Nat)
  | distance (command : DrawCommand) (least : Number)
  | extent (width height : Number)
  deriving Repr, DecidableEq

/-- A move that the history does not allow. -/
inductive NoMoment where
  | atStart
  | atEnd
  | missing (index : Nat)
  | nothingRecorded
  deriving Repr, DecidableEq

/-- Why a run or a move fails. -/
inductive RunCause where
  | undefinedVariable (name : String)
  | kindMismatch (mismatch : KindMismatch)
  | zeroDivision (division : ZeroDivision)
  | overflow (result : Overflow)
  | invalidDirection (directionX directionY : Number)
  | invalidBrushSize (size : Number)
  | invalidColor (name : String)
  | badArgument (argument : BadArgument)
  | outOfBounds (x y : Number) (size : Nat)
  | unknownLabel (name : String)
  | transparentFill
  | stepLimit (limit : Nat)
  | noMoment (moment : NoMoment)
  deriving Repr, DecidableEq

/-- A cause and the place it points to. -/
structure RunError where
  cause : RunCause
  location : Location
  deriving Repr, DecidableEq

/-- What was expected and what was there. -/
def KindMismatch.message : KindMismatch → String
  | .wantedInt got =>
      s!"expected int, got {got.name}"
  | .operands operator left right =>
      s!"expected int, got {left.name} {operator.symbol} {right.name}"
  | .argument function expected got =>
      s!"expected {expected.name} argument to {function.name}, got {got.name}"
  | .stringOrder operator =>
      s!"expected '==' or '!=' between strings, got '{operator.symbol}'"
  | .incomparable operator left right =>
      s!"expected comparable operands, got {left.name} {operator.symbol} " ++
        right.name
  | .instruction =>
      "expected expression, got instruction"

/-- The wording of a division without result. -/
def ZeroDivision.message : ZeroDivision → String
  | .quotient => "Division by zero"
  | .remainder => "Modulo by zero"
  | .power exponent => s!"Division by zero: 0 ** {exponent.toInt}"

/-- The operation whose result does not fit. -/
def Overflow.message : Overflow → String
  | .arithmetic operator left right =>
      s!"{left.toInt} {operator.symbol} {right.toInt}"
  | .movement x y distance directionX directionY =>
      s!"brush ({x.toInt}, {y.toInt}) + {distance.toInt} * " ++
        s!"({directionX.toInt}, {directionY.toInt})"

/-- The wording of a bad argument. -/
def BadArgument.message : BadArgument → String
  | .drawArity command given =>
      s!"{command.name} expects {command.arity} arguments, got {given}"
  | .callArity function given =>
      s!"{function.name} expects {function.arityPhrase}, got {given}"
  | .distance command least =>
      s!"{command.name} distance must be at least {least.toInt}"
  | .extent width height =>
      "rectangle width and height must be positive, got " ++
        s!"{width.toInt}x{height.toInt}"

/-- The wording of a move that is not possible. -/
def NoMoment.message : NoMoment → String
  | .atStart => "Already at the beginning of execution"
  | .atEnd => "No more snapshots available (execution finished)"
  | .missing index => s!"Snapshot {index} not found in history"
  | .nothingRecorded => "No snapshots available"

/-- The wording of a cause. -/
def RunCause.message : RunCause → String
  | .undefinedVariable name =>
      s!"Undefined variable '{name}'"
  | .kindMismatch mismatch =>
      s!"Type error: {mismatch.message}"
  | .zeroDivision division =>
      division.message
  | .overflow result =>
      s!"Integer overflow in operation: {result.message}"
  | .invalidDirection directionX directionY =>
      s!"Invalid direction ({directionX.toInt}, {directionY.toInt}): " ++
        "components must be -1, 0 or 1"
  | .invalidBrushSize size =>
      s!"Invalid brush size: {size.toInt} (must be positive)"
  | .invalidColor name =>
      Color.unknownMessage name
  | .badArgument argument =>
      s!"Invalid argument: {argument.message}"
  | .outOfBounds x y size =>
      s!"Position ({x.toInt}, {y.toInt}) is outside the {size}x{size} canvas"
  | .unknownLabel name =>
      s!"Unknown label '{name}'"
  | .transparentFill =>
      "Cannot use Fill with a Transparent brush"
  | .stepLimit limit =>
      s!"Step limit of {limit} instructions exceeded (infinite GoTo loop?)"
  | .noMoment moment =>
      s!"History operation failed: {moment.message}"

/-- The message of an error. -/
def RunError.message (error : RunError) : String :=
  error.cause.message

end PixelBrush
