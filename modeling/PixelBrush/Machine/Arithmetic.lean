import PixelBrush.Machine.RunError
import PixelBrush.Value

namespace PixelBrush

/-!
# Calculating and comparing

Arithmetic is exact: an operation gives its true result, or fails when that is
not a number of the language.  Quotients are rounded towards zero and remainders
have the sign of the dividend.  Comparisons take two strings or two numeric
values.
-/

namespace ArithmeticOperator

/--
The exponent below three with the same parity, zero apart; enough for bases up
to one.
-/
def smallExponent (exponent : Nat) : Nat :=
  if exponent ≤ 2 then
    exponent
  else
    2 - exponent % 2

/-- The exact power, unless it is certainly out of range. -/
def exactPower? (base : Int) (exponent : Nat) : Option Int :=
  if base.natAbs ≤ 1 then
    some (base.pow (smallExponent exponent))
  else if exponent < 32 then
    some (base.pow exponent)
  else
    none

/-- A power with a negative exponent, rounded towards zero. -/
def inversePower (base exponent : Number) : Except RunCause Number :=
  if base.toInt = 0 then
    .error (.zeroDivision (.power exponent))
  else if base.toInt = 1 then
    .ok 1
  else if base.toInt = -1 then
    .ok (if exponent.toInt % 2 = 0 then 1 else -1)
  else
    .ok 0

/-- The true result of an operation as a number, where it is one. -/
def fit
    (operator : ArithmeticOperator)
    (left right : Number)
    (result : Option Int) :
    Except RunCause Number :=
  match result.bind Number.ofInt? with
  | some number => .ok number
  | none => .error (.overflow (.arithmetic operator left right))

/-- The result of an operation on two numbers. -/
def calculate
    (operator : ArithmeticOperator)
    (left right : Number) :
    Except RunCause Number :=
  let a := left.toInt
  let b := right.toInt
  let fit := operator.fit left right
  match operator with
  | .add => fit (a + b)
  | .subtract => fit (a - b)
  | .multiply => fit (a * b)
  | .divide =>
      if b = 0 then
        .error (.zeroDivision .quotient)
      else
        fit (a.tdiv b)
  | .remainder =>
      if b = 0 then
        .error (.zeroDivision .remainder)
      else
        -- A remainder exists only where the quotient does.
        (fit (a.tdiv b)).bind fun _ => fit (a.tmod b)
  | .power =>
      if b < 0 then
        inversePower left right
      else
        fit (exactPower? a b.toNat)

end ArithmeticOperator

namespace BooleanOperator

/-- The outcome of an operator on two numbers. -/
def compareInts (operator : BooleanOperator) (left right : Int) : Bool :=
  match operator with
  | .equal => left == right
  | .unequal => left != right
  | .less => left < right
  | .lessOrEqual => left ≤ right
  | .greater => right < left
  | .greaterOrEqual => right ≤ left
  | .and => left != 0 && right != 0
  | .or => left != 0 || right != 0

/-- The outcome of a comparison; strings ignore the case of ASCII letters. -/
def compare
    (operator : BooleanOperator)
    (left right : Value) :
    Except RunCause Bool :=
  match left, right with
  | .string first, .string second =>
      match operator with
      | .equal => .ok (Color.sameLetters first second)
      | .unequal => .ok !(Color.sameLetters first second)
      | _ => .error (.kindMismatch (.stringOrder operator))
  | _, _ =>
      match left.numeric?, right.numeric? with
      | some first, some second =>
          .ok (operator.compareInts first.toInt second.toInt)
      | _, _ =>
          .error (.kindMismatch (.incomparable operator left.kind right.kind))

end BooleanOperator

end PixelBrush
