import PixelBrush.Program.Node
import PixelBrush.Table
import PixelBrush.Validation.Diagnostic

namespace PixelBrush

/-!
# Checking expressions

Expressions are checked against what the instructions before them, in program
order, have assigned.  The kind of an expression is read off its outermost node
and may be unknown; an unknown kind is never wrong.
-/

/--
The variables assigned so far, and the kinds of their values where these are
known.
-/
structure Scope where
  declared : List String
  kinds : Table ValueKind
  deriving Repr, DecidableEq

namespace Scope

/-- Nothing is assigned before the first instruction. -/
def empty : Scope :=
  ⟨[], Table.empty⟩

/-- The kind of an expression, where it is known. -/
def kindOf? (scope : Scope) : Node → Option ValueKind
  | .number _ _ => some .int
  | .text _ _ => some .string
  | .read name _ => scope.kinds.get? name
  | .call function _ _ => some function.result
  | .arithmetic _ _ _ _ => some .int
  | .boolean _ _ _ _ => some .bool
  | _ => none

/-- The scope after an assignment. -/
def assign (scope : Scope) (name : String) (value : Node) : Scope where
  declared := name :: scope.declared
  kinds :=
    match scope.kindOf? value with
    | some kind => scope.kinds.set name kind
    | none => scope.kinds.erase name

/-- An expression that may be the condition of a jump. -/
def isCondition (scope : Scope) : Node → Bool
  | .boolean _ _ _ _ => true
  | .call function _ _ => function.result = .bool
  | .read name _ => ((scope.kinds.get? name).getD .bool) = .bool
  | _ => false

/-- The error of an arithmetic operand that is known not to be an integer. -/
def checkOperand
    (scope : Scope)
    (operator : ArithmeticOperator)
    (operand : Node)
    (location : Location) :
    List Diagnostic :=
  match scope.kindOf? operand with
  | some .string => [.error (.operandKind operator .string) location]
  | some .bool => [.error (.operandKind operator .bool) location]
  | _ => []

/-- The error of a comparison between kinds that cannot be compared. -/
def checkComparison
    (scope : Scope)
    (operator : BooleanOperator)
    (left right : Node)
    (location : Location) :
    List Diagnostic :=
  match scope.kindOf? left, scope.kindOf? right with
  | some .string, some .string =>
      if operator.isEquality then
        []
      else
        [.error (.stringOrder operator) location]
  | some .string, some other =>
      [.error (.incomparable .string other) location]
  | some other, some .string =>
      [.error (.incomparable other .string) location]
  | _, _ => []

mutual

/-- The findings of an expression, from left to right. -/
def check (scope : Scope) : Node → List Diagnostic
  | .text value location =>
      if (Color.ofName? value).isSome then
        []
      else
        [.error (.unknownColor value) location]
  | .read name location =>
      if scope.declared.contains name then
        []
      else
        [.warning (.readBeforeAssigned name) location]
  | .label name location =>
      [.error (.undefinedVariable name) location]
  | .call function arguments location =>
      if arguments.length = function.parameters.length then
        scope.checkArguments function 1 function.parameters arguments
      else
        [.error (.callArity function arguments.length) location]
  | .arithmetic operator left right location =>
      scope.check left ++ scope.check right ++
        scope.checkOperand operator left location ++
        scope.checkOperand operator right location
  | .boolean operator left right location =>
      scope.check left ++ scope.check right ++
        (if operator.isLogical then
          []
        else
          scope.checkComparison operator left right location)
  | .spawn _ _ _ | .setColor _ _ | .setSize _ _ | .draw _ _ _ | .fill _
  | .assign _ _ _ | .goTo _ _ _ | .number _ _ => []

/-- The findings of the arguments of a call, counted from `index`. -/
def checkArguments
    (scope : Scope)
    (function : Builtin)
    (index : Nat) :
    List ValueKind → List Node → List Diagnostic
  | expected :: kinds, argument :: arguments =>
      scope.check argument ++
        (match scope.kindOf? argument with
        | some got =>
            if got = expected then
              []
            else
              [.error (.callArgument function index expected got)
                argument.location]
        | none => []) ++
        scope.checkArguments function (index + 1) kinds arguments
  | _, _ => []

end

end Scope

/--
An expression that reads something which may change between two evaluations.
-/
def Node.isDynamic : Node → Bool
  | .read _ _ => true
  | .call _ _ _ => true
  | .arithmetic _ left right _ => left.isDynamic || right.isDynamic
  | .boolean _ left right _ => left.isDynamic || right.isDynamic
  | _ => false

end PixelBrush
