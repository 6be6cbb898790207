namespace PixelBrush

/-!
# The vocabulary of programs

Operators, drawing commands and query functions, with their names, their
parameters and the kinds of value they take and give.
-/

/-- The kinds of value. -/
inductive ValueKind where
  | int
  | string
  | bool
  deriving Repr, DecidableEq

/-- The name of a kind in messages. -/
def ValueKind.name : ValueKind → String
  | .int => "int"
  | .string => "string"
  | .bool => "bool"

/-- Operators on two integers that give an integer. -/
inductive ArithmeticOperator where
  | add
  | subtract
  | multiply
  | divide
  | remainder
  | power
  deriving Repr, DecidableEq

/-- The spelling of an arithmetic operator. -/
def ArithmeticOperator.symbol : ArithmeticOperator → String
  | .add => "+"
  | .subtract => "-"
  | .multiply => "*"
  | .divide => "/"
  | .remainder => "%"
  | .power => "**"

/-- Operators that give a truth value. -/
inductive BooleanOperator where
  | and
  | or
  | equal
  | unequal
  | less
  | lessOrEqual
  | greater
  | greaterOrEqual
  deriving Repr, DecidableEq

namespace BooleanOperator

/-- The spelling of a boolean operator. -/
def symbol : BooleanOperator → String
  | .and => "&&"
  | .or => "||"
  | .equal => "=="
  | .unequal => "!="
  | .less => "<"
  | .lessOrEqual => "<="
  | .greater => ">"
  | .greaterOrEqual => ">="

/-- Conjunction and disjunction look at truth and not at order. -/
def isLogical : BooleanOperator → Bool
  | .and | .or => true
  | _ => false

/-- The comparisons that strings allow. -/
def isEquality : BooleanOperator → Bool
  | .equal | .unequal => true
  | _ => false

end BooleanOperator

/-- An operator between two expressions. -/
inductive Operator where
  | arithmetic (operator : ArithmeticOperator)
  | boolean (operator : BooleanOperator)
  deriving Repr, DecidableEq

namespace Operator

/-- Every operator. -/
def all : List Operator :=
  [.arithmetic .add, .arithmetic .subtract, .arithmetic .multiply,
    .arithmetic .divide,
    .arithmetic .remainder, .arithmetic .power, .boolean .and, .boolean .or,
    .boolean .equal, .boolean .unequal, .boolean .less, .boolean .lessOrEqual,
    .boolean .greater, .boolean .greaterOrEqual]

/-- The spelling of an operator. -/
def symbol : Operator → String
  | .arithmetic operator => operator.symbol
  | .boolean operator => operator.symbol

/-- The operator with a spelling. -/
def ofSymbol? (text : String) : Option Operator :=
  all.find? fun operator => operator.symbol == text

/-- How tightly an operator binds; comparisons bind tightest of all. -/
def precedence : Operator → Nat
  | .arithmetic .add | .arithmetic .subtract => 1
  | .arithmetic .multiply | .arithmetic .divide | .arithmetic .remainder => 2
  | .arithmetic .power => 3
  | .boolean .and => 4
  | .boolean .or => 5
  | .boolean _ => 6

/--
The precedence that the right operand must reach; only powers group to the
right.
-/
def rightPrecedence (operator : Operator) : Nat :=
  if operator = .arithmetic .power then
    operator.precedence
  else
    operator.precedence + 1

end Operator

/-- The commands that draw and move the brush. -/
inductive DrawCommand where
  | line
  | circle
  | rectangle
  deriving Repr, DecidableEq

namespace DrawCommand

/-- Every drawing command. -/
def all : List DrawCommand :=
  [.line, .circle, .rectangle]

/-- The name of a drawing command. -/
def name : DrawCommand → String
  | .line => "DrawLine"
  | .circle => "DrawCircle"
  | .rectangle => "DrawRectangle"

/-- The drawing command with a name. -/
def ofName? (name : String) : Option DrawCommand :=
  all.find? fun command => command.name == name

/--
A command takes two directions and a distance; a rectangle also its extent.
-/
def arity : DrawCommand → Nat
  | .line | .circle => 3
  | .rectangle => 5

end DrawCommand

/-- The functions that ask about the brush and the canvas. -/
inductive Builtin where
  | actualX
  | actualY
  | canvasSize
  | colorCount
  | isBrushColor
  | isBrushSize
  | isCanvasColor
  deriving Repr, DecidableEq

namespace Builtin

/-- Every query function. -/
def all : List Builtin :=
  [.actualX, .actualY, .canvasSize, .colorCount, .isBrushColor, .isBrushSize,
    .isCanvasColor]

/-- The name of a query function. -/
def name : Builtin → String
  | .actualX => "GetActualX"
  | .actualY => "GetActualY"
  | .canvasSize => "GetCanvasSize"
  | .colorCount => "GetColorCount"
  | .isBrushColor => "IsBrushColor"
  | .isBrushSize => "IsBrushSize"
  | .isCanvasColor => "IsCanvasColor"

/-- The query function with a name. -/
def ofName? (name : String) : Option Builtin :=
  all.find? fun builtin => builtin.name == name

/-- The kinds of the arguments, in order. -/
def parameters : Builtin → List ValueKind
  | .actualX | .actualY | .canvasSize => []
  | .colorCount => [.string, .int, .int, .int, .int]
  | .isBrushColor => [.string]
  | .isBrushSize => [.int]
  | .isCanvasColor => [.string, .int, .int]

/-- The kind of the answer. -/
def result : Builtin → ValueKind
  | .actualX | .actualY | .canvasSize | .colorCount => .int
  | .isBrushColor | .isBrushSize | .isCanvasColor => .bool

/-- The parameter count in words. -/
def arityPhrase (builtin : Builtin) : String :=
  let count := builtin.parameters.length
  if count = 1 then
    s!"{count} argument"
  else
    s!"{count} arguments"

end Builtin

end PixelBrush
