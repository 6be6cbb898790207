import PixelBrush.Machine.Arithmetic
import PixelBrush.Machine.Moment
import PixelBrush.Program.Node

namespace PixelBrush

/-!
# Evaluating expressions

An expression reads the moment and changes nothing.  Operands and arguments are
evaluated from left to right and the first error wins; conjunction and
disjunction evaluate their right side only when the left side does not settle
them.
-/

namespace Moment

/-- The number in an argument of a query function. -/
def intArgument
    (function : Builtin)
    (value : Value)
    (location : Location) :
    Except RunError Number :=
  match value with
  | .int number => .ok number
  | other =>
      .error ⟨.kindMismatch (.argument function .int other.kind), location⟩

/-- The text in an argument of a query function. -/
def stringArgument
    (function : Builtin)
    (value : Value)
    (location : Location) :
    Except RunError String :=
  match value with
  | .string text => .ok text
  | other =>
      .error ⟨.kindMismatch (.argument function .string other.kind), location⟩

/-- The color that an argument names, in any case. -/
def namedColor (name : String) (location : Location) : Except RunError Color :=
  match Color.ofAnyCase? name with
  | some color => .ok color
  | none => .error ⟨.invalidColor name, location⟩

/--
A count as a number of the language; a count beyond the largest number is cut.
-/
def ofCount (count : Nat) : Value :=
  .int ((Number.ofInt? count).getD Int32.maxValue)

/-- The color at an offset from the brush. -/
def colorNear? (moment : Moment) (offsetX offsetY : Number) : Option Color := do
  let x ← Number.ofInt? (moment.brush.x.toInt + offsetX.toInt)
  let y ← Number.ofInt? (moment.brush.y.toInt + offsetY.toInt)
  moment.canvas.get? x.toInt y.toInt

/-- Adds a place to the cause of a failure. -/
def locate
    (location : Location)
    (result : Except RunCause α) :
    Except RunError α :=
  match result with
  | .ok value => .ok value
  | .error cause => .error ⟨cause, location⟩

/-- The value of an expression. -/
def evaluate (moment : Moment) : Node → Except RunError Value
  | .number value _ =>
      .ok (.int value)
  | .text value location =>
      if (Color.ofName? value).isSome then
        .ok (.string value)
      else
        .error ⟨.invalidColor value, location⟩
  | .read name location =>
      match moment.bindings.get? name with
      | some value => .ok value
      | none => .error ⟨.undefinedVariable name, location⟩
  | .label name location =>
      .error ⟨.undefinedVariable name, location⟩
  | .call function arguments location =>
      match function, arguments with
      | .actualX, [] =>
          .ok (.int moment.brush.x)
      | .actualY, [] =>
          .ok (.int moment.brush.y)
      | .canvasSize, [] =>
          .ok (ofCount moment.canvas.size)
      | .colorCount, [color, x₁, y₁, x₂, y₂] => do
          let name ← stringArgument .colorCount (← moment.evaluate color)
            color.location
          let left ← intArgument .colorCount (← moment.evaluate x₁) x₁.location
          let top ← intArgument .colorCount (← moment.evaluate y₁) y₁.location
          let right ← intArgument .colorCount (← moment.evaluate x₂) x₂.location
          let bottom ← intArgument .colorCount
            (← moment.evaluate y₂) y₂.location
          let color ← namedColor name color.location
          return ofCount
            (moment.canvas.count color left.toInt top.toInt right.toInt
              bottom.toInt)
      | .isBrushColor, [color] => do
          let name ← stringArgument .isBrushColor (← moment.evaluate color)
            color.location
          let color ← namedColor name color.location
          return .bool (moment.brush.color = color)
      | .isBrushSize, [size] => do
          let size ← intArgument .isBrushSize (← moment.evaluate size)
            size.location
          return .bool (moment.brush.size = size)
      | .isCanvasColor, [color, offsetX, offsetY] => do
          let name ← stringArgument .isCanvasColor (← moment.evaluate color)
            color.location
          let right ← intArgument .isCanvasColor (← moment.evaluate offsetX)
            offsetX.location
          let down ← intArgument .isCanvasColor (← moment.evaluate offsetY)
            offsetY.location
          let color ← namedColor name color.location
          return .bool (moment.colorNear? right down = some color)
      | _, _ =>
          .error ⟨.badArgument (.callArity function arguments.length), location⟩
  | .arithmetic operator left right location => do
      let left ← moment.evaluate left
      let right ← moment.evaluate right
      match left, right with
      | .int first, .int second => do
          let number ← locate location (operator.calculate first second)
          return .int number
      | _, _ =>
          throw
            ⟨.kindMismatch (.operands operator left.kind right.kind), location⟩
  | .boolean operator left right location =>
      match operator with
      | .and => do
          if (← moment.evaluate left).isTrue then
            return .bool (← moment.evaluate right).isTrue
          else
            return .bool false
      | .or => do
          if (← moment.evaluate left).isTrue then
            return .bool true
          else
            return .bool (← moment.evaluate right).isTrue
      | _ => do
          let left ← moment.evaluate left
          let right ← moment.evaluate right
          let truth ← locate location (operator.compare left right)
          return .bool truth
  | .spawn _ _ location
  | .setColor _ location
  | .setSize _ location
  | .draw _ _ location
  | .fill location
  | .assign _ _ location
  | .goTo _ _ location =>
      .error ⟨.kindMismatch .instruction, location⟩
termination_by structural node => node

/-- The number that an expression has to give. -/
def evaluateInt (moment : Moment) (node : Node) : Except RunError Number := do
  match ← moment.evaluate node with
  | .int number => return number
  | other => throw ⟨.kindMismatch (.wantedInt other.kind), node.location⟩

end Moment

end PixelBrush
