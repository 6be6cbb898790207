import PixelBrush.Number
import PixelBrush.Program.Vocabulary
import PixelBrush.Source.Location

namespace PixelBrush

/-!
# Programs

A program is a list of nodes.  One type covers instructions and expressions,
since a bare expression is an instruction and a label may stand where a value is
wanted; which nodes make sense where is settled by validation and by execution.
-/

/-- An instruction or an expression at a place. -/
inductive Node where
  | spawn (x y : Number) (location : Location)
  | setColor (name : String) (location : Location)
  | setSize (size : Number) (location : Location)
  | draw (command : DrawCommand) (arguments : List Node) (location : Location)
  | fill (location : Location)
  | assign (name : String) (value : Node) (location : Location)
  | label (name : String) (location : Location)
  | goTo (target : String) (condition : Node) (location : Location)
  | call (function : Builtin) (arguments : List Node) (location : Location)
  | arithmetic (operator : ArithmeticOperator) (left right : Node)
    (location : Location)
  | boolean (operator : BooleanOperator) (left right : Node)
    (location : Location)
  | read (name : String) (location : Location)
  | number (value : Number) (location : Location)
  | text (value : String) (location : Location)
  deriving Repr, Inhabited

namespace Node

/-- The place of a node. -/
def location : Node → Location
  | .spawn _ _ location
  | .setColor _ location
  | .setSize _ location
  | .draw _ _ location
  | .fill location
  | .assign _ _ location
  | .label _ location
  | .goTo _ _ location
  | .call _ _ location
  | .arithmetic _ _ _ location
  | .boolean _ _ _ location
  | .read _ location
  | .number _ location
  | .text _ location => location

/-- The value of a number literal. -/
def literal? : Node → Option Number
  | .number value _ => some value
  | _ => none

/-- The node of an operator between two expressions. -/
def operation
    (operator : Operator)
    (left right : Node)
    (location : Location) :
    Node :=
  match operator with
  | .arithmetic operator => .arithmetic operator left right location
  | .boolean operator => .boolean operator left right location

/-- A declaration of a label. -/
def declares (name : String) : Node → Bool
  | .label declared _ => declared == name
  | _ => false

end Node

/-- The instructions of a program, in order. -/
abbrev Program := List Node

/-- The index of the first declaration of a label. -/
def Program.labelIndex? (program : Program) (name : String) : Option Nat :=
  program.findIdx? (Node.declares name)

end PixelBrush
