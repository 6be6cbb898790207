import PixelBrush.Proofs.Grammar
import PixelBrush.Token.Scan

namespace PixelBrush

/-!
# Printing programs

A program is printed one instruction a line.  Operators stand between spaces,
and an operand is parenthesised where its operator is looser than its place
allows; among arguments only primaries stand bare.  A printed line is a list of
marks: tokens that have no place yet, and the blanks between them.
-/

/-- A piece of printed text. -/
inductive Mark where
  | word (name : String)
  | number (value : Number)
  | text (value : String)
  | symbol (kind : TokenKind) (shape : String)
  | space
  | lineBreak
  deriving Repr, DecidableEq

namespace Mark

/-- The characters of a mark. -/
def spelling : Mark → List Char
  | .word name => name.toList
  | .number value => (toString value.toInt).toList
  | .text value => '"' :: (value.toList ++ ['"'])
  | .symbol _ shape => shape.toList
  | .space => [' ']
  | .lineBreak => ['\n']

/-- A punctuation mark. -/
def punctuation (text : String) : Mark :=
  .symbol .punctuation text

/-- The arrow of assignments. -/
def arrow : Mark :=
  .symbol .assignment "<-"

/-- An operator. -/
def operator (operator : Operator) : Mark :=
  .symbol (Grammar.tokenKind operator) operator.symbol

end Mark

/-- The characters of printed text. -/
def spell (marks : List Mark) : List Char :=
  marks.flatMap Mark.spelling

namespace Printing

/-- Marks in parentheses. -/
def enclose (marks : List Mark) : List Mark :=
  .punctuation "(" :: (marks ++ [.punctuation ")"])

/-- An operator between its operands, in parentheses where it is too loose. -/
def between
    (minimum : Nat)
    (operator : Operator)
    (left right : List Mark) :
    List Mark :=
  let whole := left ++ .space :: .operator operator :: .space :: right
  if operator.precedence < minimum then
    enclose whole
  else
    whole

end Printing

namespace Node

open Grammar Printing

mutual

/--
An expression where only operators of at least a precedence may stand bare.
-/
def marks (minimum : Nat) : Node → List Mark
  | .number value _ => [.number value]
  | .text value _ => [.text value]
  | .read name _ | .label name _ => [.word name]
  | .call function arguments _ =>
      .word function.name :: enclose (separated arguments)
  | .arithmetic operator left right _ =>
      between minimum (.arithmetic operator)
        (left.marks (leftPrecedence (.arithmetic operator)))
        (right.marks (Operator.arithmetic operator).rightPrecedence)
  | .boolean operator left right _ =>
      between minimum (.boolean operator)
        (left.marks (leftPrecedence (.boolean operator)))
        (right.marks (Operator.boolean operator).rightPrecedence)
  -- The other nodes are not expressions.
  | .spawn .. | .setColor .. | .setSize .. | .draw .. | .fill .. | .assign ..
  | .goTo .. => []

/-- Arguments with commas between them. -/
def separated : List Node → List Mark
  | [] => []
  | [argument] => argument.marks primaryLevel
  | argument :: next :: others =>
      argument.marks primaryLevel ++ .punctuation "," :: .space ::
        separated (next :: others)

end

/-- The line of an instruction. -/
def line : Node → List Mark
  | .spawn x y _ =>
      .word "Spawn" :: enclose [.number x, .punctuation ",", .space, .number y]
  | .setColor name _ =>
      .word "Color" :: enclose [.text name]
  | .setSize size _ =>
      .word "Size" :: enclose [.number size]
  | .draw command arguments _ =>
      .word command.name :: enclose (separated arguments)
  | .fill _ =>
      .word "Fill" :: enclose []
  | .assign name value _ =>
      .word name :: .space :: .arrow :: .space :: value.marks 1
  | .goTo target condition _ =>
      .word "GoTo" :: .space :: .punctuation "[" :: .word target ::
        .punctuation "]" ::
        .space :: enclose (condition.marks 1)
  | node => node.marks 1

mutual

/-- A node with every place forgotten. -/
def unplaced : Node → Node
  | .spawn x y _ => .spawn x y .nowhere
  | .setColor name _ => .setColor name .nowhere
  | .setSize size _ => .setSize size .nowhere
  | .draw command arguments _ => .draw command (unplacedAll arguments) .nowhere
  | .fill _ => .fill .nowhere
  | .assign name value _ => .assign name value.unplaced .nowhere
  | .label name _ => .label name .nowhere
  | .goTo target condition _ => .goTo target condition.unplaced .nowhere
  | .call function arguments _ =>
      .call function (unplacedAll arguments) .nowhere
  | .arithmetic operator left right _ =>
      .arithmetic operator left.unplaced right.unplaced .nowhere
  | .boolean operator left right _ =>
      .boolean operator left.unplaced right.unplaced .nowhere
  | .read name _ => .read name .nowhere
  | .number value _ => .number value .nowhere
  | .text value _ => .text value .nowhere

/-- Nodes with every place forgotten. -/
def unplacedAll : List Node → List Node
  | [] => []
  | node :: others => node.unplaced :: unplacedAll others

end

/-- The variable that an instruction assigns. -/
def target? : Node → Option String
  | .assign name _ _ => some name
  | _ => none

end Node

/-- A text that can stand between quotes. -/
structure IsPlain (text : String) : Prop where
  unquoted : '"' ∉ text.toList
  oneLine : '\n' ∉ text.toList

/-- A letter, then letters, digits and underscores. -/
structure IsWord (name : String) : Prop where
  starts : ∃ first ∈ name.toList.head?, first.isAlpha = true
  continues :
    name.toList.all
      (fun character => character.isAlphanum || character == '_') = true

/-- A word that is free to name a variable or a label. -/
structure IsName (name : String) : Prop extends IsWord name where
  notKeyword : name ∉ Scan.keywords
  notFunction : name ∉ Scan.functions
  notCommand : name ∉ Scan.commands

/-- Expressions that can be printed, given the words that are assigned. -/
inductive Node.Writable (assigned : List String) : Node → Prop where
  | number
      {value : Number}
      {location : Location} :
      Writable assigned (.number value location)
  | text
      {value : String}
      {location : Location}
      (plain : IsPlain value) :
      Writable assigned (.text value location)
  | read
      {name : String}
      {location : Location}
      (isName : IsName name)
      (known : name ∈ assigned) :
      Writable assigned (.read name location)
  | label
      {name : String}
      {location : Location}
      (isName : IsName name)
      (apart : name ∉ assigned) :
      Writable assigned (.label name location)
  | call
      {function : Builtin}
      {arguments : List Node}
      {location : Location}
      (each : ∀ argument ∈ arguments, Writable assigned argument) :
      Writable assigned (.call function arguments location)
  | arithmetic
      {operator : ArithmeticOperator}
      {left right : Node}
      {location : Location}
      (first : Writable assigned left)
      (second : Writable assigned right) :
      Writable assigned (.arithmetic operator left right location)
  | boolean
      {operator : BooleanOperator}
      {left right : Node}
      {location : Location}
      (first : Writable assigned left)
      (second : Writable assigned right) :
      Writable assigned (.boolean operator left right location)

/-- Instructions that can be printed, given the words that are assigned. -/
inductive Node.WritableLine (assigned : List String) : Node → Prop where
  | spawn
      {x y : Number}
      {location : Location} :
      WritableLine assigned (.spawn x y location)
  | setColor
      {name : String}
      {location : Location}
      (plain : IsPlain name) :
      WritableLine assigned (.setColor name location)
  | setSize
      {size : Number}
      {location : Location} :
      WritableLine assigned (.setSize size location)
  | draw
      {command : DrawCommand}
      {arguments : List Node}
      {location : Location}
      (each : ∀ argument ∈ arguments, argument.Writable assigned) :
      WritableLine assigned (.draw command arguments location)
  | fill
      {location : Location} :
      WritableLine assigned (.fill location)
  | assign
      {name : String}
      {value : Node}
      {location : Location}
      (isName : IsName name)
      (inner : value.Writable assigned) :
      WritableLine assigned (.assign name value location)
  | label
      {name : String}
      {location : Location}
      (isName : IsName name)
      (apart : name ∉ assigned) :
      WritableLine assigned (.label name location)
  | goTo
      {target : String}
      {condition : Node}
      {location : Location}
      (isName : IsName target)
      (apart : target ∉ assigned)
      (inner : condition.Writable assigned) :
      WritableLine assigned (.goTo target condition location)
  | call
      {function : Builtin}
      {arguments : List Node}
      {location : Location}
      (each : ∀ argument ∈ arguments, argument.Writable assigned) :
      WritableLine assigned (.call function arguments location)

namespace Program

/-- The words that a program assigns. -/
def assigned (program : Program) : List String :=
  program.filterMap Node.target?

/-- Programs that can be printed. -/
def Writable (program : Program) : Prop :=
  ∀ node ∈ program, node.WritableLine program.assigned

/-- A program with every place forgotten. -/
def unplaced (program : Program) : Program :=
  program.map Node.unplaced

/-- The lines of a program. -/
def marks (program : Program) : List Mark :=
  program.flatMap fun node => node.line ++ [.lineBreak]

/-- The text of a program. -/
def print (program : Program) : String :=
  String.ofList (spell program.marks)

end Program

end PixelBrush
