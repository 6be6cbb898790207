import PixelBrush.Program.Expression
import PixelBrush.Token.Naming

namespace PixelBrush

/-!
# Reading programs

A program is a sequence of instructions, each of which ends its line.  The word
that opens an instruction decides its form; a free word is a declaration of a
label or the target of an assignment.
-/

namespace Cursor

/-- Reads the coordinates after `Spawn`. -/
def spawn
    (cursor : Cursor)
    (location : Location) :
    Except ParseError (Reading Node cursor.remaining) := do
  let ⟨_, first, opened⟩ ← cursor.symbol "(" (.openAfter "Spawn")
  let ⟨x, comma, afterX⟩ ← first.integer .spawnX
  let ⟨_, second, afterComma⟩ ← comma.symbol "," .spawnComma
  let ⟨y, close, afterY⟩ ← second.integer .spawnY
  let ⟨_, after, closed⟩ ← close.symbol ")" .spawnClose
  let reading : Reading Node close.remaining :=
    ⟨.spawn x y location, after, closed⟩
  return (((reading.widen afterY).widen afterComma).widen afterX).widen opened

/-- Reads the name after `Color`. -/
def setColor
    (cursor : Cursor)
    (location : Location) :
    Except ParseError (Reading Node cursor.remaining) := do
  let ⟨_, start, opened⟩ ← cursor.symbol "(" (.openAfter "Color")
  let ⟨name, close, afterName⟩ ← start.kind .text .colorName
  let ⟨_, after, closed⟩ ← close.symbol ")" .colorClose
  let reading : Reading Node close.remaining :=
    ⟨.setColor name.lexeme location, after, closed⟩
  return (reading.widen afterName).widen opened

/-- Reads the number after `Size`. -/
def setSize
    (cursor : Cursor)
    (location : Location) :
    Except ParseError (Reading Node cursor.remaining) := do
  let ⟨_, start, opened⟩ ← cursor.symbol "(" (.openAfter "Size")
  let ⟨size, close, afterSize⟩ ← start.integer .brushSize
  let ⟨_, after, closed⟩ ← close.symbol ")" .sizeClose
  let reading : Reading Node close.remaining :=
    ⟨.setSize size location, after, closed⟩
  return (reading.widen afterSize).widen opened

/-- Reads the empty parentheses after `Fill`. -/
def fill
    (cursor : Cursor)
    (location : Location) :
    Except ParseError (Reading Node cursor.remaining) := do
  let ⟨_, close, opened⟩ ← cursor.symbol "(" (.openAfter "Fill")
  let ⟨_, after, closed⟩ ← close.symbol ")" .fillClose
  let reading : Reading Node close.remaining := ⟨.fill location, after, closed⟩
  return reading.widen opened

/-- Reads the label and the condition after `GoTo`. -/
def goTo
    (cursor : Cursor)
    (location : Location) :
    Except ParseError (Reading Node cursor.remaining) := do
  let ⟨_, name, bracketed⟩ ← cursor.symbol "[" .labelOpen
  let ⟨label, bracket, afterLabel⟩ ← name.kind .label .labelName
  let ⟨_, start, unbracketed⟩ ← bracket.symbol "]" .labelClose
  let ⟨_, condition, opened⟩ ← start.symbol "(" .conditionOpen
  let ⟨value, close, afterValue⟩ ← condition.expression 1
  let ⟨_, after, closed⟩ ← close.symbol ")" .conditionClose
  let reading : Reading Node close.remaining :=
    ⟨.goTo label.lexeme value location, after, closed⟩
  let condition := (reading.widen afterValue).widen opened
  return ((condition.widen unbracketed).widen afterLabel).widen bracketed

/-- Reads the arrow and the value of an assignment. -/
def assignment
    (cursor : Cursor)
    (name : String)
    (location : Location) :
    Except ParseError (Reading Node cursor.remaining) := do
  let ⟨_, start, afterArrow⟩ ← cursor.symbol "<-" .arrow
  let ⟨value, after, afterValue⟩ ← start.expression 1
  let reading : Reading Node start.remaining :=
    ⟨.assign name value location, after, afterValue⟩
  return reading.widen afterArrow

/-- Reads what follows a keyword. -/
def afterKeyword
    (cursor : Cursor)
    (keyword : Token) :
    Except ParseError (Reading Node cursor.remaining) :=
  match keyword.lexeme with
  | "Spawn" => cursor.spawn keyword.location
  | "Color" => cursor.setColor keyword.location
  | "Size" => cursor.setSize keyword.location
  | "Fill" => cursor.fill keyword.location
  | "GoTo" => cursor.goTo keyword.location
  | word => .error ⟨.unknownKeyword word, keyword.location⟩

/-- Reads the arguments of a drawing command. -/
def afterCommand
    (cursor : Cursor)
    (command : Token) :
    Except ParseError (Reading Node cursor.remaining) :=
  match DrawCommand.ofName? command.lexeme with
  | none =>
      .error ⟨.unknownCommand command.lexeme, command.location⟩
  | some draw => do
      let ⟨arguments, after, fewer⟩ ← cursor.arguments command.lexeme
      return ⟨.draw draw arguments command.location, after, fewer⟩

/-- Reads one instruction. -/
def instruction
    (cursor : Cursor) :
    Except ParseError (Reading Node cursor.remaining) :=
  match cursor.next? with
  | none => .error (cursor.expected .instruction)
  | some ⟨token, next, fewer⟩ =>
      match token.kind with
      | .keyword =>
          return (← next.afterKeyword token).widen fewer
      | .command =>
          return (← next.afterCommand token).widen fewer
      | .function =>
          cursor.operand
      | .label =>
          return ⟨.label token.lexeme token.location, next, fewer⟩
      | .identifier =>
          if next.rest.head?.any (·.kind = .assignment) then
            return (← next.assignment token.lexeme token.location).widen fewer
          else
            .error ⟨.notAnInstruction token, token.location⟩
      | _ =>
          .error ⟨.notAnInstruction token, token.location⟩

/-- Checks that an instruction has ended its line. -/
def endOfLine (cursor : Cursor) : Except ParseError Unit :=
  if cursor.rest.head?.any (·.location.line = cursor.last.line) then
    .error (cursor.expected .endOfLine)
  else
    .ok ()

/-- Reads instructions until no token is left. -/
def instructions (cursor : Cursor) : Except ParseError (List Node) :=
  if cursor.rest.isEmpty then
    .ok []
  else do
    let ⟨node, next, _⟩ ← cursor.instruction
    next.endOfLine
    let nodes ← next.instructions
    return node :: nodes
termination_by cursor.remaining
decreasing_by
  simp only [remaining] at *
  omega

end Cursor

namespace Program

/-- The program that a list of tokens spells. -/
def parse (tokens : List Token) : Except ParseError Program :=
  Cursor.instructions ⟨Location.nowhere, tokens⟩

/-- The program that a source text spells. -/
def ofSource (source : String) : Except ParseError Program :=
  match tokenize source with
  | .error error => .error (ParseError.ofScanError error)
  | .ok tokens => parse tokens

end Program

end PixelBrush
