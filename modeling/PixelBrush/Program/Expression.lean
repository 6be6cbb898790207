import PixelBrush.Program.Cursor
import PixelBrush.Program.Node

namespace PixelBrush

/-!
# Reading expressions

Operands are literals, names, calls and parenthesised expressions.  Operators
are read by precedence climbing: an operand absorbs every operator to its right
that binds at least as tightly as the given minimum.  Arguments are operands, so
that an argument with an operator needs parentheses of its own.
-/

namespace Cursor

mutual

/-- Reads one operand. -/
def operand
    (cursor : Cursor) :
    Except ParseError (Reading Node cursor.remaining) :=
  match cursor.next? with
  | none => .error (cursor.expected .expression)
  | some ⟨token, next, fewer⟩ =>
      match token.kind with
      | .number => do
          let ⟨value, next, fewer⟩ ← cursor.integer .operand
          return ⟨.number value token.location, next, fewer⟩
      | .text =>
          return ⟨.text token.lexeme token.location, next, fewer⟩
      | .identifier =>
          return ⟨.read token.lexeme token.location, next, fewer⟩
      | .label =>
          return ⟨.label token.lexeme token.location, next, fewer⟩
      | .function =>
          match Builtin.ofName? token.lexeme with
          | none =>
              throw ⟨.unknownFunction token.lexeme, token.location⟩
          | some function => do
              let ⟨arguments, after, _⟩ ← next.arguments token.lexeme
              return ⟨.call function arguments token.location, after, by
                simp only [remaining] at *
                omega⟩
      | _ =>
          if token.kind = .punctuation ∧ token.lexeme = "(" then do
            let ⟨inner, close, _⟩ ← next.expression 1
            let ⟨_, after, _⟩ ← close.symbol ")" .expressionClose
            return ⟨inner, after, by
              simp only [remaining] at *
              omega⟩
          else
            throw (cursor.expected .expression)
termination_by 2 * cursor.remaining
decreasing_by
  all_goals
    simp only [remaining] at *
    omega

/--
Reads an operand and the operators that bind at least as tightly as `minimum`.
-/
def expression
    (cursor : Cursor)
    (minimum : Nat) :
    Except ParseError (Reading Node cursor.remaining) := do
  let ⟨left, next, _⟩ ← cursor.operand
  let ⟨whole, after, _⟩ ← next.climb minimum left
  return ⟨whole, after, by
    simp only [remaining] at *
    omega⟩
termination_by 2 * cursor.remaining + 1
decreasing_by
  all_goals
    simp only [remaining] at *
    omega

/--
Extends an expression by the operators that bind at least as tightly as
`minimum`.
-/
def climb
    (cursor : Cursor)
    (minimum : Nat)
    (left : Node) :
    Except ParseError (Reading Node (cursor.remaining + 1)) :=
  match cursor.next? with
  | none =>
      return ⟨left, cursor, by simp [remaining]⟩
  | some ⟨token, next, _⟩ =>
      match operatorOf? token with
      | none =>
          return ⟨left, cursor, by simp [remaining]⟩
      | some operator =>
          if operator.precedence < minimum then
            return ⟨left, cursor, by simp [remaining]⟩
          else do
            let ⟨right, after, _⟩ ← next.expression operator.rightPrecedence
            let ⟨whole, stop, _⟩ ←
              after.climb minimum
                (.operation operator left right token.location)
            return ⟨whole, stop, by
              simp only [remaining] at *
              omega⟩
termination_by 2 * cursor.remaining
decreasing_by
  all_goals
    simp only [remaining] at *
    omega

/-- Reads a parenthesised list of operands after the name `word`. -/
def arguments
    (cursor : Cursor)
    (word : String) :
    Except ParseError (Reading (List Node) cursor.remaining) := do
  let ⟨_, start, _⟩ ← cursor.symbol "(" (.openAfter word)
  if start.atSymbol ")" then
    let ⟨_, after, _⟩ ← start.symbol ")" .argumentsClose
    return ⟨[], after, by
      simp only [remaining] at *
      omega⟩
  else
    let ⟨arguments, close, _⟩ ← start.operands
    let ⟨_, after, _⟩ ← close.symbol ")" .argumentsClose
    return ⟨arguments, after, by
      simp only [remaining] at *
      omega⟩
termination_by 2 * cursor.remaining
decreasing_by
  all_goals
    simp only [remaining] at *
    omega

/-- Reads operands separated by commas. -/
def operands
    (cursor : Cursor) :
    Except ParseError (Reading (List Node) cursor.remaining) := do
  let ⟨first, next, _⟩ ← cursor.operand
  match next.token? (·.isSymbol ",") with
  | none =>
      return ⟨[first], next, by assumption⟩
  | some ⟨_, more, _⟩ =>
      let ⟨others, after, _⟩ ← more.operands
      return ⟨first :: others, after, by
        simp only [remaining] at *
        omega⟩
termination_by 2 * cursor.remaining + 1
decreasing_by
  all_goals
    simp only [remaining] at *
    omega

end

end Cursor

end PixelBrush
