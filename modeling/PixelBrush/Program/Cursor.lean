import PixelBrush.Program.ParseError
import PixelBrush.Program.Vocabulary

namespace PixelBrush

/-!
# Reading tokens one after another

A cursor holds the tokens that are left and the place of the token read last.
Each way of reading gives a value and a later cursor, together with the fact
that fewer tokens are left, so that readers can call one another without end
checks.
-/

/-- The tokens that are left, and the place of the token read last. -/
structure Cursor where
  last : Location
  rest : List Token
  deriving Repr, DecidableEq

/-- A value and a later cursor with fewer than `bound` tokens left. -/
structure Reading (Value : Type) (bound : Nat) where
  value : Value
  next : Cursor
  fewer : next.rest.length < bound

/-- The same reading, seen from where more tokens are left. -/
def Reading.widen
    {Value : Type}
    {narrow bound : Nat}
    (reading : Reading Value narrow)
    (wider : narrow < bound) :
    Reading Value bound :=
  ⟨reading.value, reading.next, Nat.lt_trans reading.fewer wider⟩

namespace Cursor

/-- How many tokens are left. -/
def remaining (cursor : Cursor) : Nat :=
  cursor.rest.length

/-- The place of the next token, or of the last one at the end of the input. -/
def location (cursor : Cursor) : Location :=
  match cursor.rest with
  | token :: _ => token.location
  | [] => cursor.last

/-- The error that something else was expected here. -/
def expected (cursor : Cursor) (expectation : Expectation) : ParseError :=
  ⟨.expected expectation cursor.rest.head?, cursor.location⟩

/-- Reads the next token, whatever it is. -/
def next? (cursor : Cursor) : Option (Reading Token cursor.remaining) :=
  match cursor with
  | ⟨_, []⟩ => none
  | ⟨_, token :: rest⟩ =>
      some ⟨token, ⟨token.location, rest⟩, by simp [remaining]⟩

/-- Reads the next token if it is acceptable. -/
def token?
    (cursor : Cursor)
    (accepts : Token → Bool) :
    Option (Reading Token cursor.remaining) :=
  cursor.next?.filter fun reading => accepts reading.value

/-- Reads a token that has to be acceptable. -/
def token
    (cursor : Cursor)
    (accepts : Token → Bool)
    (expectation : Expectation) :
    Except ParseError (Reading Token cursor.remaining) :=
  match cursor.token? accepts with
  | some reading => .ok reading
  | none => .error (cursor.expected expectation)

/-- Reads a punctuation mark or an operator. -/
def symbol
    (cursor : Cursor)
    (text : String)
    (expectation : Expectation) :
    Except ParseError (Reading Token cursor.remaining) :=
  cursor.token (·.isSymbol text) expectation

/-- Reads a token of a class. -/
def kind
    (cursor : Cursor)
    (kind : TokenKind)
    (expectation : Expectation) :
    Except ParseError (Reading Token cursor.remaining) :=
  cursor.token (·.kind = kind) expectation

/-- Reads an integer literal. -/
def integer
    (cursor : Cursor)
    (use : LiteralUse) :
    Except ParseError (Reading Number cursor.remaining) := do
  let ⟨token, next, fewer⟩ ← cursor.kind .number (.integer use)
  match Number.read? token.lexeme.toList with
  | some value => return ⟨value, next, fewer⟩
  | none => throw ⟨.outOfRange token.lexeme, token.location⟩

/-- The next token starts with this symbol. -/
def atSymbol (cursor : Cursor) (text : String) : Bool :=
  cursor.rest.head?.any (·.isSymbol text)

/-- The operator that a token stands for. -/
def operatorOf? (token : Token) : Option Operator :=
  if token.kind = .arithmetic ∨ token.kind = .boolean then
    Operator.ofSymbol? token.lexeme
  else
    none

end Cursor

end PixelBrush
