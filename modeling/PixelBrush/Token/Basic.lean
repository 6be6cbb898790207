import PixelBrush.Source.Location

namespace PixelBrush

/-!
# Tokens

A token is a classified piece of source text together with its place.  The text
of a string literal is kept without its quotes.
-/

/-- The classes of tokens. -/
inductive TokenKind where
  | keyword
  | identifier
  | label
  | number
  | text
  | punctuation
  | arithmetic
  | boolean
  | assignment
  | function
  | command
  deriving Repr, DecidableEq

/-- A classified piece of text at a place. -/
structure Token where
  kind : TokenKind
  lexeme : String
  location : Location
  deriving Repr, DecidableEq

namespace TokenKind

/-- Punctuation and operators are recognised by their text. -/
def isSymbol : TokenKind → Bool
  | .punctuation | .arithmetic | .boolean | .assignment => true
  | _ => false

end TokenKind

namespace Token

/-- A punctuation or operator token with exactly this text. -/
def isSymbol (token : Token) (text : String) : Bool :=
  token.kind.isSymbol && token.lexeme == text

/-- The characters that the token takes up in the source. -/
def spelling (token : Token) : List Char :=
  match token.kind with
  | .text => '"' :: (token.lexeme.toList ++ ['"'])
  | _ => token.lexeme.toList

/-- How a token is named in messages. -/
def describe (token : Token) : String :=
  match token.kind with
  | .keyword => "keyword '" ++ token.lexeme ++ "'"
  | .identifier => "variable '" ++ token.lexeme ++ "'"
  | .label => "label '" ++ token.lexeme ++ "'"
  | .number => "number " ++ token.lexeme
  | .text => "string \"" ++ token.lexeme ++ "\""
  | .function => "function '" ++ token.lexeme ++ "'"
  | .command => "command '" ++ token.lexeme ++ "'"
  | .punctuation | .arithmetic | .boolean | .assignment =>
      "'" ++ token.lexeme ++ "'"

end Token

end PixelBrush
