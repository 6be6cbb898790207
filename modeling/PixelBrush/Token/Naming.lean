import PixelBrush.Token.Scan

namespace PixelBrush

/-!
# Variables and labels

A free word is a variable when some occurrence of it is followed by the
assignment arrow, and a label otherwise.  A word that is assigned somewhere and
also stands alone on a line could be either, and is refused.
-/

namespace Naming

/-- The words that are followed by the assignment arrow. -/
def assigned : List Token → List String
  | token :: next :: rest =>
      if token.kind = .identifier ∧ next.kind = .assignment then
        token.lexeme :: assigned (next :: rest)
      else
        assigned (next :: rest)
  | _ => []

/--
The free words that stand alone on their line, given the line of the token
before.
-/
def alone (previousLine : Option Nat) : List Token → List Token
  | [] => []
  | token :: rest =>
      let following := rest.head?
      if token.kind = .identifier ∧
          following.map Token.kind ≠ some .assignment ∧
          previousLine ≠ some token.location.line ∧
          following.map (·.location.line) ≠ some token.location.line then
        token :: alone (some token.location.line) rest
      else
        alone (some token.location.line) rest

/-- The first word alone on a line that is also assigned. -/
def conflict? (tokens : List Token) : Option Token :=
  (alone none tokens).find? fun token => (assigned tokens).contains token.lexeme

/-- Turns a free word that is never assigned into a label. -/
def settle (assigned : List String) (token : Token) : Token :=
  if token.kind = .identifier ∧ ¬ assigned.contains token.lexeme then
    { token with kind := .label }
  else
    token

end Naming

/-- Settles which free words are variables and which are labels. -/
def resolveNames (tokens : List Token) : Except ScanError (List Token) :=
  match Naming.conflict? tokens with
  | some token =>
      .error ⟨.ambiguousName token.lexeme, token.location⟩
  | none =>
      .ok (tokens.map (Naming.settle (Naming.assigned tokens)))

/-- The tokens of a source text. -/
def tokenize (source : String) : Except ScanError (List Token) :=
  (scan source).bind resolveNames

end PixelBrush
