import PixelBrush.Number
import PixelBrush.Source.Blank
import PixelBrush.Token.Basic

namespace PixelBrush

/-!
# Scanning characters into tokens

The scanner reads one token at a time from the characters that are left.  A
token's class depends on its own characters and, for a hyphen, on the single
character before it.  Words that are not reserved are classified provisionally
as identifiers; which of them are labels is settled once all tokens are known.
-/

/-- Why a text has no tokens. -/
inductive ScanCause where
  | unexpectedCharacter (character : Char)
  | halfOperator (character : Char)
  | lineStart (character : Char)
  | digitLedName (digits : String)
  | hyphenLedName
  | outOfRange (literal : String)
  | unterminatedText
  | strayParenthesis
  | strayBracket
  | openParenthesis
  | openBracket
  | ambiguousName (name : String)
  deriving Repr, DecidableEq

/-- A cause and the place it points to. -/
structure ScanError where
  cause : ScanCause
  location : Location
  deriving Repr, DecidableEq

/-- The wording of a cause. -/
def ScanCause.message : ScanCause → String
  | .unexpectedCharacter character =>
      s!"Unexpected character: '{character}'"
  | .halfOperator character =>
      s!"Unexpected character: '{character}' " ++
        s!"(did you mean '{character}{character}'?)"
  | .lineStart character =>
      s!"A line cannot start with '{character}'"
  | .digitLedName digits =>
      s!"Identifiers cannot start with a digit: '{digits}…'"
  | .hyphenLedName =>
      "Identifiers cannot start with '-'"
  | .outOfRange literal =>
      s!"Integer literal out of range: {literal}"
  | .unterminatedText =>
      "Unterminated string literal"
  | .strayParenthesis =>
      "Unbalanced parentheses: unexpected ')'"
  | .strayBracket =>
      "Unbalanced brackets: unexpected ']'"
  | .openParenthesis =>
      "Unbalanced parentheses: '(' is never closed"
  | .openBracket =>
      "Unbalanced brackets: '[' is never closed"
  | .ambiguousName name =>
      s!"'{name}' is used both as a variable and as a label"

/-- The full report of a text that has no tokens. -/
def ScanError.message (error : ScanError) : String :=
  s!"Lexer error at line {error.location.line}, column {error.location.column}: " ++
    error.cause.message

namespace Scan

/-- The words that open an instruction. -/
def keywords : List String :=
  ["Spawn", "Color", "Size", "GoTo", "Fill"]

/-- The names of the query functions. -/
def functions : List String :=
  ["GetActualX", "GetActualY", "GetCanvasSize", "GetColorCount", "IsBrushColor",
    "IsBrushSize", "IsCanvasColor"]

/-- The names of the drawing commands. -/
def commands : List String :=
  ["DrawLine", "DrawCircle", "DrawRectangle"]

/-- The class of a word, with every free word an identifier. -/
def wordKind (word : String) : TokenKind :=
  if keywords.contains word then
    .keyword
  else if functions.contains word then
    .function
  else if commands.contains word then
    .command
  else
    .identifier

/-- A character that may follow the first one of a word. -/
def isWordCharacter (character : Char) : Bool :=
  character.isAlphanum || character == '_'

/-- A character that cannot follow the digits of a number. -/
def gluesToNumber (character : Char) : Bool :=
  character.isAlpha || character == '_'

/-- Operators and punctuation, each one before those it starts with. -/
def symbols : List (List Char × TokenKind) :=
  [(['*', '*'], .arithmetic), (['<', '-'], .assignment), (['<', '='], .boolean),
    (['>', '='], .boolean), (['=', '='], .boolean), (['!', '='], .boolean),
    (['&', '&'], .boolean), (['|', '|'], .boolean), (['+'], .arithmetic),
    (['-'], .arithmetic), (['*'], .arithmetic), (['/'], .arithmetic),
    (['%'], .arithmetic), (['<'], .boolean), (['>'], .boolean),
    (['('], .punctuation), ([')'], .punctuation), (['['], .punctuation),
    ([']'], .punctuation), ([','], .punctuation)]

/-- A token without its place, and the characters after it. -/
structure Piece where
  kind : TokenKind
  lexeme : String
  rest : List Char
  deriving Repr, DecidableEq

/-- Reads a string literal after its opening quote; it ends on the same line. -/
def text (characters : List Char) : Except ScanCause Piece :=
  let inside := characters.takeWhile fun character =>
    character != '"' && character != '\n'
  match characters.drop inside.length with
  | '"' :: rest =>
      .ok ⟨.text, String.ofList inside, rest⟩
  | _ =>
      .error .unterminatedText

/-- Reads the digits of a number after its sign. -/
def number (sign characters : List Char) : Except ScanCause Piece :=
  let literal := sign ++ characters.takeWhile Char.isDigit
  let rest := characters.dropWhile Char.isDigit
  if rest.head?.any gluesToNumber then
    .error (.digitLedName (String.ofList literal))
  else if (Number.read? literal).isNone then
    .error (.outOfRange (String.ofList literal))
  else
    .ok ⟨.number, String.ofList literal, rest⟩

/-- Reads a word. -/
def word (characters : List Char) : Piece :=
  let letters := String.ofList (characters.takeWhile isWordCharacter)
  ⟨wordKind letters, letters, characters.dropWhile isWordCharacter⟩

/-- Reads an operator or a punctuation mark that starts with `first`. -/
def symbol (first : Char) (characters : List Char) : Except ScanCause Piece :=
  match symbols.find? fun entry => entry.1.isPrefixOf (first :: characters) with
  | some (spelling, kind) =>
      .ok ⟨kind, String.ofList spelling,
        (first :: characters).drop spelling.length⟩
  | none =>
      if first = '&' ∨ first = '|' then
        .error (.halfOperator first)
      else
        .error (.unexpectedCharacter first)

/-- After these characters a hyphen subtracts. -/
def endsOperand (character : Char) : Bool :=
  character.isAlphanum || character == ')'

/-- Reads what starts with a hyphen: a negative number or an operator. -/
def hyphen
    (previous : Option Char)
    (characters : List Char) :
    Except ScanCause Piece :=
  if previous.any endsOperand then
    symbol '-' characters
  else if characters.head?.any Char.isDigit then
    number ['-'] characters
  else if characters.head?.any Char.isAlpha then
    .error .hyphenLedName
  else
    symbol '-' characters

/-- Reads the token that starts with the nonblank character `first`. -/
def piece
    (previous : Option Char)
    (first : Char)
    (characters : List Char) :
    Except ScanCause Piece :=
  if first = '"' then
    text characters
  else if first.isDigit then
    number [] (first :: characters)
  else if first.isAlpha then
    .ok (word (first :: characters))
  else if first = '-' then
    hyphen previous characters
  else
    symbol first characters

/-- The places of the parentheses and brackets still open, innermost first. -/
structure Nesting where
  parentheses : List Location
  brackets : List Location
  deriving Repr, DecidableEq

namespace Nesting

/-- Nothing is open at the start of a text. -/
def empty : Nesting :=
  ⟨[], []⟩

/-- The nesting after a token. -/
def after (nesting : Nesting) (token : Token) : Except ScanError Nesting :=
  if token.kind ≠ .punctuation then
    .ok nesting
  else if token.lexeme = "(" then
    .ok { nesting with parentheses := token.location :: nesting.parentheses }
  else if token.lexeme = "[" then
    .ok { nesting with brackets := token.location :: nesting.brackets }
  else if token.lexeme = ")" then
    match nesting.parentheses with
    | [] =>
        .error ⟨.strayParenthesis, token.location⟩
    | _ :: outer =>
        .ok { nesting with parentheses := outer }
  else if token.lexeme = "]" then
    match nesting.brackets with
    | [] =>
        .error ⟨.strayBracket, token.location⟩
    | _ :: outer =>
        .ok { nesting with brackets := outer }
  else
    .ok nesting

/--
At the end of a text the outermost open bracket or parenthesis is an error.
-/
def close (nesting : Nesting) : Except ScanError Unit :=
  match nesting.brackets.getLast?, nesting.parentheses.getLast? with
  | some location, _ =>
      .error ⟨.openBracket, location⟩
  | none, some location =>
      .error ⟨.openParenthesis, location⟩
  | none, none =>
      .ok ()

end Nesting

/-- Dropping a run of characters does not lengthen what is left. -/
theorem length_dropWhile_le
    (accepts : Char → Bool)
    (characters : List Char) :
    (characters.dropWhile accepts).length ≤ characters.length :=
  (List.dropWhile_sublist accepts).length_le

/-- A symbol takes up at least one character. -/
theorem symbol_rest_length
    {first : Char}
    {characters : List Char}
    {result : Piece}
    (read : symbol first characters = .ok result) :
    result.rest.length ≤ characters.length := by
  unfold symbol at read
  split at read
  · rename_i spelling kind found
    cases read
    have known := List.mem_of_find?_eq_some found
    have nonempty : 0 < spelling.length := by
      simp only [symbols, List.mem_cons, Prod.mk.injEq, List.not_mem_nil,
        or_false] at known
      rcases known with
        h | h | h | h | h | h | h | h | h | h | h | h | h | h | h | h | h |
        h | h | h <;> simp [h.1]
    simp only [List.length_drop, List.length_cons]
    omega
  · split at read <;> cases read

/-- A number takes up its digits. -/
theorem number_rest_eq
    {sign characters : List Char}
    {result : Piece}
    (read : number sign characters = .ok result) :
    result.rest = characters.dropWhile Char.isDigit := by
  unfold number at read
  simp only at read
  split at read
  · cases read
  · split at read
    · cases read
    · cases read
      rfl

/-- Every token takes up at least its first character. -/
theorem piece_rest_length
    {previous : Option Char}
    {first : Char}
    {characters : List Char}
    {result : Piece}
    (read : piece previous first characters = .ok result) :
    result.rest.length ≤ characters.length := by
  unfold piece at read
  split at read
  · unfold text at read
    simp only at read
    split at read
    · rename_i rest shape
      cases read
      have shorter := congrArg List.length shape
      simp only [List.length_drop, List.length_cons] at shorter ⊢
      omega
    · cases read
  · split at read
    · rename_i isDigit
      rw [number_rest_eq read, List.dropWhile_cons_of_pos isDigit]
      exact length_dropWhile_le _ _
    · split at read
      · rename_i isAlpha
        cases read
        have accepted : isWordCharacter first = true := by
          simp [isWordCharacter, Char.isAlphanum, isAlpha]
        simp only [word, List.dropWhile_cons_of_pos accepted]
        exact length_dropWhile_le _ _
      · split at read
        · unfold hyphen at read
          split at read
          · exact symbol_rest_length read
          · split at read
            · rw [number_rest_eq read]
              exact length_dropWhile_le _ _
            · split at read
              · cases read
              · exact symbol_rest_length read
        · exact symbol_rest_length read

/-- A line does not start with a hyphen or a digit. -/
def opensLineBadly (character : Char) : Bool :=
  character == '-' || character.isDigit

/-- The character that opens a line badly after this blank, if there is one. -/
def badLineStart? (blank : Char) (rest : List Char) : Option Char :=
  if blank = '\n' then
    rest.head?.filter opensLineBadly
  else
    none

/--
Scans what is left of a text, given the character before it and its place.
-/
def tokens
    (previous : Option Char)
    (location : Location)
    (nesting : Nesting)
    (characters : List Char) :
    Except ScanError (List Token) :=
  match characters with
  | [] =>
      nesting.close.map fun _ => []
  | first :: rest =>
      if isBlank first then
        let next := location.advance first
        match badLineStart? first rest with
        | some character =>
            .error ⟨.lineStart character, next⟩
        | none =>
            tokens (some first) next nesting rest
      else
        match _read : piece previous first rest with
        | .error cause =>
            .error ⟨cause, location⟩
        | .ok piece =>
            let token : Token := ⟨piece.kind, piece.lexeme, location⟩
            match nesting.after token with
            | .error error =>
                .error error
            | .ok nesting =>
                (tokens token.spelling.getLast?
                  (location.advanceOver token.spelling)
                  nesting piece.rest).map (token :: ·)
termination_by characters.length
decreasing_by
  · simp
  · have shorter := piece_rest_length (by assumption)
    simp only [List.length_cons]
    omega

end Scan

/-- Scans a whole text, with every free word an identifier. -/
def scan (source : String) : Except ScanError (List Token) :=
  Scan.tokens none Location.start Scan.Nesting.empty source.toList

end PixelBrush
