import PixelBrush.Program.Cursor
import PixelBrush.Proofs.Evaluation
import PixelBrush.Proofs.Grammar
import PixelBrush.Token.Naming

namespace PixelBrush

/-!
# How scanned tokens are spelled

A scanned token that is punctuation or an operator stands in the scanner's table
of symbols with its class.  Its text alone then tells what it is.
-/

/-- Punctuation and operators stand in the table of symbols. -/
def Token.WellSpelled (token : Token) : Prop :=
  token.kind.isSymbol = true →
    (token.lexeme.toList, token.kind) ∈ Scan.symbols

/-- Only string literals are spelled with more than their text. -/
theorem Token.spelling_of_ne_text
    {kind : TokenKind}
    (notText : kind ≠ .text)
    (lexeme : String)
    (location : Location) :
    spelling ⟨kind, lexeme, location⟩ = lexeme.toList := by
  unfold spelling
  split
  · rename_i same
    exact (notText same).elim
  · rfl

/-- A mapped result succeeds only if the result does. -/
theorem map_eq_ok
    {Failure Middle Result : Type}
    {first : Except Failure Middle}
    {change : Middle → Result}
    {result : Result}
    (done : first.map change = .ok result) :
    ∃ middle, first = .ok middle ∧ result = change middle := by
  cases first with
  | error failure =>
      cases done
  | ok middle =>
      cases done
      exact ⟨middle, rfl, rfl⟩

namespace Scan

variable
  {characters : List Char}
  {result : Piece}

/-- What is read as a text is of this class. -/
theorem text_kind
    (read : text characters = .ok result) :
    result.kind = .text := by
  unfold text at read
  dsimp only at read
  split at read
  · cases read
    rfl
  · cases read

/-- What is read as a number is of this class. -/
theorem number_kind
    {sign : List Char}
    (read : number sign characters = .ok result) :
    result.kind = .number := by
  unfold number at read
  dsimp only at read
  split at read
  · cases read
  · split at read
    · cases read
    · cases read
      rfl

/-- What is read as a symbol stands in the table. -/
theorem symbol_listed
    {first : Char}
    (read : symbol first characters = .ok result) :
    (result.lexeme.toList, result.kind) ∈ symbols := by
  unfold symbol at read
  split at read
  · rename_i spelling kind found
    cases read
    rw [String.toList_ofList]
    exact List.mem_of_find?_eq_some found
  · split at read <;> cases read

/-- No word has the class of a symbol. -/
theorem wordKind_not_symbol (word : String) :
    (wordKind word).isSymbol = false := by
  unfold wordKind
  repeat' split
  all_goals rfl

/-- The class of a symbol is not the class of a word. -/
theorem wordKind_ne
    (word : String)
    {kind : TokenKind}
    (isSymbol : kind.isSymbol = true) :
    wordKind word ≠ kind := by
  intro same
  rw [← same, wordKind_not_symbol] at isSymbol
  cases isSymbol

/-- No word is a string literal. -/
theorem wordKind_ne_text (word : String) :
    wordKind word ≠ .text := by
  unfold wordKind
  repeat' split
  all_goals nofun

/-- No listed symbol is a string literal. -/
theorem ne_text_of_listed
    {spelling : List Char}
    {kind : TokenKind}
    (listed : (spelling, kind) ∈ symbols) :
    kind ≠ .text := by
  have noText : ∀ entry ∈ symbols, entry.2 ≠ .text := by
    decide
  exact noText _ listed

/-- The ways in which a piece is read from its first character on. -/
inductive Reads : Char → List Char → Piece → Prop where
  | text
      {characters : List Char}
      {result : Piece}
      (read : text characters = .ok result) :
      Reads '"' characters result
  | number
      {first : Char}
      {characters sign digits : List Char}
      {result : Piece}
      (isSign : sign = [] ∨ sign = ['-'])
      (shape : first :: characters = sign ++ digits)
      (read : number sign digits = .ok result) :
      Reads first characters result
  | word
      {first : Char}
      {characters : List Char}
      (isAlpha : first.isAlpha = true) :
      Reads first characters (word (first :: characters))
  | symbol
      {first : Char}
      {characters : List Char}
      {result : Piece}
      (read : symbol first characters = .ok result) :
      Reads first characters result

/-- From a hyphen on, a number or a symbol is read. -/
theorem hyphen_reads
    {previous : Option Char}
    (read : hyphen previous characters = .ok result) :
    Reads '-' characters result := by
  unfold hyphen at read
  split at read
  · exact .symbol read
  · split at read
    · exact .number (.inr rfl) rfl read
    · split at read
      · cases read
      · exact .symbol read

/-- Every piece is read in one of these ways. -/
theorem piece_reads
    {previous : Option Char}
    {first : Char}
    (read : piece previous first characters = .ok result) :
    Reads first characters result := by
  unfold piece at read
  split at read
  · rename_i isQuote
    rw [isQuote]
    exact .text read
  · split at read
    · exact .number (.inl rfl) rfl read
    · split at read
      · rename_i isAlpha
        cases read
        exact .word isAlpha
      · split at read
        · rename_i isHyphen
          rw [isHyphen]
          exact hyphen_reads read
        · exact .symbol read

/-- A piece is a symbol of the table or no symbol. -/
theorem Reads.listed
    {first : Char}
    (reads : Reads first characters result) :
    result.kind.isSymbol = true →
      (result.lexeme.toList, result.kind) ∈ symbols := by
  intro isSymbol
  cases reads with
  | text read =>
      rw [text_kind read] at isSymbol
      cases isSymbol
  | number _ _ read =>
      rw [number_kind read] at isSymbol
      cases isSymbol
  | word =>
      rw [Scan.word, wordKind_not_symbol] at isSymbol
      cases isSymbol
  | symbol read =>
      exact symbol_listed read

/-- What holds of every piece that is read, holds of every token of a text. -/
theorem forall_mem_tokens
    (Property : TokenKind → String → Prop)
    (ofPiece :
      ∀ {first : Char} {rest : List Char} {result : Piece},
        Reads first rest result →
        Property result.kind result.lexeme)
    {previous : Option Char}
    {location : Location}
    {nesting : Nesting}
    {scanned : List Token}
    (read : tokens previous location nesting characters = .ok scanned) :
    ∀ token ∈ scanned, Property token.kind token.lexeme := by
  fun_induction tokens previous location nesting characters
    generalizing scanned with
  | case1 previous location nesting =>
      obtain ⟨_, _, rfl⟩ := map_eq_ok read
      nofun
  | case2 | case4 | case5 =>
      cases read
  | case3 =>
      rename_i inductionHypothesis
      exact inductionHypothesis read
  | case6 =>
      rename_i piecewise _ _ _ inductionHypothesis
      obtain ⟨others, later, rfl⟩ := map_eq_ok read
      intro token member
      rcases List.mem_cons.mp member with rfl | inRest
      · exact ofPiece (piece_reads piecewise)
      · exact inductionHypothesis later token inRest

/--
A successful scan passes over a blank, or reads a token and goes on after it.
-/
theorem tokens_cons_eq_ok
    {previous : Option Char}
    {location : Location}
    {nesting : Nesting}
    {first : Char}
    {rest : List Char}
    {scanned : List Token}
    (read : tokens previous location nesting (first :: rest) = .ok scanned) :
    isBlank first = true ∧
        tokens (some first) (location.advance first) nesting rest =
          .ok scanned ∨
      isBlank first = false ∧
        ∃ result later others,
          piece previous first rest = .ok result ∧
            tokens
              (Token.spelling ⟨result.kind, result.lexeme, location⟩).getLast?
                (location.advanceOver
                  (Token.spelling ⟨result.kind, result.lexeme, location⟩))
                later result.rest =
              .ok others ∧
              scanned = ⟨result.kind, result.lexeme, location⟩ :: others := by
  rw [tokens] at read
  split at read
  · rename_i blank
    dsimp only at read
    split at read
    · cases read
    · exact .inl ⟨blank, read⟩
  · rename_i notBlank
    split at read
    · cases read
    · rename_i result piecewise
      dsimp only at read
      split at read
      · cases read
      · rename_i later opened
        obtain ⟨others, goesOn, rfl⟩ := map_eq_ok read
        exact .inr ⟨Bool.eq_false_iff.mpr notBlank, result, later, others,
          piecewise, goesOn, rfl⟩

/-- Scanned tokens are well spelled. -/
theorem tokens_wellSpelled
    {previous : Option Char}
    {location : Location}
    {nesting : Nesting}
    {scanned : List Token}
    (read : tokens previous location nesting characters = .ok scanned) :
    ∀ token ∈ scanned, token.WellSpelled :=
  forall_mem_tokens
    (fun kind lexeme => kind.isSymbol = true → (lexeme.toList, kind) ∈ symbols)
    Reads.listed read

end Scan

/-- Settling keeps tokens well spelled. -/
theorem Naming.wellSpelled_settle
    {token : Token}
    (assigned : List String)
    (spelled : token.WellSpelled) :
    (settle assigned token).WellSpelled := by
  unfold settle
  split
  · nofun
  · exact spelled

/-- Settling keeps the spelling of a token. -/
theorem Naming.spelling_settle
    (assigned : List String)
    (token : Token) :
    (settle assigned token).spelling = token.spelling := by
  unfold settle
  split
  · rename_i free
    obtain ⟨kind, lexeme, location⟩ := token
    obtain ⟨rfl, _⟩ := free
    rfl
  · rfl

/-- Settling keeps the place of a token. -/
theorem Naming.location_settle
    (assigned : List String)
    (token : Token) :
    (settle assigned token).location = token.location := by
  unfold settle
  split <;> rfl

/--
The tokens of a source text are the scanned ones with their names settled.
-/
theorem exists_scan_of_tokenize
    {source : String}
    {tokens : List Token}
    (scanned : tokenize source = .ok tokens) :
    ∃ provisional,
      scan source = .ok provisional ∧
        tokens =
          provisional.map (Naming.settle (Naming.assigned provisional)) := by
  obtain ⟨provisional, read, resolved⟩ := bind_eq_ok scanned
  unfold resolveNames at resolved
  split at resolved
  · cases resolved
  · cases resolved
    exact ⟨provisional, read, rfl⟩

/-- Every token of a source text is well spelled. -/
theorem wellSpelled_of_tokenize
    {source : String}
    {tokens : List Token}
    (scanned : tokenize source = .ok tokens) :
    ∀ token ∈ tokens, token.WellSpelled := by
  obtain ⟨provisional, read, rfl⟩ := exists_scan_of_tokenize scanned
  intro token member
  obtain ⟨before, inScan, rfl⟩ := List.mem_map.mp member
  exact Naming.wellSpelled_settle _ (Scan.tokens_wellSpelled read before inScan)

namespace Grammar

/-- The text of a symbol settles its class. -/
theorem symbols_functional :
    ∀ first ∈ Scan.symbols, ∀ second ∈ Scan.symbols,
      first.1 = second.1 → first.2 = second.2 := by
  decide

/-- A well spelled symbol is the listed one of its text. -/
theorem is_of_isSymbol
    {kind : TokenKind}
    {text : String}
    {token : Token}
    (known : (text.toList, kind) ∈ Scan.symbols)
    (spelled : token.WellSpelled)
    (symbol : token.isSymbol text = true) :
    Is kind text token := by
  obtain ⟨isSymbol, sameText⟩ := (Bool.and_eq_true ..).mp symbol
  have listed := spelled isSymbol
  rw [eq_of_beq sameText] at listed
  exact ⟨symbols_functional _ listed _ known rfl, eq_of_beq sameText⟩

/-- A token of a class of symbols is the symbol that it spells. -/
theorem Is.isSymbol
    {kind : TokenKind}
    {text : String}
    {token : Token}
    (is : Is kind text token)
    (symbol : kind.isSymbol = true) :
    token.isSymbol text = true := by
  rw [Token.isSymbol, is.kind, symbol, is.text, beq_self_eq_true]
  rfl

/-- All operators stand in the table of symbols. -/
theorem operator_listed (operator : Operator) :
    (operator.symbol.toList, tokenKind operator) ∈ Scan.symbols := by
  rcases operator with operator | operator <;> cases operator <;> decide

/-- Every operator is found by its symbol. -/
theorem ofSymbol?_symbol (operator : Operator) :
    Operator.ofSymbol? operator.symbol = some operator := by
  rcases operator with operator | operator <;> cases operator <;> decide

/-- An operator is found by its own symbol only. -/
theorem symbol_of_ofSymbol?
    {text : String}
    {operator : Operator}
    (found : Operator.ofSymbol? text = some operator) :
    operator.symbol = text := by
  have same := List.find?_some found
  exact eq_of_beq same

/-- A token that spells an operator is read as this operator. -/
theorem operatorOf?_of_is
    {token : Token}
    {operator : Operator}
    (is : Is (tokenKind operator) operator.symbol token) :
    Cursor.operatorOf? token = some operator := by
  have isOperator : token.kind = .arithmetic ∨ token.kind = .boolean := by
    rw [is.kind]
    cases operator with
    | arithmetic =>
        exact .inl rfl
    | boolean =>
        exact .inr rfl
  unfold Cursor.operatorOf?
  rw [if_pos isOperator, is.text, ofSymbol?_symbol]

/-- The operator of a well spelled token is the one that it spells. -/
theorem is_of_operatorOf?
    {token : Token}
    {operator : Operator}
    (spelled : token.WellSpelled)
    (found : Cursor.operatorOf? token = some operator) :
    Is (tokenKind operator) operator.symbol token := by
  unfold Cursor.operatorOf? at found
  split at found
  · rename_i isOperator
    have isSymbol : token.isSymbol operator.symbol = true := by
      rw [Token.isSymbol, symbol_of_ofSymbol? found, beq_self_eq_true,
        Bool.and_true]
      rcases isOperator with arithmetic | boolean
      · rw [arithmetic]
        rfl
      · rw [boolean]
        rfl
    exact is_of_isSymbol (operator_listed operator) spelled isSymbol
  · cases found

end Grammar

end PixelBrush
