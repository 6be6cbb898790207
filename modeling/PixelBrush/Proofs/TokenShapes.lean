import PixelBrush.Proofs.ScannedMarks
import PixelBrush.Proofs.TokenPlaces

namespace PixelBrush

/-!
# The shapes of tokens

A scanned token has one of four shapes: a text without quotes and line breaks, a
number that can be read, a word, or a symbol of the table.  The shape says which
characters a token is spelled with, and a token of any shape is read again when
it stands between a space and a separator.
-/

namespace Scan

/-- What the text of a token of a class looks like. -/
inductive Shaped : TokenKind → String → Prop where
  | text
      {value : String}
      (plain : IsPlain value) :
      Shaped .text value
  | number
      {sign digits : List Char}
      {value : Number}
      (isSign : sign = [] ∨ sign = ['-'])
      (nonempty : digits ≠ [])
      (allDigits : ∀ character ∈ digits, character.isDigit = true)
      (read : Number.read? (sign ++ digits) = some value) :
      Shaped .number (String.ofList (sign ++ digits))
  | word
      {name : String}
      (isWord : IsWord name) :
      Shaped (wordKind name) name
  | symbol
      {kind : TokenKind}
      {shape : String}
      (listed : (shape.toList, kind) ∈ symbols) :
      Shaped kind shape

variable
  {characters : List Char}
  {result : Piece}

/-- What is read as a text looks like one. -/
theorem text_shaped
    (read : text characters = .ok result) :
    Shaped result.kind result.lexeme := by
  unfold text at read
  dsimp only at read
  split at read
  · cases read
    have inside :
        ∀ character ∈ characters.takeWhile (fun character =>
            character != '"' && character != '\n'),
          character ≠ '"' ∧ character ≠ '\n' := by
      intro character member
      have accepted := List.all_eq_true.mp List.all_takeWhile character member
      obtain ⟨notQuote, notBreak⟩ := (Bool.and_eq_true ..).mp accepted
      exact ⟨bne_iff_ne.mp notQuote, bne_iff_ne.mp notBreak⟩
    refine .text ⟨?_, ?_⟩
    · rw [String.toList_ofList]
      exact fun member => (inside '"' member).1 rfl
    · rw [String.toList_ofList]
      exact fun member => (inside '\n' member).2 rfl
  · cases read

/-- Without digits there is no number. -/
theorem read?_sign
    {sign : List Char}
    (isSign : sign = [] ∨ sign = ['-']) :
    Number.read? sign = none := by
  rcases isSign with rfl | rfl
  · rfl
  · rfl

/-- What is read as a number looks like one. -/
theorem number_shaped
    {sign : List Char}
    (isSign : sign = [] ∨ sign = ['-'])
    (read : number sign characters = .ok result) :
    Shaped result.kind result.lexeme := by
  unfold number at read
  dsimp only at read
  split at read
  · cases read
  · split at read
    · cases read
    · rename_i readable
      cases read
      rw [Option.isNone_iff_eq_none, ← ne_eq,
        Option.ne_none_iff_exists'] at readable
      obtain ⟨value, isValue⟩ := readable
      refine .number isSign ?_ (List.all_eq_true.mp List.all_takeWhile) isValue
      intro noDigits
      rw [noDigits, List.append_nil, read?_sign isSign] at isValue
      cases isValue

/-- Letters make words. -/
theorem isWordCharacter_of_isAlpha
    {character : Char}
    (isAlpha : character.isAlpha = true) :
    isWordCharacter character = true :=
  (Bool.or_eq_true ..).mpr (.inl ((Bool.or_eq_true ..).mpr (.inl isAlpha)))

/-- What is read as a word from a letter on looks like one. -/
theorem word_shaped
    {first : Char}
    (isAlpha : first.isAlpha = true) :
    Shaped (word (first :: characters)).kind
      (word (first :: characters)).lexeme := by
  have accepted : isWordCharacter first = true :=
    isWordCharacter_of_isAlpha isAlpha
  refine .word ⟨⟨first, ?_, isAlpha⟩, ?_⟩
  · rw [String.toList_ofList, List.takeWhile_cons_of_pos accepted]
    rfl
  · rw [String.toList_ofList]
    exact List.all_takeWhile

/-- Whatever is read has one of the four shapes. -/
theorem Reads.shaped
    {first : Char}
    (reads : Reads first characters result) :
    Shaped result.kind result.lexeme := by
  cases reads with
  | text read =>
      exact text_shaped read
  | number isSign _ read =>
      exact number_shaped isSign read
  | word isAlpha =>
      exact word_shaped isAlpha
  | symbol read =>
      exact .symbol (symbol_listed read)

/-- All scanned tokens look like their classes. -/
theorem tokens_shaped
    {previous : Option Char}
    {location : Location}
    {nesting : Nesting}
    {scanned : List Token}
    (read : tokens previous location nesting characters = .ok scanned) :
    ∀ token ∈ scanned, Shaped token.kind token.lexeme :=
  forall_mem_tokens Shaped Reads.shaped read

/-! ## The characters of a shape -/

/-- A literal has only digits and perhaps a hyphen. -/
theorem mem_literal
    {sign digits : List Char}
    (isSign : sign = [] ∨ sign = ['-'])
    (allDigits : ∀ character ∈ digits, character.isDigit = true) :
    ∀ character ∈ sign ++ digits,
      character = '-' ∨ character.isDigit = true := by
  intro character member
  rcases List.mem_append.mp member with inSign | inDigits
  · rcases isSign with rfl | rfl
    · cases inSign
    · exact .inl (List.mem_singleton.mp inSign)
  · exact .inr (allDigits character inDigits)

/-- A literal has no letters. -/
theorem noLetter_of_literal
    {sign digits : List Char}
    (isSign : sign = [] ∨ sign = ['-'])
    (allDigits : ∀ character ∈ digits, character.isDigit = true) :
    ∀ character ∈ sign ++ digits, character.isAlpha = false := by
  intro character member
  rw [Bool.eq_false_iff]
  intro isAlpha
  rcases mem_literal isSign allDigits character member with rfl | isDigit
  · cases isAlpha
  · rw [isDigit_of_isAlpha isAlpha] at isDigit
    cases isDigit

/-- No listed symbol has a letter. -/
theorem noLetter_of_listed
    {spelling : List Char}
    {kind : TokenKind}
    (listed : (spelling, kind) ∈ symbols) :
    ∀ character ∈ spelling, character.isAlpha = false := by
  have noLetters :
      ∀ entry ∈ symbols,
        entry.1.all (fun character => !character.isAlpha) = true := by
    decide
  intro character member
  exact (Bool.not_eq_true' _).mp
    (List.all_eq_true.mp (noLetters _ listed) character member)

namespace Shaped

variable
  {kind : TokenKind}
  {lexeme : String}

/-- No token has a quote or a line break in its text. -/
theorem isPlain
    (shaped : Shaped kind lexeme) :
    IsPlain lexeme := by
  cases shaped with
  | text plain =>
      exact plain
  | number isSign _ allDigits _ =>
      have characters := mem_literal isSign allDigits
      constructor
      · rw [String.toList_ofList]
        exact fun member => absurd (characters '"' member) (by decide)
      · rw [String.toList_ofList]
        exact fun member => absurd (characters '\n' member) (by decide)
  | word isWord =>
      have characters := List.all_eq_true.mp isWord.continues
      exact ⟨fun member => absurd (characters '"' member) (by decide),
        fun member => absurd (characters '\n' member) (by decide)⟩
  | symbol listed =>
      have plain : ∀ entry ∈ symbols, '"' ∉ entry.1 ∧ '\n' ∉ entry.1 := by
        decide
      obtain ⟨unquoted, oneLine⟩ := plain _ listed
      exact ⟨unquoted, oneLine⟩

/-- No token is spelled with a line break. -/
theorem spelling_oneLine
    (shaped : Shaped kind lexeme)
    (location : Location) :
    '\n' ∉ Token.spelling ⟨kind, lexeme, location⟩ := by
  have plain := shaped.isPlain
  unfold Token.spelling
  split
  · intro member
    have inside : '\n' ∈ lexeme.toList := by
      simpa using member
    exact plain.oneLine inside
  · exact plain.oneLine

/-- A token of any shape is read again between a space and a separator. -/
theorem readsAs
    (shaped : Shaped kind lexeme)
    {rest : List Char}
    (separated : Separated rest)
    (location : Location) :
    ReadsAs (some ' ') (Token.spelling ⟨kind, lexeme, location⟩) kind
      lexeme rest := by
  cases shaped with
  | text plain =>
      exact readsAs_text plain
  | number isSign nonempty allDigits read =>
      rw [Token.spelling_of_ne_text (by decide), String.toList_ofList]
      exact readsAs_literal isSign nonempty allDigits read rfl separated
  | word isWord =>
      rw [Token.spelling_of_ne_text (wordKind_ne_text lexeme)]
      exact readsAs_word isWord (separated.refuses isWordCharacter rfl)
  | symbol listed =>
      rw [Token.spelling_of_ne_text (ne_text_of_listed listed)]
      exact readsAs_symbol listed separated

end Shaped

end Scan

end PixelBrush
