import Mathlib.Data.List.Chain
import Mathlib.Data.List.Find
import PixelBrush.Proofs.Printing
import PixelBrush.Proofs.ScannedTokens

namespace PixelBrush

/-!
# Scanning printed text

Printed text is scanned mark by mark.  A mark is read as it was meant when the
character before it and the character after it do not run into it, which spaces,
line ends and punctuation see to.  So a list of marks in which no two neighbours
run into each other is scanned back to its tokens, provided its parentheses and
brackets are balanced.
-/

namespace Number

/-- A number is written in digits. -/
theorem isDigit_of_mem_toDigits (value : Nat) :
    ∀ digit ∈ Nat.toDigits 10 value, digit.isDigit = true :=
  fun _ member => Nat.isDigit_of_mem_toDigits (by decide) (by decide) member

/-- It is written with at least one of them. -/
theorem toDigits_starts (value : Nat) :
    ∃ first others,
      Nat.toDigits 10 value = first :: others ∧ first.isDigit = true := by
  cases digits : Nat.toDigits 10 value with
  | nil =>
      exact (Nat.toDigits_ne_nil digits).elim
  | cons first others =>
      exact ⟨first, others, rfl,
        isDigit_of_mem_toDigits value first (digits ▸ List.mem_cons_self)⟩

/-- The digits of a number are read as this number. -/
theorem magnitude?_toDigits (value : Nat) :
    magnitude? (Nat.toDigits 10 value) = some value := by
  have allDigits : (Nat.toDigits 10 value).all Char.isDigit = true :=
    List.all_eq_true.mpr (isDigit_of_mem_toDigits value)
  have nonempty : (Nat.toDigits 10 value).isEmpty = false :=
    List.isEmpty_eq_false_iff.mpr Nat.toDigits_ne_nil
  rw [magnitude?, nonempty, allDigits]
  exact congrArg some (Nat.ofDigitChars_toDigits (by decide) (by decide))

/-- The printed digits of a number, after a hyphen where it is negative. -/
theorem toList_toString (value : Number) :
    (toString value.toInt).toList =
      if 0 ≤ value.toInt then
        Nat.toDigits 10 value.toInt.toNat
      else
        '-' :: Nat.toDigits 10 (-value.toInt).toNat := by
  rw [Int.toString_eq_repr, Int.repr_eq_if]
  split
  · exact Nat.toList_repr
  · rw [String.toList_append, Nat.toList_repr]
    rfl

/-- A literal that starts with a digit has no sign. -/
theorem read?_of_isDigit
    {first : Char}
    {others : List Char}
    (isDigit : first.isDigit = true) :
    read? (first :: others) = (magnitude? (first :: others)).bind fun value =>
      ofInt? value := by
  unfold read?
  split
  · rename_i same
    cases same
    cases isDigit
  · rename_i same
    cases same
    cases isDigit
  · rfl

/-- A printed number is read back. -/
theorem read?_toString (value : Number) :
    read? (toString value.toInt).toList = some value := by
  rw [toList_toString]
  split
  · rename_i positive
    obtain ⟨first, others, digits, isDigit⟩ := toDigits_starts value.toInt.toNat
    rw [digits, read?_of_isDigit isDigit, ← digits, magnitude?_toDigits]
    exact ofInt?_eq_some_iff.mpr (Int.toNat_of_nonneg positive).symm
  · rename_i negative
    show (magnitude? _).bind _ = _
    rw [magnitude?_toDigits]
    apply ofInt?_eq_some_iff.mpr
    omega

end Number

namespace Mark

/-- The class and the text of the token of a mark; blanks have none. -/
def token? : Mark → Option (TokenKind × String)
  | .word name => some (Scan.wordKind name, name)
  | .number value => some (.number, toString value.toInt)
  | .text value => some (.text, value)
  | .symbol kind shape => some (kind, shape)
  | .space | .lineBreak => none

/-- A mark that can be scanned. -/
def WellFormed : Mark → Prop
  | .word name => IsWord name
  | .text value => IsPlain value
  | .symbol kind shape => (shape.toList, kind) ∈ Scan.symbols
  | .number _ | .space | .lineBreak => True

/-- After the first mark the second one starts afresh. -/
def opens : Mark → Mark → Bool
  | .space, _ => true
  | .lineBreak, .word _ => true
  | .symbol _ shape, _ => shape == "(" || shape == "["
  | _, _ => false

/-- A mark that ends whatever stands before it. -/
def closes : Mark → Bool
  | .space | .lineBreak => true
  | .symbol kind _ => kind == .punctuation
  | _ => false

/-- The second mark can stand right after the first. -/
def Joins (first second : Mark) : Prop :=
  first.opens second = true ∨ second.closes = true

end Mark

/-- The tokens of marks, in their places. -/
def place (location : Location) : List Mark → List Token
  | [] => []
  | mark :: others =>
      let after := place (location.advanceOver mark.spelling) others
      match mark.token? with
      | some (kind, lexeme) => ⟨kind, lexeme, location⟩ :: after
      | none => after

namespace Scan

/-- The characters that end a word, a number or an operator in printed text. -/
def separators : List Char :=
  [' ', '\n', '(', ')', '[', ']', ',']

/-- The text goes on with a separator, or ends. -/
def Separated (characters : List Char) : Prop :=
  ∀ character ∈ characters.head?, character ∈ separators

/-- The characters are one token, after which the rest is left. -/
def ReadsAs
    (previous : Option Char)
    (spelling : List Char)
    (kind : TokenKind)
    (lexeme : String)
    (rest : List Char) :
    Prop :=
  ∃ first others,
    spelling = first :: others ∧
      isBlank first = false ∧
        piece previous first (others ++ rest) = .ok ⟨kind, lexeme, rest⟩

variable
  {previous : Option Char}
  {character : Char}
  {rest : List Char}

section Characters

/-- The codes of the letters. -/
theorem toNat_of_isAlpha
    (isAlpha : character.isAlpha = true) :
    65 ≤ character.toNat ∧ character.toNat ≤ 90 ∨
      97 ≤ character.toNat ∧ character.toNat ≤ 122 := by
  rcases (Bool.or_eq_true ..).mp isAlpha with upper | lower
  · have bounds : 'A'.val ≤ character.val ∧ character.val ≤ 'Z'.val :=
      of_decide_eq_true upper
    exact .inl
      ⟨UInt32.le_iff_toNat_le.mp bounds.1, UInt32.le_iff_toNat_le.mp bounds.2⟩
  · obtain ⟨low, high⟩ := (Bool.and_eq_true ..).mp lower
    exact .inr ⟨UInt32.le_iff_toNat_le.mp (of_decide_eq_true low),
      UInt32.le_iff_toNat_le.mp (of_decide_eq_true high)⟩

/-- The codes of the digits. -/
theorem toNat_of_isDigit
    (isDigit : character.isDigit = true) :
    48 ≤ character.toNat ∧ character.toNat ≤ 57 :=
  Char.isDigit_iff_toNat.mp isDigit

/-- No character between the first blanks and those beyond ASCII is blank. -/
theorem isBlank_eq_false
    (low : 32 < character.toNat)
    (high : character.toNat < 133) :
    isBlank character = false := by
  simp only [isBlank, blankRanges, List.any_cons, List.any_nil,
    Bool.or_eq_false_iff, Bool.and_eq_false_iff, decide_eq_false_iff_not,
    and_true]
  omega

/-- No digit is blank. -/
theorem isBlank_of_isDigit
    (isDigit : character.isDigit = true) :
    isBlank character = false := by
  have range := toNat_of_isDigit isDigit
  exact isBlank_eq_false (by omega) (by omega)

/-- No letter is blank. -/
theorem isBlank_of_isAlpha
    (isAlpha : character.isAlpha = true) :
    isBlank character = false := by
  have range := toNat_of_isAlpha isAlpha
  exact isBlank_eq_false (by omega) (by omega)

/-- No letter is a digit. -/
theorem isDigit_of_isAlpha
    (isAlpha : character.isAlpha = true) :
    character.isDigit = false := by
  rw [Bool.eq_false_iff]
  intro isDigit
  have digits := toNat_of_isDigit isDigit
  have letters := toNat_of_isAlpha isAlpha
  omega

end Characters

section Runs

variable {accepts : Char → Bool}

/-- A separated text goes on with nothing that no separator is. -/
theorem Separated.refuses
    (accepts : Char → Bool)
    (separated : Separated rest)
    (refuses : separators.any accepts = false) :
    ∀ character ∈ rest.head?, accepts character = false :=
  fun character isHead =>
    Bool.eq_false_iff.mpr
      (List.any_eq_false.mp refuses character (separated character isHead))

/-- A text that goes on with no accepted character passes the test for none. -/
theorem any_head?_eq_false
    (refuses : ∀ character ∈ rest.head?, accepts character = false) :
    rest.head?.any accepts = false := by
  cases rest with
  | nil =>
      rfl
  | cons first others =>
      exact refuses first rfl

/-- A run of characters is taken up to where it ends. -/
theorem takeWhile_run
    {run : List Char}
    (all : ∀ character ∈ run, accepts character = true)
    (ends : ∀ character ∈ rest.head?, accepts character = false) :
    (run ++ rest).takeWhile accepts = run := by
  rw [List.takeWhile_append_of_pos all]
  cases rest with
  | nil =>
      exact List.append_nil run
  | cons first others =>
      rw [List.takeWhile_cons_of_neg (Bool.eq_false_iff.mp (ends first rfl)),
        List.append_nil]

/-- Dropping accepted characters drops a run of them that ends. -/
theorem dropWhile_run
    {run : List Char}
    (all : ∀ character ∈ run, accepts character = true)
    (ends : ∀ character ∈ rest.head?, accepts character = false) :
    (run ++ rest).dropWhile accepts = rest := by
  rw [List.dropWhile_append_of_pos all]
  cases rest with
  | nil =>
      rfl
  | cons first others =>
      rw [List.dropWhile_cons_of_neg (Bool.eq_false_iff.mp (ends first rfl))]

end Runs

/-! ## One lemma for each kind of token -/

/-- A text between quotes is read as a string literal. -/
theorem readsAs_text
    {value : String}
    (plain : IsPlain value) :
    ReadsAs previous ('"' :: (value.toList ++ ['"'])) .text value rest := by
  refine ⟨'"', value.toList ++ ['"'], rfl, by decide, ?_⟩
  have inside :
      (value.toList ++ '"' :: rest).takeWhile
        (fun character => character != '"' && character != '\n') =
          value.toList := by
    apply takeWhile_run
    · intro character member
      have notQuote : character ≠ '"' :=
        fun same => plain.unquoted (same ▸ member)
      have notBreak : character ≠ '\n' :=
        fun same => plain.oneLine (same ▸ member)
      simp [notQuote, notBreak]
    · intro character isHead
      cases isHead
      rfl
  rw [List.append_assoc, List.singleton_append, piece, if_pos rfl, text]
  simp only [inside, List.drop_left, String.ofList_toList]

/-- A word that ends is read as a whole, with the class of its text. -/
theorem readsAs_word
    {name : String}
    (isWord : IsWord name)
    (ends : ∀ character ∈ rest.head?, isWordCharacter character = false) :
    ReadsAs previous name.toList (wordKind name) name rest := by
  obtain ⟨first, isHead, isAlpha⟩ := isWord.starts
  obtain ⟨others, shape⟩ := List.head?_eq_some_iff.mp isHead
  have all : ∀ character ∈ name.toList, isWordCharacter character = true :=
    List.all_eq_true.mp isWord.continues
  refine ⟨first, others, shape, isBlank_of_isAlpha isAlpha, ?_⟩
  have notQuote : first ≠ '"' := by
    intro same
    rw [same] at isAlpha
    cases isAlpha
  rw [piece, if_neg notQuote, isDigit_of_isAlpha isAlpha, if_neg nofun,
    if_pos isAlpha, ← List.cons_append, ← shape, word, takeWhile_run all ends,
    dropWhile_run all ends, String.ofList_toList]

/--
Digits that end at a separator are read as a number, if they have a value.
-/
theorem number_run
    (sign : List Char)
    {digits : List Char}
    {value : Number}
    (allDigits : ∀ character ∈ digits, character.isDigit = true)
    (read : Number.read? (sign ++ digits) = some value)
    (separated : Separated rest) :
    number sign (digits ++ rest) =
      .ok ⟨.number, String.ofList (sign ++ digits), rest⟩ := by
  have ends := separated.refuses Char.isDigit rfl
  have glues := any_head?_eq_false (separated.refuses gluesToNumber rfl)
  unfold number
  simp only [takeWhile_run allDigits ends, dropWhile_run allDigits ends, glues,
    read]
  rfl

/--
A literal before a separator is read, unless an operand before it claims its
hyphen.
-/
theorem readsAs_literal
    {sign digits : List Char}
    {value : Number}
    (isSign : sign = [] ∨ sign = ['-'])
    (nonempty : digits ≠ [])
    (allDigits : ∀ character ∈ digits, character.isDigit = true)
    (read : Number.read? (sign ++ digits) = some value)
    (free : previous.any endsOperand = false)
    (separated : Separated rest) :
    ReadsAs previous (sign ++ digits) .number
      (String.ofList (sign ++ digits)) rest := by
  have literal := number_run sign allDigits read separated
  obtain ⟨first, others, rfl⟩ := List.exists_cons_of_ne_nil nonempty
  have isDigit : first.isDigit = true := allDigits first List.mem_cons_self
  rcases isSign with rfl | rfl
  · have notQuote : first ≠ '"' := by
      rintro rfl
      cases isDigit
    refine ⟨first, others, rfl, isBlank_of_isDigit isDigit, ?_⟩
    rw [piece, if_neg notQuote, if_pos isDigit]
    exact literal
  · refine ⟨'-', first :: others, rfl, by decide, ?_⟩
    have startsWithDigit :
        (first :: others ++ rest).head?.any Char.isDigit = true :=
      isDigit
    show hyphen previous _ = _
    rw [hyphen, free, if_neg nofun, startsWithDigit, if_pos rfl, literal]

/--
A printed number is read as one where the character before it ends no operand,
so that its hyphen is a sign.
-/
theorem readsAs_number
    (value : Number)
    (free : previous.any endsOperand = false)
    (separated : Separated rest) :
    ReadsAs previous (toString value.toInt).toList .number
      (toString value.toInt) rest := by
  have read := Number.read?_toString value
  have same :
      String.ofList (toString value.toInt).toList = toString value.toInt :=
    String.ofList_toList
  rw [Number.toList_toString] at read same ⊢
  rw [← same]
  split at read
  · rename_i positive
    rw [if_pos positive]
    exact readsAs_literal (.inl rfl) Nat.toDigits_ne_nil
      (Number.isDigit_of_mem_toDigits _) read free separated
  · rename_i negative
    rw [if_neg negative]
    exact readsAs_literal (.inr rfl) Nat.toDigits_ne_nil
      (Number.isDigit_of_mem_toDigits _) read free separated

/-- A hyphen before a separator is an operator. -/
theorem hyphen_of_separated
    (separated : Separated rest) :
    hyphen previous rest = symbol '-' rest := by
  have noDigit := any_head?_eq_false (separated.refuses Char.isDigit rfl)
  have noLetter := any_head?_eq_false (separated.refuses Char.isAlpha rfl)
  rw [hyphen, noDigit, noLetter]
  split <;> rfl

/--
Symbols are told from digits, letters, quotes and blanks by their first
character.
-/
theorem symbol_starts
    {spelling : List Char}
    {kind : TokenKind}
    (listed : (spelling, kind) ∈ symbols) :
    ∃ first others,
      spelling = first :: others ∧
        isBlank first = false ∧
          first ≠ '"' ∧
            first.isDigit = false ∧
              first.isAlpha = false ∧ (first = '-' → others = []) := by
  simp only [symbols, List.mem_cons, Prod.mk.injEq, List.not_mem_nil,
    or_false] at listed
  rcases listed with
    h | h | h | h | h | h | h | h | h | h | h | h | h | h | h | h | h |
    h | h | h <;> exact ⟨_, _, h.1, by decide⟩

/-- Before a separator, only what starts the symbol itself starts the text. -/
theorem isPrefixOf_symbol
    {spelling : List Char}
    {kind : TokenKind}
    {entry : List Char × TokenKind}
    (listed : (spelling, kind) ∈ symbols)
    (other : entry ∈ symbols)
    (separated : Separated rest) :
    entry.1.isPrefixOf (spelling ++ rest) = entry.1.isPrefixOf spelling := by
  have alone :
      ∀ entry ∈ symbols,
        entry.1.any separators.contains = true → entry.1.length = 1 := by
    decide
  rw [Bool.eq_iff_iff, List.isPrefixOf_iff_prefix, List.isPrefixOf_iff_prefix]
  constructor
  · intro starts
    rcases List.prefix_or_prefix_of_prefix starts
      (List.prefix_append spelling rest) with
      inside | beyond
    · exact inside
    · obtain ⟨more, whole⟩ := beyond
      rw [← whole] at starts ⊢
      cases more with
      | nil =>
          exact ⟨[], by rw [List.append_nil, List.append_nil]⟩
      | cons next others =>
          -- The longer symbol would contain a separator and more.
          obtain ⟨tail, shape⟩ :=
            (List.prefix_append_right_inj spelling).mp starts
          have isSeparator : next ∈ separators := by
            apply separated
            rw [← shape]
            rfl
          have isMember : next ∈ entry.1 := by
            rw [← whole]
            exact List.mem_append_right spelling List.mem_cons_self
          have single := alone entry other
            (List.any_eq_true.mpr
              ⟨next, isMember, List.contains_iff_mem.mpr isSeparator⟩)
          obtain ⟨first, _, nonempty, _⟩ := symbol_starts listed
          rw [← whole, nonempty] at single
          simp at single
  · intro inside
    exact inside.trans (List.prefix_append spelling rest)

/-- A symbol before a separator is not taken for the start of a longer one. -/
theorem find?_symbols
    {spelling : List Char}
    {kind : TokenKind}
    (listed : (spelling, kind) ∈ symbols)
    (separated : Separated rest) :
    symbols.find? (fun entry => entry.1.isPrefixOf (spelling ++ rest)) =
      some (spelling, kind) := by
  have first :
      ∀ entry ∈ symbols,
        symbols.find? (fun other => other.1.isPrefixOf entry.1) =
          some entry := by
    decide
  rw [List.find?_congr fun entry other =>
    isPrefixOf_symbol listed other separated]
  exact first (spelling, kind) listed

/-- A listed symbol before a separator is read as a whole. -/
theorem readsAs_symbol
    {kind : TokenKind}
    {shape : String}
    (listed : (shape.toList, kind) ∈ symbols)
    (separated : Separated rest) :
    ReadsAs previous shape.toList kind shape rest := by
  obtain ⟨first, others, starts, notBlank, notQuote, notDigit, notAlpha,
    single⟩ :=
    symbol_starts listed
  have read : symbol first (others ++ rest) = .ok ⟨kind, shape, rest⟩ := by
    have found := find?_symbols listed separated
    rw [symbol, ← List.cons_append, ← starts, found]
    simp only [String.ofList_toList, List.drop_left]
  refine ⟨first, others, starts, notBlank, ?_⟩
  rw [piece, if_neg notQuote, notDigit, if_neg nofun, notAlpha, if_neg nofun]
  split
  · rename_i isHyphen
    -- A hyphen is a symbol of its own, so it is followed by the separator.
    rw [single isHyphen, List.nil_append, isHyphen] at read
    rw [single isHyphen, List.nil_append, hyphen_of_separated separated, read]
  · exact read

/-- After an opening parenthesis or bracket anything may follow. -/
theorem readsAs_opening
    {kind : TokenKind}
    {shape : String}
    (listed : (shape.toList, kind) ∈ symbols)
    (opens : shape = "(" ∨ shape = "[") :
    ReadsAs previous shape.toList kind shape rest := by
  rcases opens with rfl | rfl
  · cases Grammar.symbols_functional _ listed ("(".toList, .punctuation)
      (by decide) rfl
    exact ⟨'(', [], rfl, by decide, rfl⟩
  · cases Grammar.symbols_functional _ listed ("[".toList, .punctuation)
      (by decide) rfl
    exact ⟨'[', [], rfl, by decide, rfl⟩

/-- A line may start with a word. -/
theorem opensLineBadly_of_isWord
    {name : String}
    (isWord : IsWord name) :
    ∀ character ∈ (name.toList ++ rest).head?,
      opensLineBadly character = false := by
  obtain ⟨first, isHead, isAlpha⟩ := isWord.starts
  obtain ⟨others, shape⟩ := List.head?_eq_some_iff.mp isHead
  rw [shape]
  intro character same
  cases same
  have notHyphen : (first == '-') = false := by
    apply beq_false_of_ne
    rintro rfl
    cases isAlpha
  rw [opensLineBadly, notHyphen, isDigit_of_isAlpha isAlpha]
  rfl

/-! ## Steps of the scanner -/

section Steps

variable
  {location : Location}
  {nesting after : Nesting}

/-- A blank is passed over. -/
theorem tokens_blank
    (isBlank : isBlank character = true)
    (startsWell : badLineStart? character rest = none) :
    tokens previous location nesting (character :: rest) =
      tokens (some character) (location.advance character) nesting rest := by
  rw [tokens, if_pos isBlank]
  simp only [startsWell]

/-- A token that is read comes first in the scan, which goes on after it. -/
theorem tokens_token
    {spelling : List Char}
    {kind : TokenKind}
    {lexeme : String}
    (reads : ReadsAs previous spelling kind lexeme rest)
    (spelled : Token.spelling ⟨kind, lexeme, location⟩ = spelling)
    (nested : nesting.after ⟨kind, lexeme, location⟩ = .ok after) :
    tokens previous location nesting (spelling ++ rest) =
      (tokens spelling.getLast? (location.advanceOver spelling) after rest).map
        (⟨kind, lexeme, location⟩ :: ·) := by
  obtain ⟨first, others, rfl, notBlank, read⟩ := reads
  rw [List.cons_append, tokens, notBlank, if_neg Bool.false_ne_true]
  split
  · rename_i refused
    cases refused.symm.trans read
  · rename_i accepted
    cases accepted.symm.trans read
    simp only [nested, spelled]

end Steps

end Scan

namespace Mark

open Scan

variable
  {mark first second : Mark}
  {previous : Option Char}
  {rest : List Char}

/-- The character before a mark does not change what it is. -/
def StartsAfter (previous : Option Char) : Mark → Prop
  | .number _ => previous.any endsOperand = false
  | _ => True

/-- The characters after a mark do not run into it. -/
def EndsBefore (rest : List Char) : Mark → Prop
  | .word _ | .number _ => Separated rest
  | .symbol _ shape => (shape = "(" ∨ shape = "[") ∨ Separated rest
  | .lineBreak => ∀ character ∈ rest.head?, opensLineBadly character = false
  | .text _ | .space => True

/-- A mark is scanned as the token it stands for. -/
theorem readsAs
    {kind : TokenKind}
    {lexeme : String}
    (wellFormed : mark.WellFormed)
    (starts : mark.StartsAfter previous)
    (ends : mark.EndsBefore rest)
    (token : mark.token? = some (kind, lexeme)) :
    ReadsAs previous mark.spelling kind lexeme rest := by
  cases mark with
  | word name =>
      cases token
      exact readsAs_word wellFormed (Separated.refuses isWordCharacter ends rfl)
  | number value =>
      cases token
      exact readsAs_number value starts ends
  | text value =>
      cases token
      exact readsAs_text wellFormed
  | symbol kind shape =>
      cases token
      rcases ends with opens | separated
      · exact readsAs_opening wellFormed opens
      · exact readsAs_symbol wellFormed separated
  | space | lineBreak =>
      cases token

/-- Nothing runs into a mark at the end of a text. -/
theorem endsBefore_nil (mark : Mark) :
    mark.EndsBefore [] := by
  cases mark with
  | symbol =>
      exact .inr nofun
  | word | number | lineBreak =>
      exact nofun
  | text | space =>
      trivial

/-- A mark without a token is a blank that is passed over. -/
theorem blank_of_token
    (ends : mark.EndsBefore rest)
    (token : mark.token? = none) :
    ∃ blank,
      mark.spelling = [blank] ∧
        isBlank blank = true ∧ badLineStart? blank rest = none := by
  cases mark with
  | space =>
      exact ⟨' ', rfl, by decide, rfl⟩
  | lineBreak =>
      refine ⟨'\n', rfl, by decide, ?_⟩
      rw [badLineStart?, if_pos rfl, Option.filter_eq_none_iff]
      intro character isHead
      rw [ends character isHead]
      nofun
  | word | number | text | symbol =>
      cases token

/-- What starts with a closing mark is separated. -/
theorem separated_of_closes
    (wellFormed : mark.WellFormed)
    (closes : mark.closes = true) :
    Separated (mark.spelling ++ rest) := by
  cases mark with
  | symbol kind shape =>
      have starts :
          ∀ entry ∈ symbols, entry.2 = .punctuation →
            entry.1.head?.any separators.contains = true := by
        decide
      have isSeparator := starts _ wellFormed (eq_of_beq closes)
      intro character isHead
      cases shapes : shape.toList with
      | nil =>
          rw [shapes] at isSeparator
          cases isSeparator
      | cons first others =>
          rw [shapes] at isSeparator
          rw [spelling, shapes] at isHead
          cases isHead
          exact List.contains_iff_mem.mp isSeparator
  | space | lineBreak =>
      intro character isHead
      cases isHead
      decide
  | word | number | text =>
      cases closes

/-- Marks that can stand side by side do not run into each other. -/
theorem Joins.endsBefore
    (joins : first.Joins second)
    (wellFormed : second.WellFormed) :
    first.EndsBefore (second.spelling ++ rest) := by
  rcases joins with opens | closes
  · cases first with
    | space =>
        trivial
    | symbol kind shape =>
        left
        simpa [Mark.opens] using opens
    | lineBreak =>
        cases second with
        | word name =>
            exact opensLineBadly_of_isWord wellFormed
        | number | text | symbol | space | lineBreak =>
            cases opens
    | word | number | text =>
        cases opens
  · have separated : Separated (second.spelling ++ rest) :=
      separated_of_closes wellFormed closes
    cases first with
    | word | number =>
        exact separated
    | symbol =>
        exact .inr separated
    | lineBreak =>
        exact separated.refuses opensLineBadly rfl
    | text | space =>
        trivial

/-- A mark is not changed by the end of a mark that it can stand after. -/
theorem Joins.startsAfter
    (joins : first.Joins second) :
    second.StartsAfter first.spelling.getLast? := by
  cases second with
  | number value =>
      rcases joins with opens | closes
      · cases first with
        | space =>
            rfl
        | symbol kind shape =>
            have opening : shape = "(" ∨ shape = "[" := by
              simpa [Mark.opens] using opens
            rcases opening with rfl | rfl <;> rfl
        | lineBreak | word | number | text =>
            cases opens
      · cases closes
  | word | text | symbol | space | lineBreak =>
      trivial

/-- The token of a mark is spelled as the mark. -/
theorem spelling_of_token
    {kind : TokenKind}
    {lexeme : String}
    (wellFormed : mark.WellFormed)
    (token : mark.token? = some (kind, lexeme))
    (location : Location) :
    Token.spelling ⟨kind, lexeme, location⟩ = mark.spelling := by
  cases mark with
  | word name =>
      cases token
      exact Token.spelling_of_ne_text (wordKind_ne_text _) ..
  | number | text =>
      cases token
      rfl
  | symbol kind shape =>
      cases token
      exact Token.spelling_of_ne_text (ne_text_of_listed wellFormed) ..
  | space | lineBreak =>
      cases token

end Mark

/-- The nesting after tokens. -/
def Scan.Nesting.afterAll
    (nesting : Nesting)
    (tokens : List Token) :
    Except ScanError Nesting :=
  tokens.foldlM Nesting.after nesting

/-- Marks that do not run into each other are scanned back to their tokens. -/
theorem Scan.tokens_spell
    {previous : Option Char}
    {location : Location}
    {nesting after : Nesting}
    {marks : List Mark}
    (wellFormed : ∀ mark ∈ marks, mark.WellFormed)
    (joined : marks.IsChain Mark.Joins)
    (starts : ∀ mark ∈ marks.head?, mark.StartsAfter previous)
    (nested : nesting.afterAll (place location marks) = .ok after)
    (closed : after.close = .ok ()) :
    tokens previous location nesting (spell marks) =
      .ok (place location marks) := by
  induction marks generalizing previous location nesting with
  | nil =>
      cases nested
      rw [spell, List.flatMap_nil, tokens, closed]
      rfl
  | cons mark others inductionHypothesis =>
      obtain ⟨wellFormedMark, wellFormedOthers⟩ :=
        List.forall_mem_cons.mp wellFormed
      obtain ⟨joins, joinedOthers⟩ := List.isChain_cons.mp joined
      -- Both sides of the first mark are known: the text before it and its
      -- neighbour.
      have ends : mark.EndsBefore (spell others) := by
        cases others with
        | nil =>
            exact mark.endsBefore_nil
        | cons next more =>
            exact (joins next rfl).endsBefore
              (wellFormedOthers next List.mem_cons_self)
      have startsNext :
          ∀ next ∈ others.head?, next.StartsAfter mark.spelling.getLast? :=
        fun next isNext => (joins next isNext).startsAfter
      have continues :=
        @inductionHypothesis mark.spelling.getLast?
          (location.advanceOver mark.spelling)
      have spelled : spell (mark :: others) = mark.spelling ++ spell others :=
        rfl
      rw [place] at nested ⊢
      rw [spelled]
      cases token : mark.token? with
      | none =>
          rw [token] at nested
          obtain ⟨blank, single, isBlank, startsWell⟩ :=
            Mark.blank_of_token ends token
          rw [single, List.singleton_append, tokens_blank isBlank startsWell]
          rw [single] at continues startsNext nested
          exact continues wellFormedOthers joinedOthers startsNext nested
      | some shape =>
          obtain ⟨kind, lexeme⟩ := shape
          rw [token] at nested
          dsimp only at nested ⊢
          obtain ⟨inner, nestedFirst, nestedOthers⟩ := bind_eq_ok nested
          rw [tokens_token
            (Mark.readsAs wellFormedMark (starts mark rfl) ends token)
              (Mark.spelling_of_token wellFormedMark token location)
                nestedFirst,
            continues wellFormedOthers joinedOthers startsNext nestedOthers]
          rfl

end PixelBrush
