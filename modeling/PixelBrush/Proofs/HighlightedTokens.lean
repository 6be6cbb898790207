import PixelBrush.Proofs.CompiledPrograms
import PixelBrush.Proofs.HighlightedLines
import PixelBrush.Proofs.TokenShapes

namespace PixelBrush

/-!
# Highlighting agrees with scanning

A source is highlighted line by line, and scanned as a whole.  The two cut it at
the same places: a string literal ends on its own line, and where a scan goes
on, no letter or digit beyond ASCII can lengthen a word.  So the spans that
highlighting sets apart are the tokens of their classes, at the same places and
with the same texts.
-/

/-! ## Picking spans and tokens -/

/-- The places and texts of the spans that are picked. -/
def pickSpans
    (picks : Span → Bool)
    (placed : List (Location × Span)) :
    List (Location × String) :=
  (placed.filter fun entry => picks entry.2).map fun entry =>
    (entry.1, entry.2.text)

/-- The places and spellings of the tokens whose classes are picked. -/
def pickTokens
    (kinds : TokenKind → Bool)
    (tokens : List Token) :
    List (Location × String) :=
  (tokens.filter fun token => kinds token.kind).map fun token =>
    (token.location, String.ofList token.spelling)

/--
Spans are picked by what they look like as tokens are by their classes.
Numbers, symbols and free words are not picked at all.
-/
structure PicksAlike
    (picks : Span → Bool)
    (kinds : TokenKind → Bool) :
    Prop where
  literal :
    ∀ text,
      picks
        ⟨String.ofList ('"' :: (text ++ ['"'])),
          Style.ofForeground Theme.string⟩ =
        kinds .text
  word :
    ∀ word,
      word.head? ≠ some '"' →
      picks ⟨String.ofList word, Highlight.wordStyle word⟩ =
        kinds (Scan.wordKind (String.ofList word))
  symbol :
    ∀ character,
      character ≠ '"' →
      picks ⟨String.ofList [character], Highlight.symbolStyle character⟩ = false
  plain :
    ∀ kind,
      kinds kind = true →
      kind = .keyword ∨ kind = .function ∨ kind = .command ∨ kind = .text

section Picking

variable
  {picks : Span → Bool}
  {kinds : TokenKind → Bool}

/-- Picking goes through spans one list after the other. -/
theorem pickSpans_append
    (first second : List (Location × Span)) :
    pickSpans picks (first ++ second) =
      pickSpans picks first ++ pickSpans picks second := by
  rw [pickSpans, List.filter_append, List.map_append]
  rfl

/-- Picking goes through tokens one by one. -/
theorem pickTokens_cons
    (token : Token)
    (rest : List Token) :
    pickTokens kinds (token :: rest) =
      pickTokens kinds [token] ++ pickTokens kinds rest := by
  rw [← List.singleton_append, pickTokens, List.filter_append, List.map_append]
  rfl

/-- Where no span is picked, nothing is. -/
theorem pickSpans_of_none
    (location : Location)
    {spans : List Span}
    (none : ∀ span ∈ spans, picks span = false) :
    pickSpans picks (placeSpans location spans) = [] := by
  induction spans generalizing location with
  | nil =>
      rfl
  | cons span rest inductionHypothesis =>
      obtain ⟨notPicked, noneOfRest⟩ := List.forall_mem_cons.mp none
      have skipped :
          pickSpans picks (placeSpans location (span :: rest)) =
            pickSpans picks
              (placeSpans
                ⟨location.line, location.column + span.text.length⟩ rest) := by
        simp [placeSpans, pickSpans, notPicked]
      rw [skipped, inductionHypothesis _ noneOfRest]

/-- A token of another class is not picked. -/
theorem pickTokens_of_not
    {token : Token}
    (notPicked : kinds token.kind = false) :
    pickTokens kinds [token] = [] := by
  simp [pickTokens, notPicked]

/-- Symbols, numbers, names and labels are not picked. -/
theorem PicksAlike.kinds_eq_false
    (alike : PicksAlike picks kinds)
    {kind : TokenKind}
    (isPlain :
      kind.isSymbol = true ∨ kind = .number ∨ kind = .identifier ∨
        kind = .label) :
    kinds kind = false := by
  rw [Bool.eq_false_iff]
  intro picked
  rcases alike.plain kind picked with rfl | rfl | rfl | rfl <;>
    exact absurd isPlain (by decide)

/--
The spelling of a token is cut off from its line, and picked as the token is.
-/
def CutOff
    (picks : Span → Bool)
    (kinds : TokenKind → Bool)
    (token : Token)
    (line : List Char) :
    Prop :=
  ∃ spans,
    highlight (token.spelling ++ line) = spans ++ highlight line ∧
      pickSpans picks (placeSpans token.location spans) =
        pickTokens kinds [token]

variable
  {token : Token}
  {line : List Char}

/-- One span that is picked as its token is. -/
theorem CutOff.alone
    {style : Style}
    (cut :
      Highlight.pieces (token.spelling ++ line) =
        (token.spelling, style) :: Highlight.pieces line)
    (alike : picks ⟨String.ofList token.spelling, style⟩ = kinds token.kind) :
    CutOff picks kinds token line := by
  refine ⟨[⟨String.ofList token.spelling, style⟩], congrArg (List.map _) cut,
    ?_⟩
  cases picked : kinds token.kind with
  | false =>
      rw [picked] at alike
      rw [pickTokens_of_not picked, pickSpans_of_none]
      exact fun span member => List.mem_singleton.mp member ▸ alike
  | true =>
      rw [picked] at alike
      simp [pickSpans, pickTokens, placeSpans, alike, picked]

/-- Any number of spans of which none is picked, as the token is not. -/
theorem CutOff.of_none
    {pieces : List (List Char × Style)}
    (cut :
      Highlight.pieces (token.spelling ++ line) =
        pieces ++ Highlight.pieces line)
    (none : ∀ piece ∈ pieces, picks ⟨String.ofList piece.1, piece.2⟩ = false)
    (notPicked : kinds token.kind = false) :
    CutOff picks kinds token line := by
  refine ⟨pieces.map fun piece => ⟨String.ofList piece.1, piece.2⟩, ?_, ?_⟩
  · rw [highlight, cut, List.map_append]
    rfl
  · rw [pickTokens_of_not notPicked, pickSpans_of_none]
    intro span member
    obtain ⟨piece, isPiece, rfl⟩ := List.mem_map.mp member
    exact none piece isPiece

end Picking

/-! ## The spans of a token -/

namespace Scan

/-- What the characters of symbols are for highlighting. -/
theorem symbolic_of_listed
    {spelling : List Char}
    {kind : TokenKind}
    (listed : (spelling, kind) ∈ symbols) :
    ∀ character ∈ spelling,
      character ≠ '"' ∧ Highlight.isWordCharacter character = false := by
  have symbolic :
      ∀ entry ∈ symbols,
        entry.1.all (fun character =>
          character != '"' && !Highlight.isWordCharacter character) = true := by
    decide
  intro character member
  have accepted := List.all_eq_true.mp (symbolic _ listed) character member
  obtain ⟨notQuote, refused⟩ := (Bool.and_eq_true ..).mp accepted
  exact ⟨bne_iff_ne.mp notQuote, (Bool.not_eq_true' _).mp refused⟩

/-- The listed symbols have the classes of symbols. -/
theorem isSymbol_of_listed
    {spelling : List Char}
    {kind : TokenKind}
    (listed : (spelling, kind) ∈ symbols) :
    kind.isSymbol = true := by
  have symbolic : ∀ entry ∈ symbols, entry.2.isSymbol = true := by
    decide
  exact symbolic _ listed

/-- No reserved word starts with a digit. -/
theorem wordKind_digits
    {digits : List Char}
    (nonempty : digits ≠ [])
    (allDigits : ∀ character ∈ digits, character.isDigit = true) :
    wordKind (String.ofList digits) = .identifier := by
  have started :
      (String.ofList digits).toList.head?.any Char.isDigit = true := by
    obtain ⟨first, others, rfl⟩ := List.exists_cons_of_ne_nil nonempty
    rw [String.toList_ofList]
    exact allDigits first List.mem_cons_self
  have reserved :
      ∀ words ∈ [keywords, functions, commands],
        words.contains (String.ofList digits) = false := by
    have letters :
        ∀ words ∈ [keywords, functions, commands],
          ∀ word ∈ words, word.toList.head?.any Char.isDigit = false := by
      decide
    intro words listed
    rw [Bool.eq_false_iff]
    intro contained
    rw [letters words listed _ (List.contains_iff_mem.mp contained)] at started
    cases started
  rw [wordKind, reserved keywords (by simp), reserved functions (by simp),
    reserved commands (by simp)]
  rfl

variable
  {kind : TokenKind}
  {lexeme : String}
  {line : List Char}
  {picks : Span → Bool}
  {kinds : TokenKind → Bool}

/-- A string literal is cut off from its line. -/
theorem cutOff_text
    (alike : PicksAlike picks kinds)
    (plain : IsPlain lexeme)
    (location : Location) :
    CutOff picks kinds ⟨.text, lexeme, location⟩ line :=
  .alone (Highlight.pieces_literal plain.unquoted) (alike.literal lexeme.toList)

/--
A number is cut into its sign and its digits, and these are taken for a free
word.
-/
theorem cutOff_number
    {sign digits : List Char}
    (alike : PicksAlike picks kinds)
    (isSign : sign = [] ∨ sign = ['-'])
    (nonempty : digits ≠ [])
    (allDigits : ∀ character ∈ digits, character.isDigit = true)
    (location : Location)
    (ends :
      ∀ character ∈ line.head?, Highlight.isWordCharacter character = false) :
    CutOff picks kinds
      ⟨.number, String.ofList (sign ++ digits), location⟩ line := by
  have symbolic :
      ∀ character ∈ sign,
        character ≠ '"' ∧ Highlight.isWordCharacter character = false := by
    intro character member
    rcases isSign with rfl | rfl
    · cases member
    · rw [List.mem_singleton.mp member]
      decide
  have accepted :
      ∀ character ∈ digits, Highlight.isWordCharacter character = true := by
    intro character member
    apply Highlight.isWordCharacter_of_scan
    simp [isWordCharacter, Char.isAlphanum, allDigits character member]
  have unquoted : digits.head? ≠ some '"' := by
    intro isHead
    cases allDigits '"' (List.mem_of_mem_head? isHead)
  have cut :
      Highlight.pieces
          (Token.spelling ⟨.number, String.ofList (sign ++ digits), location⟩ ++
            line) =
        (sign.map
          (fun character => ([character], Highlight.symbolStyle character)) ++
          [(digits, Highlight.wordStyle digits)]) ++ Highlight.pieces line := by
    rw [Token.spelling_of_ne_text (by decide), String.toList_ofList,
      List.append_assoc, Highlight.pieces_symbols symbolic,
      Highlight.pieces_word nonempty accepted ends, List.append_assoc]
    rfl
  refine .of_none cut ?_ (alike.kinds_eq_false (.inr (.inl rfl)))
  intro piece member
  rcases List.mem_append.mp member with inSign | isDigits
  · obtain ⟨character, isMember, rfl⟩ := List.mem_map.mp inSign
    exact alike.symbol character (symbolic character isMember).1
  · rw [List.mem_singleton.mp isDigits, alike.word digits unquoted,
      wordKind_digits nonempty allDigits]
    exact alike.kinds_eq_false (by decide)

/-- A word is cut off from its line where no word character follows. -/
theorem cutOff_word
    (alike : PicksAlike picks kinds)
    (isWord : IsWord lexeme)
    (location : Location)
    (ends :
      ∀ character ∈ line.head?, Highlight.isWordCharacter character = false) :
    CutOff picks kinds ⟨wordKind lexeme, lexeme, location⟩ line := by
  have spelled :=
    Token.spelling_of_ne_text (wordKind_ne_text lexeme) lexeme location
  obtain ⟨first, isHead, isAlpha⟩ := isWord.starts
  have nonempty : lexeme.toList ≠ [] := by
    intro empty
    rw [empty] at isHead
    cases isHead
  have unquoted : lexeme.toList.head? ≠ some '"' := by
    intro isQuote
    cases isHead.symm.trans isQuote
    cases isAlpha
  have accepted :
      ∀ character ∈ lexeme.toList, Highlight.isWordCharacter character = true :=
    fun character member =>
      Highlight.isWordCharacter_of_scan
        (List.all_eq_true.mp isWord.continues character member)
  have cut := Highlight.pieces_word nonempty accepted ends
  rw [← spelled] at cut
  refine .alone cut ?_
  rw [spelled, alike.word lexeme.toList unquoted, String.ofList_toList]

/-- A symbol is cut off from its line, and not picked. -/
theorem cutOff_symbol
    (alike : PicksAlike picks kinds)
    (listed : (lexeme.toList, kind) ∈ symbols)
    (location : Location) :
    CutOff picks kinds ⟨kind, lexeme, location⟩ line := by
  have symbolic := symbolic_of_listed listed
  have cut :
      Highlight.pieces (Token.spelling ⟨kind, lexeme, location⟩ ++ line) =
        lexeme.toList.map
          (fun character => ([character], Highlight.symbolStyle character)) ++
          Highlight.pieces line := by
    rw [Token.spelling_of_ne_text (ne_text_of_listed listed)]
    exact Highlight.pieces_symbols symbolic
  refine .of_none cut ?_
    (alike.kinds_eq_false (.inl (isSymbol_of_listed listed)))
  intro piece member
  obtain ⟨character, isMember, rfl⟩ := List.mem_map.mp member
  exact alike.symbol character (symbolic character isMember).1

/--
A token of any shape is cut off, if no word goes on where a word or a number
ends.
-/
theorem Shaped.cutOff
    (shaped : Shaped kind lexeme)
    (alike : PicksAlike picks kinds)
    (location : Location)
    (ends :
      kind.isSymbol = false →
      kind ≠ .text →
      ∀ character ∈ line.head?, Highlight.isWordCharacter character = false) :
    CutOff picks kinds ⟨kind, lexeme, location⟩ line := by
  cases shaped with
  | text plain =>
      exact cutOff_text alike plain location
  | number isSign nonempty allDigits =>
      exact cutOff_number alike isSign nonempty allDigits location
        (ends rfl (by decide))
  | word isWord =>
      exact cutOff_word alike isWord location
        (ends (wordKind_not_symbol lexeme) (wordKind_ne_text lexeme))
  | symbol listed =>
      exact cutOff_symbol alike listed location

end Scan

/-! ## Where tokens end -/

namespace Scan

variable
  {first : Char}
  {characters : List Char}
  {result : Piece}
  {kind : TokenKind}
  {lexeme : String}

/-- What is left after dropping accepted characters starts with another one. -/
theorem head?_dropWhile
    (accepts : Char → Bool) :
    ∀ character ∈ (characters.dropWhile accepts).head?,
      accepts character = false := by
  intro character isHead
  have refused := List.head?_dropWhile_not accepts characters
  rw [isHead] at refused
  exact Bool.eq_false_iff.mpr (by simpa using refused)

/-- No word character follows a number. -/
theorem number_ends
    {sign : List Char}
    (read : number sign characters = .ok result) :
    ∀ character ∈ result.rest.head?, isWordCharacter character = false := by
  intro character isHead
  rw [number_rest_eq read] at isHead
  have notDigit := head?_dropWhile Char.isDigit character isHead
  unfold number at read
  dsimp only at read
  split at read
  · cases read
  · rename_i loose
    rw [isHead, Option.any_some, gluesToNumber, Bool.or_eq_true,
      not_or] at loose
    obtain ⟨notAlpha, notUnderscore⟩ := loose
    simp [isWordCharacter, Char.isAlphanum, notDigit, notAlpha, notUnderscore]

/-- Words and numbers are taken as far as they go. -/
theorem Reads.ends
    (reads : Reads first characters result)
    (notSymbol : result.kind.isSymbol = false)
    (notText : result.kind ≠ .text) :
    ∀ character ∈ result.rest.head?, isWordCharacter character = false := by
  cases reads with
  | text read =>
      exact absurd (text_kind read) notText
  | number _ _ read =>
      exact number_ends read
  | word =>
      exact head?_dropWhile isWordCharacter
  | symbol read =>
      rw [isSymbol_of_listed (symbol_listed read)] at notSymbol
      cases notSymbol

/-- Tokens start with an ASCII character. -/
theorem Shaped.ascii_head
    (shaped : Shaped kind lexeme)
    (location : Location) :
    ∀ character ∈ (Token.spelling ⟨kind, lexeme, location⟩).head?,
      character.toNat < 0x80 := by
  intro character isHead
  cases shaped with
  | text =>
      cases isHead
      decide
  | number isSign _ allDigits =>
      rw [Token.spelling_of_ne_text (by decide), String.toList_ofList] at isHead
      rcases mem_literal isSign allDigits character
        (List.mem_of_mem_head? isHead) with
        rfl | isDigit
      · decide
      · have range := toNat_of_isDigit isDigit
        omega
  | word isWord =>
      rw [Token.spelling_of_ne_text (wordKind_ne_text lexeme)] at isHead
      obtain ⟨letter, isFirst, isAlpha⟩ := isWord.starts
      cases isFirst.symm.trans isHead
      have range := toNat_of_isAlpha isAlpha
      omega
  | symbol listed =>
      have ascii :
          ∀ entry ∈ symbols,
            entry.1.all (fun character => character.toNat < 0x80) = true := by
        decide
      rw [Token.spelling_of_ne_text (ne_text_of_listed listed)] at isHead
      have inRange :=
        List.all_eq_true.mp (ascii _ listed) character
          (List.mem_of_mem_head? isHead)
      exact of_decide_eq_true inRange

/-- No token ends in a carriage return. -/
theorem Shaped.getLast?_ne_return
    (shaped : Shaped kind lexeme)
    (location : Location) :
    (Token.spelling ⟨kind, lexeme, location⟩).getLast? ≠ some '\r' := by
  intro isLast
  have member := List.mem_of_getLast? isLast
  cases shaped with
  | text =>
      rw [Token.spelling, List.getLast?_cons, List.getLast?_append] at isLast
      cases isLast
  | number isSign _ allDigits =>
      rw [Token.spelling_of_ne_text (by decide), String.toList_ofList] at member
      exact absurd (mem_literal isSign allDigits '\r' member) (by decide)
  | word isWord =>
      rw [Token.spelling_of_ne_text (wordKind_ne_text lexeme)] at member
      cases List.all_eq_true.mp isWord.continues '\r' member
  | symbol listed =>
      have noReturn : ∀ entry ∈ symbols, '\r' ∉ entry.1 := by
        decide
      rw [Token.spelling_of_ne_text (ne_text_of_listed listed)] at member
      exact noReturn _ listed member

/-- Where a scan goes on, highlighting finds a word only if scanning does. -/
theorem isWordCharacter_of_tokens
    {previous : Option Char}
    {location : Location}
    {nesting : Nesting}
    {scanned : List Token}
    (read : tokens previous location nesting characters = .ok scanned) :
    ∀ character ∈ characters.head?,
      Highlight.isWordCharacter character = true →
      isWordCharacter character = true := by
  intro character isHead accepted
  obtain ⟨others, rfl⟩ := List.head?_eq_some_iff.mp isHead
  rcases tokens_cons_eq_ok read with
    ⟨blank, _⟩ | ⟨_, result, _, _, piecewise, _⟩
  · rw [Highlight.isWordCharacter_of_isBlank blank] at accepted
    cases accepted
  · have reads := piece_reads piecewise
    have whole := reads.spells location
    have isFirst :
        character ∈
          (Token.spelling ⟨result.kind, result.lexeme, location⟩).head? := by
      rw [← List.head?_append_of_ne_nil _ (spelling_ne_nil piecewise location),
        whole]
      rfl
    rwa [Highlight.isWordCharacter_of_ascii
      (reads.shaped.ascii_head location _ isFirst)]
      at accepted

end Scan

/-! ## Lines and tokens -/

section Agreement

variable
  {picks : Span → Bool}
  {kinds : TokenKind → Bool}

/-- A blank is not picked, whether it ends a line or not. -/
theorem pickSpans_blank
    (alike : PicksAlike picks kinds)
    (location : Location)
    {first : Char}
    (blank : isBlank first = true)
    (rest : List Char) :
    pickSpans picks (highlightedFrom location (first :: rest)) =
      pickSpans picks (highlightedFrom (location.advance first) rest) := by
  have notQuote : first ≠ '"' := by
    rintro rfl
    cases blank
  by_cases isBreak : first = '\n'
  · subst isBreak
    rw [highlightedFrom_of_ended location ('\n' :: rest) rest rfl]
    rfl
  · by_cases isEnd : first = '\r' ∧ rest.head? = some '\n'
    · -- The carriage return of a line end is not shown at all.
      obtain ⟨rfl, follows⟩ := isEnd
      obtain ⟨others, rfl⟩ := List.head?_eq_some_iff.mp follows
      have whole :=
        highlightedFrom_of_ended location ('\r' :: '\n' :: others) others rfl
      have half :=
        highlightedFrom_of_ended (location.advance '\r')
          ('\n' :: others) others rfl
      rw [whole, half]
      rfl
    · have cut :
          highlight ([first] ++ Lines.ahead rest) =
            [⟨String.ofList [first], Highlight.symbolStyle first⟩] ++
              highlight (Lines.ahead rest) :=
        congrArg (List.map _)
          (Highlight.pieces_symbol notQuote
            (Highlight.isWordCharacter_of_isBlank blank))
      have shown :=
        highlightedFrom_run location (List.cons_ne_nil first [])
          (fun member => isBreak (List.mem_singleton.mp member).symm)
          (fun isReturn follows => isEnd ⟨Option.some.inj isReturn, follows⟩)
            cut
      rw [List.singleton_append] at shown
      rw [shown, pickSpans_append, pickSpans_of_none, List.nil_append]
      · rfl
      · intro span member
        rw [List.mem_singleton.mp member]
        exact alike.symbol first notQuote

/-- A token is picked from the rest of its line as it is from the tokens. -/
theorem pickSpans_token
    {rest : List Char}
    {token : Token}
    (shaped : Scan.Shaped token.kind token.lexeme)
    (started : token.spelling ≠ [])
    (cutOff : CutOff picks kinds token (Lines.ahead rest)) :
    pickSpans picks (highlightedFrom token.location (token.spelling ++ rest)) =
      pickTokens kinds [token] ++
        pickSpans picks
          (highlightedFrom
            (token.location.advanceOver token.spelling) rest) := by
  obtain ⟨spans, cut, picked⟩ := cutOff
  rw [highlightedFrom_run token.location started
    (shaped.spelling_oneLine token.location)
    (fun isReturn => absurd isReturn (shaped.getLast?_ne_return token.location))
      cut,
    pickSpans_append, picked]

/--
What is picked from highlighted lines is picked from the tokens that are
scanned.
-/
theorem pickSpans_highlightedFrom
    (alike : PicksAlike picks kinds)
    {previous : Option Char}
    {location : Location}
    {nesting : Scan.Nesting}
    {characters : List Char}
    {scanned : List Token}
    (read : Scan.tokens previous location nesting characters = .ok scanned) :
    pickSpans picks (highlightedFrom location characters) =
      pickTokens kinds scanned := by
  fun_induction Scan.tokens previous location nesting characters
    generalizing scanned with
  | case1 previous location nesting =>
      obtain ⟨_, _, rfl⟩ := map_eq_ok read
      rw [highlightedFrom]
      show pickSpans picks (placeSpans location (highlight []) ++ []) = []
      rw [highlight_nil]
      rfl
  | case2 | case4 | case5 =>
      cases read
  | case3 previous location nesting first rest isBlank =>
      rename_i inductionHypothesis
      rw [pickSpans_blank alike location isBlank]
      exact inductionHypothesis read
  | case6 previous location nesting first rest notBlank result piecewise =>
      rename_i token _ _ inductionHypothesis
      obtain ⟨others, later, rfl⟩ := map_eq_ok read
      have reads := Scan.piece_reads piecewise
      have whole : token.spelling ++ result.rest = first :: rest :=
        reads.spells location
      have cutOff : CutOff picks kinds token (Lines.ahead result.rest) := by
        apply reads.shaped.cutOff alike location
        intro notSymbol notText character isHead
        have isNext := Lines.head?_of_ahead isHead
        have refused := reads.ends notSymbol notText character isNext
        rw [Bool.eq_false_iff]
        intro accepted
        rw [Scan.isWordCharacter_of_tokens later character isNext accepted]
          at refused
        cases refused
      have step :=
        pickSpans_token reads.shaped
          (Scan.spelling_ne_nil piecewise location) cutOff
      rw [whole, inductionHypothesis later] at step
      rw [pickTokens_cons]
      exact step

end Agreement

/-! ## What is set apart -/

/-- Bold text in the color of keywords. -/
def Style.isKeyword (style : Style) : Bool :=
  style.foreground == some Theme.keyword && style.bold

/-- Text in the color of functions. -/
def Style.isFunction (style : Style) : Bool :=
  style.foreground == some Theme.function

/-- Spans in the style of keywords. -/
def Span.isKeyword (span : Span) : Bool :=
  span.style.isKeyword

/-- Spans in the color of functions. -/
def Span.isFunction (span : Span) : Bool :=
  span.style.isFunction

/-- Spans that start with a quote. -/
def Span.isQuoted (span : Span) : Bool :=
  span.text.toList.head? == some '"'

/--
The style of a word tells keywords, functions and free words apart as scanning
does.
-/
theorem Highlight.wordStyle_cases (word : List Char) :
    wordStyle word = (Style.ofForeground Theme.keyword).inBold ∧
        Scan.wordKind (String.ofList word) = .keyword ∨
      wordStyle word = Style.ofForeground Theme.function ∧
        (Scan.wordKind (String.ofList word) = .function ∨
          Scan.wordKind (String.ofList word) = .command) ∨
      (wordStyle word = Style.ofForeground Theme.number ∨
          wordStyle word = Style.ofForeground Theme.text) ∧
        Scan.wordKind (String.ofList word) = .identifier := by
  unfold wordStyle Scan.wordKind
  dsimp only
  by_cases isKeyword : Scan.keywords.contains (String.ofList word) = true
  · rw [if_pos isKeyword, if_pos isKeyword]
    exact .inl ⟨rfl, rfl⟩
  · rw [if_neg isKeyword, if_neg isKeyword]
    by_cases isFunction : Scan.functions.contains (String.ofList word) = true
    · rw [if_pos isFunction, isFunction, Bool.true_or, if_pos rfl]
      exact .inr (.inl ⟨rfl, .inl rfl⟩)
    · rw [if_neg isFunction, Bool.eq_false_iff.mpr isFunction, Bool.false_or]
      by_cases isCommand : Scan.commands.contains (String.ofList word) = true
      · rw [if_pos isCommand, if_pos isCommand]
        exact .inr (.inl ⟨rfl, .inr rfl⟩)
      · rw [if_neg isCommand, if_neg isCommand]
        refine .inr (.inr ⟨?_, rfl⟩)
        split
        · exact .inl rfl
        · exact .inr rfl

/-- A symbol is shown as an operator or as plain text. -/
theorem Highlight.symbolStyle_cases (character : Char) :
    symbolStyle character = Style.ofForeground Theme.primary ∨
      symbolStyle character = Style.ofForeground Theme.text := by
  unfold symbolStyle
  split
  · exact .inl rfl
  · exact .inr rfl

/--
Where only styles are looked at, the classes that have styles of their own
settle it.
-/
theorem picksAlike_of_style
    (looks : Style → Bool)
    {kinds : TokenKind → Bool}
    (keyword : looks (Style.ofForeground Theme.keyword).inBold = kinds .keyword)
    (function : looks (Style.ofForeground Theme.function) = kinds .function)
    (command : kinds .command = kinds .function)
    (others :
      ∀ ink ∈ [Theme.string, Theme.number, Theme.text, Theme.primary],
        looks (Style.ofForeground ink) = false)
    (plain :
      ∀ kind,
        kinds kind = true →
        kind = .keyword ∨ kind = .function ∨ kind = .command) :
    PicksAlike (fun span => looks span.style) kinds := by
  have unpicked {kind : TokenKind}
      (apart : kind ≠ .keyword ∧ kind ≠ .function ∧ kind ≠ .command) :
      kinds kind = false := by
    rw [Bool.eq_false_iff]
    intro picked
    rcases plain kind picked with same | same | same
    · exact apart.1 same
    · exact apart.2.1 same
    · exact apart.2.2 same
  refine ⟨fun text => ?_, fun word _ => ?_, fun character _ => ?_,
    fun kind picked => ?_⟩
  · rw [unpicked (by decide)]
    exact others Theme.string (by decide)
  · rcases Highlight.wordStyle_cases word with
      ⟨style, kind⟩ | ⟨style, kind | kind⟩ | ⟨style | style, kind⟩
    · rw [style, kind, keyword]
    · rw [style, kind, function]
    · rw [style, kind, function, command]
    · rw [style, kind, unpicked (by decide), others Theme.number (by decide)]
    · rw [style, kind, unpicked (by decide), others Theme.text (by decide)]
  · rcases Highlight.symbolStyle_cases character with style | style
    · rw [style, others Theme.primary (by decide)]
    · rw [style, others Theme.text (by decide)]
  · rcases plain kind picked with same | same | same
    · exact .inl same
    · exact .inr (.inl same)
    · exact .inr (.inr (.inl same))

/-- The spans of keywords are picked as the tokens are. -/
theorem picksAlike_keyword :
    PicksAlike Span.isKeyword (· == .keyword) :=
  picksAlike_of_style Style.isKeyword rfl rfl rfl (by decide)
    fun _ picked => .inl (eq_of_beq picked)

/-- So are the spans of functions and draw commands. -/
theorem picksAlike_function :
    PicksAlike Span.isFunction
      (fun kind => kind == .function || kind == .command) := by
  refine picksAlike_of_style Style.isFunction rfl rfl rfl (by decide) ?_
  intro kind picked
  rcases (Bool.or_eq_true ..).mp picked with isFunction | isCommand
  · exact .inr (.inl (eq_of_beq isFunction))
  · exact .inr (.inr (eq_of_beq isCommand))

/-- So are the spans of string literals. -/
theorem picksAlike_text :
    PicksAlike Span.isQuoted (· == .text) where
  literal text := by
    simp [Span.isQuoted]
  word word unquoted := by
    have notText := beq_false_of_ne (Scan.wordKind_ne_text (String.ofList word))
    rw [notText, Span.isQuoted, String.toList_ofList]
    exact beq_false_of_ne unquoted
  symbol character notQuote := by
    rw [Span.isQuoted, String.toList_ofList]
    exact beq_false_of_ne fun same => notQuote (Option.some.inj same)
  plain kind picked := .inr (.inr (.inr (eq_of_beq picked)))

/-- Settling names touches only free words, which are not picked. -/
theorem pickTokens_map_settle
    {picks : Span → Bool}
    {kinds : TokenKind → Bool}
    (alike : PicksAlike picks kinds)
    (assigned : List String)
    (tokens : List Token) :
    pickTokens kinds (tokens.map (Naming.settle assigned)) =
      pickTokens kinds tokens := by
  have same (token : Token) :
      pickTokens kinds [Naming.settle assigned token] =
        pickTokens kinds [token] := by
    unfold Naming.settle
    split
    · rename_i free
      have isFree : kinds token.kind = false :=
        alike.kinds_eq_false (.inr (.inr (.inl free.1)))
      have isLabel : kinds .label = false :=
        alike.kinds_eq_false (.inr (.inr (.inr rfl)))
      rw [pickTokens_of_not isFree, pickTokens_of_not isLabel]
    · rfl
  induction tokens with
  | nil =>
      rfl
  | cons token rest inductionHypothesis =>
      rw [List.map_cons, pickTokens_cons, pickTokens_cons token, same,
        inductionHypothesis]

/--
The spans that are picked from a highlighted source are the tokens of their
classes, at the same places.
-/
theorem pickSpans_highlighted
    {picks : Span → Bool}
    {kinds : TokenKind → Bool}
    (alike : PicksAlike picks kinds)
    {source : String}
    {tokens : List Token}
    (scanned : tokenize source = .ok tokens) :
    pickSpans picks (highlighted source) = pickTokens kinds tokens := by
  obtain ⟨provisional, read, rfl⟩ := exists_scan_of_tokenize scanned
  rw [pickTokens_map_settle alike, highlighted, textLines, placeLines_split]
  exact pickSpans_highlightedFrom alike read

/--
Highlighting agrees with scanning.  The spans of a line spell the line.  For a
source that has tokens, highlighted line by line, the bold spans in the color of
keywords, the spans in the color of functions and those that start with a quote
are exactly the keywords, the functions and drawing commands, and the string
literals with their quotes, each with its line, its column and its text.
-/
theorem highlighting_agrees_with_scanning :
    (∀ line, (highlight line).flatMap (fun span => span.text.toList) = line) ∧
      ∀ source tokens,
        tokenize source = .ok tokens →
        pickSpans Span.isKeyword (highlighted source) =
          pickTokens (· == .keyword) tokens ∧
          pickSpans Span.isFunction (highlighted source) =
            pickTokens
              (fun kind => kind == .function || kind == .command) tokens ∧
          pickSpans Span.isQuoted (highlighted source) =
            pickTokens (· == .text) tokens := by
  refine ⟨text_highlight, fun source tokens scanned => ⟨?_, ?_, ?_⟩⟩
  · exact pickSpans_highlighted picksAlike_keyword scanned
  · exact pickSpans_highlighted picksAlike_function scanned
  · exact pickSpans_highlighted picksAlike_text scanned

/--
A line end with a carriage return, a keyword inside a string literal, and words
next to numbers, quotes and underscores.
-/
theorem highlighting_agrees_with_scanning_glued :
    let source :=
      "Color(\"Fill é\")\r\nn_Fill<-GetActualX()-1\n\n " ++
        "DrawLine(n_Fill,0,GetCanvasSize())\n"
    ∃ tokens,
      tokenize source = .ok tokens ∧
        pickTokens (· == .keyword) tokens = [(⟨1, 1⟩, "Color")] ∧
        pickSpans Span.isKeyword (highlighted source) = [(⟨1, 1⟩, "Color")] ∧
        pickSpans Span.isFunction (highlighted source) =
          [(⟨2, 9⟩, "GetActualX"), (⟨4, 2⟩, "DrawLine"),
            (⟨4, 20⟩, "GetCanvasSize")] ∧
        pickSpans Span.isQuoted (highlighted source) =
          [(⟨1, 7⟩, "\"Fill é\"")] := by
  intro source
  have settled :
      (tokenize source).toOption.any (fun tokens =>
        pickTokens (· == .keyword) tokens = [(⟨1, 1⟩, "Color")] &&
          (pickTokens
            (fun kind => kind == .function || kind == .command) tokens =
              [(⟨2, 9⟩, "GetActualX"), (⟨4, 2⟩, "DrawLine"),
                (⟨4, 20⟩, "GetCanvasSize")] &&
            pickTokens (· == .text) tokens = [(⟨1, 7⟩, "\"Fill é\"")])) =
              true := by
    decide +kernel
  obtain ⟨tokens, scanned, known⟩ := exists_eq_ok_of_any settled
  simp only [Bool.and_eq_true, decide_eq_true_eq] at known
  obtain ⟨keywords, functions, texts⟩ := known
  obtain ⟨sameKeywords, sameFunctions, sameTexts⟩ :=
    highlighting_agrees_with_scanning.2 source tokens scanned
  exact ⟨tokens, scanned, keywords, sameKeywords.trans keywords,
    sameFunctions.trans functions, sameTexts.trans texts⟩

end PixelBrush
