import Mathlib.Algebra.Group.Nat.Even
import PixelBrush.Proofs.NamesApart
import PixelBrush.Proofs.TokenShapes

namespace PixelBrush

/-!
# Hyphens between a name and digits

A name starts a token wherever it stands outside string literals and does not
continue another word.  A hyphen right after the name is told by the last
character of the name alone: after a letter or a digit it subtracts, and after
an underscore it is the sign of the digits that follow.
-/

namespace Scan

variable
  {previous : Option Char}
  {location : Location}
  {nesting : Nesting}
  {before digits rest : List Char}
  {scanned : List Token}
  {result : Piece}

/-! ## Steps of a successful scan -/

/-- A successful scan of a token that is read in one way only. -/
theorem exists_of_tokens_ok
    {first : Char}
    {kind : TokenKind}
    {lexeme : String}
    {left : List Char}
    (read : tokens previous location nesting (first :: rest) = .ok scanned)
    (notBlank : isBlank first = false)
    (reads :
      ∀ result,
        piece previous first rest = .ok result →
        result = ⟨kind, lexeme, left⟩) :
    ∃ later others,
      tokens (Token.spelling ⟨kind, lexeme, location⟩).getLast?
          (location.advanceOver (Token.spelling ⟨kind, lexeme, location⟩)) later
            left =
        .ok others ∧
        scanned = ⟨kind, lexeme, location⟩ :: others := by
  rcases tokens_cons_eq_ok read with
    ⟨blank, _⟩ | ⟨_, result, later, others, piecewise, goesOn, shape⟩
  · rw [notBlank] at blank
    cases blank
  · cases reads result piecewise
    exact ⟨later, others, goesOn, shape⟩

/-! ## Tokens are not split before a letter -/

/--
Where a token is split before a letter, a word or a string literal goes on.
-/
theorem Shaped.noLetter_of_split
    {kind : TokenKind}
    {lexeme : String}
    (shaped : Shaped kind lexeme)
    {more : List Char}
    (split : Token.spelling ⟨kind, lexeme, location⟩ = before ++ more)
    (started : before ≠ [])
    (outside : Even (before.count '"'))
    (fresh : ∀ character ∈ before.getLast?, isWordCharacter character = false) :
    ∀ character ∈ more.head?, character.isAlpha = false := by
  intro character isHead
  have inside : character ∈ more := List.mem_of_mem_head? isHead
  cases shaped with
  | text plain =>
      obtain ⟨first, others, rfl⟩ := List.exists_cons_of_ne_nil started
      have split :
          '"' :: (lexeme.toList ++ ['"']) = first :: (others ++ more) :=
        split
      obtain ⟨rfl, same⟩ := List.cons.inj split
      rcases List.append_eq_append_iff.mp same with
        ⟨_, _, closing⟩ | ⟨_, value, _⟩
      · -- Only the closing quote can be left.
        have isQuote : character ∈ ['"'] :=
          closing ▸ List.mem_append_right _ inside
        rw [List.mem_singleton.mp isQuote]
        rfl
      · -- The opening quote is the only one so far.
        have unquoted : '"' ∉ others := by
          intro member
          exact plain.unquoted (value ▸ List.mem_append_left _ member)
        rw [List.count_cons_self,
          List.count_eq_zero_of_not_mem unquoted] at outside
        exact absurd outside (by decide)
  | number isSign _ allDigits _ =>
      rw [Token.spelling_of_ne_text (by decide), String.toList_ofList] at split
      exact noLetter_of_literal isSign allDigits character
        (split ▸ List.mem_append_right before inside)
  | word isWord =>
      rw [Token.spelling_of_ne_text (wordKind_ne_text lexeme)] at split
      have continues := List.all_eq_true.mp isWord.continues
      have isLast := List.getLast?_eq_some_getLast started
      have accepted : isWordCharacter (before.getLast started) = true :=
        continues _
          (split ▸ List.mem_append_left more (List.getLast_mem started))
      rw [fresh _ isLast] at accepted
      cases accepted
  | symbol listed =>
      rw [Token.spelling_of_ne_text (ne_text_of_listed listed)] at split
      exact noLetter_of_listed listed character
        (split ▸ List.mem_append_right before inside)

/-- Quotes come in pairs, one pair for each string literal. -/
theorem Shaped.even_count_spelling
    {kind : TokenKind}
    {lexeme : String}
    (shaped : Shaped kind lexeme) :
    Even ((Token.spelling ⟨kind, lexeme, location⟩).count '"') := by
  have unquoted := List.count_eq_zero_of_not_mem shaped.isPlain.unquoted
  unfold Token.spelling
  split
  · rw [List.count_cons_self, List.count_append, unquoted]
    decide
  · rw [unquoted]
    decide

/--
The text before a letter outside string literals, when the letter continues no
word.
-/
structure LeadsTo (letter : Char) (before : List Char) : Prop where
  isAlpha : letter.isAlpha = true
  outside : Even (before.count '"')
  fresh : ∀ character ∈ before.getLast?, isWordCharacter character = false

/-- A text still leads to a letter when a blank at its start is passed. -/
theorem LeadsTo.blank
    {letter first : Char}
    (leads : LeadsTo letter (first :: before))
    (blank : isBlank first = true) :
    LeadsTo letter before := by
  have notQuote : first ≠ '"' := by
    rintro rfl
    cases blank
  refine ⟨leads.isAlpha, ?_, ?_⟩
  · have outside := leads.outside
    rwa [List.count_cons_of_ne notQuote] at outside
  · intro character isLast
    exact leads.fresh character (List.mem_getLast?_cons isLast)

/-- A token that starts before such a letter ends before it. -/
theorem LeadsTo.token
    {letter first : Char}
    (leads : LeadsTo letter (first :: before))
    (isHead : letter ∈ rest.head?)
    (reads : Reads first (before ++ rest) result)
    (location : Location) :
    ∃ remaining,
      first :: before =
        Token.spelling ⟨result.kind, result.lexeme, location⟩ ++ remaining ∧
        result.rest = remaining ++ rest ∧
          LeadsTo letter remaining := by
  have shaped := reads.shaped
  have spelled := reads.spells location
  rw [← List.cons_append] at spelled
  rcases List.append_eq_append_iff.mp spelled with
    ⟨remaining, isBefore, left⟩ | ⟨more, split, isRest⟩
  · refine ⟨remaining, isBefore, left, leads.isAlpha, ?_, ?_⟩
    · have outside := leads.outside
      rw [isBefore, List.count_append, Nat.even_add] at outside
      exact outside.mp shaped.even_count_spelling
    · intro character isLast
      apply leads.fresh character
      rw [isBefore]
      exact List.mem_getLast?_append_of_mem_getLast? isLast
  · cases more with
    | nil =>
        rw [List.append_nil] at split
        exact ⟨[], by rw [split, List.append_nil], isRest.symm, leads.isAlpha,
          ⟨0, rfl⟩, by simp⟩
    | cons head tail =>
        have noLetter :=
          shaped.noLetter_of_split split (List.cons_ne_nil first before)
            leads.outside leads.fresh
        have isAlpha := leads.isAlpha
        rw [isRest] at isHead
        rw [noLetter letter isHead] at isAlpha
        cases isAlpha

/--
A successful scan comes to every letter outside string literals that continues
no word.
-/
theorem exists_tokens_of_leadsTo
    {letter : Char}
    (leads : LeadsTo letter before)
    (isHead : letter ∈ rest.head?)
    (read : tokens previous location nesting (before ++ rest) = .ok scanned) :
    ∃ front back previous nesting,
      scanned = front ++ back ∧
        tokens previous (location.advanceOver before) nesting rest =
          .ok back := by
  -- The induction is on the length of the text before: a token takes up any
  -- part of it.
  induction length : before.length using Nat.strong_induction_on
    generalizing previous location nesting before scanned with
  | h count inductionHypothesis =>
      cases before with
      | nil =>
          exact ⟨[], scanned, previous, nesting, rfl, read⟩
      | cons first others =>
          rw [List.cons_append] at read
          rcases tokens_cons_eq_ok read with
            ⟨blank, goesOn⟩ | ⟨_, result, later, following, piecewise, goesOn,
              rfl⟩
          · have shorter : others.length < count := by
              rw [← length]
              exact Nat.lt_succ_self _
            obtain ⟨front, back, previous, nesting, rfl, continues⟩ :=
              inductionHypothesis others.length shorter
                (leads.blank blank) goesOn rfl
            exact ⟨front, back, previous, nesting, rfl, continues⟩
          · obtain ⟨remaining, isBefore, left, leads⟩ :=
              leads.token isHead (piece_reads piecewise) location
            have shorter : remaining.length < count := by
              have taken := piece_rest_length piecewise
              rw [left, List.length_append, List.length_append] at taken
              rw [← length, List.length_cons]
              omega
            rw [left] at goesOn
            obtain ⟨front, back, previous, nesting, rfl, continues⟩ :=
              inductionHypothesis remaining.length shorter leads goesOn rfl
            rw [← Location.advanceOver_append, ← isBefore] at continues
            exact ⟨_ :: front, back, previous, nesting, rfl, continues⟩

/-! ## The tokens of a name, a hyphen and digits -/

/-- A number is read from all digits that follow one another. -/
theorem number_of_run
    {sign : List Char}
    (allDigits : ∀ character ∈ digits, character.isDigit = true)
    (ends : ∀ character ∈ rest.head?, character.isDigit = false)
    (read : number sign (digits ++ rest) = .ok result) :
    result = ⟨.number, String.ofList (sign ++ digits), rest⟩ := by
  unfold number at read
  rw [takeWhile_run allDigits ends, dropWhile_run allDigits ends] at read
  dsimp only at read
  split at read
  · cases read
  · split at read
    · cases read
    · cases read
      rfl

/-- A piece that starts with a digit is such a number. -/
theorem piece_of_digits
    {first : Char}
    (allDigits : ∀ character ∈ first :: digits, character.isDigit = true)
    (ends : ∀ character ∈ rest.head?, character.isDigit = false)
    (read : piece previous first (digits ++ rest) = .ok result) :
    result = ⟨.number, String.ofList (first :: digits), rest⟩ := by
  have isDigit := allDigits first List.mem_cons_self
  have notQuote : first ≠ '"' := by
    rintro rfl
    cases isDigit
  rw [piece, if_neg notQuote, if_pos isDigit] at read
  exact number_of_run allDigits ends read

/-- After the end of an operand a hyphen subtracts. -/
theorem piece_of_hyphen
    (isOperand : previous.any endsOperand = true) :
    piece previous '-' rest = .ok ⟨.arithmetic, "-", rest⟩ := by
  show hyphen previous rest = _
  rw [hyphen, if_pos isOperand]
  rfl

/-- After any other character a hyphen is the sign of the digits that follow. -/
theorem piece_of_sign
    (notOperand : previous.any endsOperand = false)
    (nonempty : digits ≠ [])
    (allDigits : ∀ character ∈ digits, character.isDigit = true)
    (ends : ∀ character ∈ rest.head?, character.isDigit = false)
    (read : piece previous '-' (digits ++ rest) = .ok result) :
    result = ⟨.number, String.ofList ('-' :: digits), rest⟩ := by
  obtain ⟨first, others, rfl⟩ := List.exists_cons_of_ne_nil nonempty
  have isDigit := allDigits first List.mem_cons_self
  have startsWithDigit :
      (first :: others ++ rest).head?.any Char.isDigit = true :=
    isDigit
  have read : hyphen previous (first :: others ++ rest) = .ok result := read
  rw [hyphen, notOperand, if_neg Bool.false_ne_true,
    if_pos startsWithDigit] at read
  exact number_of_run allDigits ends read

/-- The tokens of a hyphen and digits, given the character before the hyphen. -/
def hyphenated
    (previous : Option Char)
    (location : Location)
    (digits : List Char) :
    List Token :=
  if previous.any endsOperand then
    [⟨.arithmetic, "-", location⟩,
      ⟨.number, String.ofList digits, location.advanceOver ['-']⟩]
  else
    [⟨.number, String.ofList ('-' :: digits), location⟩]

/-- A scan that goes on with a hyphen and digits starts with their tokens. -/
theorem hyphenated_of_tokens
    (nonempty : digits ≠ [])
    (allDigits : ∀ character ∈ digits, character.isDigit = true)
    (ends : ∀ character ∈ rest.head?, character.isDigit = false)
    (read :
      tokens previous location nesting ('-' :: (digits ++ rest)) =
        .ok scanned) :
    ∃ back, scanned = hyphenated previous location digits ++ back := by
  by_cases isOperand : previous.any endsOperand = true
  · rw [hyphenated, if_pos isOperand]
    obtain ⟨nesting, others, goesOn, rfl⟩ :=
      exists_of_tokens_ok read (by decide) fun result piecewise =>
        Except.ok.inj (piecewise.symm.trans (piece_of_hyphen isOperand))
    have spelled : Token.spelling ⟨.arithmetic, "-", location⟩ = ['-'] := by
      rw [Token.spelling_of_ne_text (by decide)]
      decide
    rw [spelled] at goesOn
    obtain ⟨first, more, rfl⟩ := List.exists_cons_of_ne_nil nonempty
    have isDigit := allDigits first List.mem_cons_self
    obtain ⟨_, back, _, rfl⟩ :=
      exists_of_tokens_ok goesOn (isBlank_of_isDigit isDigit)
        fun result piecewise => piece_of_digits allDigits ends piecewise
    exact ⟨back, rfl⟩
  · rw [hyphenated, if_neg isOperand]
    obtain ⟨_, back, _, rfl⟩ :=
      exists_of_tokens_ok read (by decide) fun result piecewise =>
        piece_of_sign (Bool.eq_false_iff.mpr isOperand) nonempty allDigits
          ends piecewise
    exact ⟨back, rfl⟩

/-- Settling words leaves the tokens of a hyphen and digits alone. -/
theorem map_settle_hyphenated
    (assigned : List String) :
    (hyphenated previous location digits).map (Naming.settle assigned) =
      hyphenated previous location digits := by
  unfold hyphenated
  split
  · rfl
  · rfl

/-- The last character of a word ends an operand unless it is an underscore. -/
theorem endsOperand_getLast
    {name : String}
    (isWord : IsWord name) :
    name.toList.getLast?.any endsOperand = true ↔
      name.toList.getLast? ≠ some '_' := by
  obtain ⟨first, isFirst, _⟩ := isWord.starts
  have nonempty : name.toList ≠ [] :=
    List.ne_nil_of_mem (List.mem_of_mem_head? isFirst)
  have accepted :=
    List.all_eq_true.mp isWord.continues _ (List.getLast_mem nonempty)
  rw [List.getLast?_eq_some_getLast nonempty]
  generalize name.toList.getLast nonempty = last at accepted
  constructor
  · rintro isOperand isUnderscore
    cases isUnderscore
    cases isOperand
  · intro notUnderscore
    rcases (Bool.or_eq_true ..).mp accepted with isAlphanum | isUnderscore
    · exact (Bool.or_eq_true ..).mpr (.inl isAlphanum)
    · rw [eq_of_beq isUnderscore] at notUnderscore
      exact (notUnderscore rfl).elim

/--
After a name, the last character decides: an underscore makes a sign of the
hyphen, and a letter or a digit a subtraction.
-/
theorem hyphenated_of_isWord
    {name : String}
    (isWord : IsWord name)
    (passed digits : List Char) :
    hyphenated name.toList.getLast? (.after passed) digits =
      if name.toList.getLast? = some '_' then
        [⟨.number, String.ofList ('-' :: digits), .after passed⟩]
      else
        [⟨.arithmetic, "-", .after passed⟩,
          ⟨.number, String.ofList digits, .after (passed ++ ['-'])⟩] := by
  have isOperand := endsOperand_getLast isWord
  by_cases isUnderscore : name.toList.getLast? = some '_'
  · rw [hyphenated, if_neg fun operand => isOperand.mp operand isUnderscore,
      if_pos isUnderscore]
  · rw [hyphenated, if_pos (isOperand.mpr isUnderscore), if_neg isUnderscore,
      ← Location.advance_after]
    rfl

end Scan

/-- Words that are assigned keep their class. -/
theorem Naming.settle_of_mem
    {assigned : List String}
    {token : Token}
    (isAssigned : token.lexeme ∈ assigned) :
    settle assigned token = token := by
  unfold settle
  rw [if_neg]
  rintro ⟨_, notAssigned⟩
  exact notAssigned (List.contains_iff_mem.mpr isAssigned)

/--
A name, a hyphen and digits stand next to each other in a text: outside string
literals, and name and digits are whole runs of their characters.
-/
structure NameHyphenDigits
    (source : String)
    (before : List Char)
    (name : String)
    (digits after : List Char) :
    Prop where
  text : source.toList = before ++ (name.toList ++ '-' :: (digits ++ after))
  outside : Even (before.count '"')
  starts : ∀ character ∈ before.getLast?, Scan.isWordCharacter character = false
  isName : IsName name
  nonempty : digits ≠ []
  allDigits : ∀ character ∈ digits, character.isDigit = true
  ends : ∀ character ∈ after.head?, character.isDigit = false

/--
Where a name, a hyphen and digits stand, a scan has the token of the name and
those of a hyphen after it.
-/
theorem NameHyphenDigits.scanned
    {source : String}
    {before digits after : List Char}
    {name : String}
    (stands : NameHyphenDigits source before name digits after)
    {tokens : List Token}
    (read : scan source = .ok tokens) :
    ∃ front back,
      tokens =
        front ++
          ⟨.identifier, name, .after before⟩ ::
            Scan.hyphenated name.toList.getLast?
              (.after (before ++ name.toList)) digits ++
          back := by
  obtain ⟨letter, isHead, isAlpha⟩ := stands.isName.starts
  have leads : Scan.LeadsTo letter before :=
    ⟨isAlpha, stands.outside, stands.starts⟩
  rw [scan, stands.text] at read
  obtain ⟨front, back, previous, nesting, rfl, atName⟩ :=
    Scan.exists_tokens_of_leadsTo leads
      (List.mem_head?_append_of_mem_head? isHead) read
  have hyphenEnds :
      ∀ character ∈ ('-' :: (digits ++ after)).head?,
        Scan.isWordCharacter character = false := by
    rintro _ ⟨⟩
    decide
  have readsName :
      Scan.ReadsAs previous name.toList (Scan.wordKind name) name
        ('-' :: (digits ++ after)) :=
    Scan.readsAs_word stands.isName.toIsWord hyphenEnds
  rw [stands.isName.wordKind_eq] at readsName
  obtain ⟨first, others, shape, notBlank, piecewise⟩ := readsName
  rw [shape] at atName
  obtain ⟨nesting, back, atHyphen, rfl⟩ :=
    Scan.exists_of_tokens_ok atName notBlank fun result read =>
      Except.ok.inj (read.symm.trans piecewise)
  rw [Token.spelling_of_ne_text (by decide), ← Location.advanceOver_append,
    Location.advanceOver_start] at atHyphen
  obtain ⟨back, rfl⟩ :=
    Scan.hyphenated_of_tokens stands.nonempty stands.allDigits
      stands.ends atHyphen
  rw [Location.advanceOver_start]
  exact ⟨front, back, (List.append_assoc front (_ :: _) back).symm⟩

/--
Where a name, a hyphen and digits stand next to each other and the name is
assigned, the name is read as a variable.  The hyphen subtracts the digits,
except after a name that ends with an underscore: there it is the sign of the
number.
-/
theorem tokens_of_name_hyphen_digits
    {source : String}
    {before digits after : List Char}
    {name : String}
    {tokens : List Token}
    (scanned : tokenize source = .ok tokens)
    (stands : NameHyphenDigits source before name digits after)
    (isAssigned : name ∈ Naming.assigned tokens) :
    ∃ front back,
      tokens =
        front ++
          ⟨.identifier, name, .after before⟩ ::
            (if name.toList.getLast? = some '_' then
                [⟨.number, String.ofList ('-' :: digits),
                  .after (before ++ name.toList)⟩]
              else
                [⟨.arithmetic, "-", .after (before ++ name.toList)⟩,
                  ⟨.number, String.ofList digits,
                    .after (before ++ name.toList ++ ['-'])⟩]) ++
          back := by
  obtain ⟨provisional, read, rfl⟩ := exists_scan_of_tokenize scanned
  rw [Naming.assigned_map_settle
    (List.Subset.refl (Naming.assigned provisional))] at isAssigned
  obtain ⟨front, back, shape⟩ := stands.scanned read
  have isVariable :
      Naming.settle (Naming.assigned provisional)
        ⟨.identifier, name, .after before⟩ =
        ⟨.identifier, name, .after before⟩ :=
    Naming.settle_of_mem isAssigned
  refine ⟨front.map (Naming.settle (Naming.assigned provisional)),
    back.map (Naming.settle (Naming.assigned provisional)), ?_⟩
  generalize Naming.assigned provisional = assigned at isVariable
  rw [shape, List.map_append, List.map_append, List.map_cons, isVariable,
    Scan.map_settle_hyphenated,
    Scan.hyphenated_of_isWord stands.isName.toIsWord]

/--
The name ends with a digit, and the same signs stand in a string literal before
it.
-/
theorem tokens_of_name_hyphen_digits_after_text :
    let source := "x_2 <- 7\nok <- IsBrushColor(\"x_2-1\")==(x_2-10)"
    let before := "x_2 <- 7\nok <- IsBrushColor(\"x_2-1\")==(".toList
    let tokens : List Token :=
      [⟨.identifier, "x_2", ⟨1, 1⟩⟩, ⟨.assignment, "<-", ⟨1, 5⟩⟩,
        ⟨.number, "7", ⟨1, 8⟩⟩, ⟨.identifier, "ok", ⟨2, 1⟩⟩,
        ⟨.assignment, "<-", ⟨2, 4⟩⟩, ⟨.function, "IsBrushColor", ⟨2, 7⟩⟩,
        ⟨.punctuation, "(", ⟨2, 19⟩⟩, ⟨.text, "x_2-1", ⟨2, 20⟩⟩,
        ⟨.punctuation, ")", ⟨2, 27⟩⟩, ⟨.boolean, "==", ⟨2, 28⟩⟩,
        ⟨.punctuation, "(", ⟨2, 30⟩⟩, ⟨.identifier, "x_2", ⟨2, 31⟩⟩,
        ⟨.arithmetic, "-", ⟨2, 34⟩⟩, ⟨.number, "10", ⟨2, 35⟩⟩,
        ⟨.punctuation, ")", ⟨2, 37⟩⟩]
    tokenize source = .ok tokens ∧
      NameHyphenDigits source before "x_2" ['1', '0'] [')'] ∧
        "x_2" ∈ Naming.assigned tokens ∧
          ∃ front back,
            tokens =
              front ++
                [⟨.identifier, "x_2", ⟨2, 31⟩⟩, ⟨.arithmetic, "-", ⟨2, 34⟩⟩,
                  ⟨.number, "10", ⟨2, 35⟩⟩] ++
                back := by
  intro source before tokens
  have scanned : tokenize source = .ok tokens := by
    decide +kernel
  have last : before.getLast? = some '(' := by
    decide
  have stands : NameHyphenDigits source before "x_2" ['1', '0'] [')'] :=
    { text := by decide
      outside := by decide
      starts := by
        intro character isLast
        cases last.symm.trans isLast
        rfl
      isName := ⟨⟨⟨_, rfl, rfl⟩, by decide⟩, by decide, by decide, by decide⟩
      nonempty := List.cons_ne_nil _ _
      allDigits := List.all_eq_true.mp rfl
      ends := by
        rintro _ ⟨⟩
        rfl }
  have isAssigned : "x_2" ∈ Naming.assigned tokens := by
    decide
  exact ⟨scanned, stands, isAssigned,
    tokens_of_name_hyphen_digits scanned stands isAssigned⟩

/-- After a name that ends with an underscore nothing is subtracted. -/
theorem no_subtraction_after_underscore :
    let source := "a_ <- 3\ny <- a_-1"
    let tokens : List Token :=
      [⟨.identifier, "a_", ⟨1, 1⟩⟩, ⟨.assignment, "<-", ⟨1, 4⟩⟩,
        ⟨.number, "3", ⟨1, 7⟩⟩, ⟨.identifier, "y", ⟨2, 1⟩⟩,
        ⟨.assignment, "<-", ⟨2, 3⟩⟩, ⟨.identifier, "a_", ⟨2, 6⟩⟩,
        ⟨.number, "-1", ⟨2, 8⟩⟩]
    tokenize source = .ok tokens ∧
      NameHyphenDigits source "a_ <- 3\ny <- ".toList "a_" ['1'] [] ∧
        "a_" ∈ Naming.assigned tokens ∧
          ¬ ∃ token ∈ tokens, token.kind = .arithmetic := by
  intro source tokens
  have last : "a_ <- 3\ny <- ".toList.getLast? = some ' ' := by
    decide
  have stands : NameHyphenDigits source "a_ <- 3\ny <- ".toList "a_" ['1'] [] :=
    { text := by decide
      outside := by decide
      starts := by
        intro character isLast
        cases last.symm.trans isLast
        rfl
      isName := ⟨⟨⟨_, rfl, rfl⟩, by decide⟩, by decide, by decide, by decide⟩
      nonempty := List.cons_ne_nil _ _
      allDigits := List.all_eq_true.mp rfl
      ends := by
        rintro _ ⟨⟩ }
  exact ⟨by decide +kernel, stands, by decide, by decide⟩

end PixelBrush
