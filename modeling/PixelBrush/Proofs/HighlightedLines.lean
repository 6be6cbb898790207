import PixelBrush.Proofs.PrintedNames
import PixelBrush.Source.Lines
import PixelBrush.Viewer.Highlight

namespace PixelBrush

/-!
# Highlighted lines

A line is cut into pieces that spell it.  A text is highlighted line by line,
and its spans have the places of their first characters.  The spans of what is
left of a text are those of the line ahead and of the lines below; a run of
characters that is cut off from the line ahead comes before all of them.
-/

namespace Highlight

/-! ## Characters -/

/-- No blank character is a letter or a digit of any script. -/
theorem blankRanges_apart :
    blankRanges.all (fun blank =>
      alphanumericRanges.all fun range =>
        decide (blank.2 < range.1 ∨ range.2 < blank.1)) = true := by
  decide +kernel

/-- In ASCII, highlighting and scanning make words of the same characters. -/
theorem isWordCharacter_of_ascii
    {character : Char}
    (ascii : character.toNat < 0x80) :
    isWordCharacter character = Scan.isWordCharacter character := by
  rw [isWordCharacter, isAlphanumeric, if_pos ascii]
  rfl

/--
Letters, digits and underscores lie between the first blanks and those beyond
ASCII.
-/
theorem toNat_of_scan
    {character : Char}
    (accepted : Scan.isWordCharacter character = true) :
    32 < character.toNat ∧ character.toNat < 0x80 := by
  rcases (Bool.or_eq_true ..).mp accepted with isAlphanum | isUnderscore
  · rcases (Bool.or_eq_true ..).mp isAlphanum with isAlpha | isDigit
    · have range := Scan.toNat_of_isAlpha isAlpha
      omega
    · have range := Scan.toNat_of_isDigit isDigit
      omega
  · rw [eq_of_beq isUnderscore]
    decide

/-- What makes words for the scanner also makes words here. -/
theorem isWordCharacter_of_scan
    {character : Char}
    (accepted : Scan.isWordCharacter character = true) :
    isWordCharacter character = true := by
  rw [isWordCharacter_of_ascii (toNat_of_scan accepted).2, accepted]

/--
A blank ends a word: in ASCII by its range, and beyond it since no ranges meet.
-/
theorem isWordCharacter_of_isBlank
    {character : Char}
    (blank : isBlank character = true) :
    isWordCharacter character = false := by
  rw [Bool.eq_false_iff]
  intro accepted
  by_cases ascii : character.toNat < 0x80
  · rw [isWordCharacter_of_ascii ascii] at accepted
    have range := toNat_of_scan accepted
    rw [Scan.isBlank_eq_false range.1 (by omega)] at blank
    cases blank
  · rw [isWordCharacter, isAlphanumeric, if_neg ascii] at accepted
    rcases (Bool.or_eq_true ..).mp accepted with isAlphanumeric | isUnderscore
    · obtain ⟨blanks, listed, inBlanks⟩ := List.any_eq_true.mp blank
      obtain ⟨letters, known, inLetters⟩ := List.any_eq_true.mp isAlphanumeric
      have apart :=
        of_decide_eq_true
          (List.all_eq_true.mp
            (List.all_eq_true.mp blankRanges_apart blanks listed) letters known)
      simp only [Bool.and_eq_true, decide_eq_true_eq] at inBlanks inLetters
      omega
    · rw [eq_of_beq isUnderscore] at ascii
      exact ascii (by decide)

/-! ## Pieces -/

variable {line : List Char}

/-- The pieces of a line spell it. -/
theorem text_pieces (line : List Char) :
    (pieces line).flatMap Prod.fst = line := by
  fun_induction pieces line with
  | case1 =>
      rfl
  | case2 rest inductionHypothesis =>
      rw [List.flatMap_cons, inductionHypothesis, List.cons_append,
        List.take_append_drop]
  | case3 first rest notQuote accepted word inductionHypothesis =>
      rw [List.flatMap_cons, inductionHypothesis, List.cons_append,
        List.takeWhile_append_dropWhile]
  | case4 first rest notQuote refused inductionHypothesis =>
      rw [List.flatMap_cons, inductionHypothesis]
      rfl

/-- A string literal at the start of a line is its first piece. -/
theorem pieces_literal
    {text : List Char}
    (unquoted : '"' ∉ text) :
    pieces ('"' :: (text ++ ['"']) ++ line) =
      ('"' :: (text ++ ['"']), Style.ofForeground Theme.string) ::
        pieces line := by
  have inside : (text ++ '"' :: line).takeWhile (· != '"') = text := by
    apply Scan.takeWhile_run
    · intro character member
      exact bne_iff_ne.mpr fun same => unquoted (same ▸ member)
    · intro character isHead
      cases isHead
      rfl
  have length :
      literalLength (text ++ '"' :: line) = (text ++ ['"']).length := by
    rw [literalLength, inside, List.length_append]
    rfl
  have shape : text ++ '"' :: line = (text ++ ['"']) ++ line := by
    rw [List.append_assoc]
    rfl
  rw [List.cons_append, ← shape, pieces, if_pos rfl, length, shape,
    List.take_left', List.drop_left']
  · rfl
  · rfl

/-- A word that ends is a piece, in the style of this word. -/
theorem pieces_word
    {word : List Char}
    (nonempty : word ≠ [])
    (all : ∀ character ∈ word, isWordCharacter character = true)
    (ends : ∀ character ∈ line.head?, isWordCharacter character = false) :
    pieces (word ++ line) = (word, wordStyle word) :: pieces line := by
  obtain ⟨first, others, rfl⟩ := List.exists_cons_of_ne_nil nonempty
  obtain ⟨accepted, allOthers⟩ := List.forall_mem_cons.mp all
  have notQuote : first ≠ '"' := by
    rintro rfl
    cases accepted
  rw [List.cons_append, pieces, if_neg notQuote, if_pos accepted]
  dsimp only
  rw [Scan.takeWhile_run allOthers ends, Scan.dropWhile_run allOthers ends]

/--
A character that is in no word and opens no literal is a piece of its own.
-/
theorem pieces_symbol
    {character : Char}
    (notQuote : character ≠ '"')
    (refused : isWordCharacter character = false) :
    pieces (character :: line) =
      ([character], symbolStyle character) :: pieces line := by
  rw [pieces, if_neg notQuote, if_neg (Bool.eq_false_iff.mp refused)]

/-- A symbol of several characters is cut into one piece for each. -/
theorem pieces_symbols
    {symbol : List Char}
    (all :
      ∀ character ∈ symbol,
        character ≠ '"' ∧ isWordCharacter character = false) :
    pieces (symbol ++ line) =
      symbol.map (fun character => ([character], symbolStyle character)) ++
        pieces line := by
  induction symbol with
  | nil =>
      rfl
  | cons first others inductionHypothesis =>
      obtain ⟨⟨notQuote, refused⟩, allOthers⟩ := List.forall_mem_cons.mp all
      rw [List.cons_append, pieces_symbol notQuote refused,
        inductionHypothesis allOthers]
      rfl

end Highlight

/-! ## The line ahead -/

namespace Lines

/-- What is left of the line that a text starts in. -/
def ahead (characters : List Char) : List Char :=
  (split [] characters).headD []

/-- The lines after the one that a text starts in. -/
def below (characters : List Char) : List (List Char) :=
  (split [] characters).tail

variable
  {current run rest : List Char}

/-- A line that does not end with a carriage return is kept as it is. -/
theorem dropReturn_of_head?_ne
    (noReturn : current.head? ≠ some '\r') :
    dropReturn current = current := by
  unfold dropReturn
  split
  · exact absurd rfl noReturn
  · rfl

/--
The start of a line is kept, unless it ends in the first half of a line end.
-/
theorem split_of_started
    (started : current ≠ [])
    (whole : current.head? = some '\r' → rest.head? ≠ some '\n') :
    split current rest = (current.reverse ++ ahead rest) :: below rest := by
  induction rest generalizing current with
  | nil =>
      have notEmpty : current.isEmpty = false :=
        List.isEmpty_eq_false_iff.mpr started
      simp [split, notEmpty, ahead, below]
  | cons character rest inductionHypothesis =>
      by_cases isBreak : character = '\n'
      · subst isBreak
        rw [split, if_pos rfl,
          dropReturn_of_head?_ne fun isReturn => whole isReturn rfl]
        exact congrArg (· :: split [] rest) (List.append_nil _).symm
      · by_cases isEnd : character = '\r' ∧ rest.head? = some '\n'
        · -- The carriage return goes with the line feed after it.
          obtain ⟨rfl, follows⟩ := isEnd
          obtain ⟨others, rfl⟩ := List.head?_eq_some_iff.mp follows
          exact congrArg (· :: split [] others) (List.append_nil _).symm
        · have longer (before : List Char) :
              split (character :: before) rest =
                ((character :: before).reverse ++ ahead rest) ::
                  below rest := by
            refine inductionHypothesis (List.cons_ne_nil character before) ?_
            intro isReturn follows
            exact isEnd ⟨Option.some.inj isReturn, follows⟩
          simp only [split, if_neg isBreak, longer, ahead, below]
          simp

/-- Characters without a line break are added to the current line. -/
theorem split_run
    (oneLine : '\n' ∉ run) :
    split current (run ++ rest) = split (run.reverse ++ current) rest := by
  induction run generalizing current with
  | nil =>
      rfl
  | cons first others inductionHypothesis =>
      have notBreak : first ≠ '\n' :=
        fun same => oneLine (same ▸ List.mem_cons_self)
      have othersOneLine : '\n' ∉ others :=
        fun member => oneLine (List.mem_cons_of_mem _ member)
      rw [List.cons_append, split, if_neg notBreak,
        inductionHypothesis othersOneLine, List.reverse_cons, List.append_assoc]
      rfl

/--
A run of characters that leaves the line end whole only makes the line ahead
longer.
-/
theorem ahead_below_run
    (started : run ≠ [])
    (oneLine : '\n' ∉ run)
    (whole : run.getLast? = some '\r' → rest.head? ≠ some '\n') :
    ahead (run ++ rest) = run ++ ahead rest ∧
      below (run ++ rest) = below rest := by
  have lines : split [] (run ++ rest) = (run ++ ahead rest) :: below rest := by
    rw [split_run oneLine, List.append_nil,
      split_of_started (List.reverse_ne_nil_iff.mpr started)
        (by rwa [List.head?_reverse]),
      List.reverse_reverse]
  constructor
  · rw [ahead, lines]
    rfl
  · rw [below, lines]
    rfl

/-- A character that starts no line break belongs to the line ahead. -/
theorem ahead_below_cons
    {first : Char}
    (notBreak : first ≠ '\n')
    (whole : ¬ (first = '\r' ∧ rest.head? = some '\n')) :
    ahead (first :: rest) = first :: ahead rest ∧
      below (first :: rest) = below rest := by
  rw [← List.singleton_append]
  refine ahead_below_run (List.cons_ne_nil first []) ?_ ?_
  · exact fun member => notBreak (List.mem_singleton.mp member).symm
  · exact fun isReturn follows => whole ⟨Option.some.inj isReturn, follows⟩

/-- The line ahead starts as the text does. -/
theorem head?_of_ahead
    {character : Char}
    (isHead : character ∈ (ahead rest).head?) :
    character ∈ rest.head? := by
  cases rest with
  | nil =>
      cases isHead
  | cons first others =>
      by_cases isBreak : first = '\n'
      · subst isBreak
        cases isHead
      · by_cases isEnd : first = '\r' ∧ others.head? = some '\n'
        · obtain ⟨rfl, follows⟩ := isEnd
          obtain ⟨later, rfl⟩ := List.head?_eq_some_iff.mp follows
          cases isHead
        · rw [(ahead_below_cons isBreak isEnd).1] at isHead
          exact isHead

end Lines

/-! ## Highlighted texts -/

/--
Spans one after the other in a line, each at the place of its first character.
-/
def placeSpans (location : Location) : List Span → List (Location × Span)
  | [] => []
  | span :: rest =>
      (location, span) ::
        placeSpans ⟨location.line, location.column + span.text.length⟩ rest

/-- The spans of highlighted lines, the first of which has the given number. -/
def placeLines (number : Nat) : List (List Char) → List (Location × Span)
  | [] => []
  | line :: rest =>
      placeSpans ⟨number, 1⟩ (highlight line) ++ placeLines (number + 1) rest

/-- The spans of a text that is highlighted line by line. -/
def highlighted (source : String) : List (Location × Span) :=
  placeLines 1 (textLines source)

/-- The spans of what is left of a text, from a place on. -/
def highlightedFrom
    (location : Location)
    (characters : List Char) :
    List (Location × Span) :=
  placeSpans location (highlight (Lines.ahead characters)) ++
    placeLines (location.line + 1) (Lines.below characters)

/-- An empty line has no spans. -/
theorem highlight_nil : highlight [] = [] := by
  rw [highlight, Highlight.pieces]
  rfl

/-- Line by line, the spans of a text are those of what is left at its start. -/
theorem placeLines_split
    (number : Nat)
    (characters : List Char) :
    placeLines number (Lines.split [] characters) =
      highlightedFrom ⟨number, 1⟩ characters := by
  unfold highlightedFrom Lines.ahead Lines.below
  cases Lines.split [] characters with
  | nil =>
      rw [List.headD_nil, highlight_nil]
      rfl
  | cons line rest =>
      rfl

/-- Spans are placed after the texts of the spans before them. -/
theorem placeSpans_append
    (location : Location)
    (first second : List Span) :
    placeSpans location (first ++ second) =
      placeSpans location first ++
        placeSpans
          ⟨location.line,
            location.column + (first.flatMap (·.text.toList)).length⟩
            second := by
  induction first generalizing location with
  | nil =>
      rfl
  | cons span rest inductionHypothesis =>
      rw [List.cons_append, placeSpans, inductionHypothesis, placeSpans,
        List.flatMap_cons, List.length_append, String.length_toList,
        Nat.add_assoc]
      rfl

/-- The spans of a line spell the line. -/
theorem text_highlight (line : List Char) :
    (highlight line).flatMap (fun span => span.text.toList) = line := by
  rw [highlight, List.flatMap_map]
  simp only [String.toList_ofList]
  exact Highlight.text_pieces line

/-- What is cut off at the start of a line comes before the rest of the text. -/
theorem highlightedFrom_run
    (location : Location)
    {run rest : List Char}
    {spans : List Span}
    (started : run ≠ [])
    (oneLine : '\n' ∉ run)
    (whole : run.getLast? = some '\r' → rest.head? ≠ some '\n')
    (cut :
      highlight (run ++ Lines.ahead rest) =
        spans ++ highlight (Lines.ahead rest)) :
    highlightedFrom location (run ++ rest) =
      placeSpans location spans ++
        highlightedFrom (location.advanceOver run) rest := by
  obtain ⟨ahead, below⟩ := Lines.ahead_below_run started oneLine whole
  have spelled : spans.flatMap (fun span => span.text.toList) = run := by
    have texts := text_highlight (run ++ Lines.ahead rest)
    rw [cut, List.flatMap_append, text_highlight] at texts
    exact List.append_cancel_right texts
  rw [highlightedFrom, ahead, below, cut, placeSpans_append, spelled,
    List.append_assoc, Location.advanceOver_of_oneLine oneLine]
  rfl

/-- At the end of a line the next one is ahead. -/
theorem highlightedFrom_of_ended
    (location : Location)
    (characters rest : List Char)
    (ended : Lines.split [] characters = [] :: Lines.split [] rest) :
    highlightedFrom location characters =
      highlightedFrom ⟨location.line + 1, 1⟩ rest := by
  rw [← placeLines_split, highlightedFrom, Lines.ahead, Lines.below, ended,
    List.headD_cons, highlight_nil]
  rfl

end PixelBrush
