import Mathlib.Data.List.Induction
import PixelBrush.Proofs.ScannedTokens

namespace PixelBrush

/-!
# Where tokens stand

Scanning loses nothing of a text but the blanks between its tokens.  Each token
is spelled in the text exactly where its place says: the line counts the line
breaks before it, and the column the characters since the last of them.  So the
places of tokens increase strictly.
-/

namespace Location

/-- The place after a text, counted in its characters. -/
def after (characters : List Char) : Location where
  line := 1 + characters.count '\n'
  column := 1 + (characters.reverse.takeWhile (· != '\n')).length

/-- The first place comes strictly before the second in reading order. -/
def Before (first second : Location) : Prop :=
  first.line < second.line ∨
    first.line = second.line ∧ first.column < second.column

/-- The place after a text advances with one more character. -/
theorem advance_after
    (characters : List Char)
    (character : Char) :
    (after characters).advance character =
      after (characters ++ [character]) := by
  by_cases isBreak : character = '\n'
  · subst isBreak
    simp [advance, after, Nat.add_assoc]
  · simp [advance, after, isBreak, Nat.add_comm]

/-- Advancing over a text leads to the place that its characters count. -/
theorem advanceOver_start (characters : List Char) :
    start.advanceOver characters = after characters := by
  induction characters using List.reverseRecOn with
  | nil =>
      rfl
  | append_singleton characters character inductionHypothesis =>
      rw [advanceOver_append, inductionHypothesis, ← advance_after]
      rfl

/-- The order of places is transitive. -/
theorem Before.trans
    {first second third : Location}
    (earlier : first.Before second)
    (later : second.Before third) :
    first.Before third := by
  unfold Before at *
  omega

/-- Every character leads to a later place. -/
theorem before_advance
    (location : Location)
    (character : Char) :
    location.Before (location.advance character) := by
  by_cases isBreak : character = '\n'
  · simp [Before, advance, isBreak]
  · simp [Before, advance, isBreak]

/-- Whatever is advanced over lies behind. -/
theorem before_advanceOver
    (location : Location)
    {characters : List Char}
    (nonempty : characters ≠ []) :
    location.Before (location.advanceOver characters) := by
  induction characters generalizing location with
  | nil =>
      exact (nonempty rfl).elim
  | cons first rest inductionHypothesis =>
      have step := location.before_advance first
      cases rest with
      | nil =>
          exact step
      | cons second others =>
          have beyond :=
            inductionHypothesis (location.advance first)
              (List.cons_ne_nil second others)
          exact step.trans beyond

end Location

/-! ## Pieces are spelled as they are read -/

namespace Scan

variable
  {characters : List Char}
  {result : Piece}

/-- What a piece and its place spell is what was read. -/
def Piece.Spells (piece : Piece) (characters : List Char) : Prop :=
  ∀ location,
    Token.spelling ⟨piece.kind, piece.lexeme, location⟩ ++ piece.rest =
    characters

/-- A string literal is spelled with its quotes. -/
theorem text_spells
    (read : text characters = .ok result) :
    result.Spells ('"' :: characters) := by
  unfold text at read
  dsimp only at read
  split at read
  · rename_i rest shape
    cases read
    intro location
    have inside :=
      List.prefix_iff_eq_append.mp
        (List.takeWhile_prefix (l := characters) fun character =>
          character != '"' && character != '\n')
    rw [shape] at inside
    simpa [Token.spelling] using inside
  · cases read

/-- A number is spelled with its sign. -/
theorem number_spells
    {sign : List Char}
    (read : number sign characters = .ok result) :
    result.Spells (sign ++ characters) := by
  unfold number at read
  dsimp only at read
  split at read
  · cases read
  · split at read
    · cases read
    · cases read
      intro location
      simp [Token.spelling]

/-- A word is spelled as it is read. -/
theorem word_spells (characters : List Char) :
    (word characters).Spells characters := by
  intro location
  rw [word, Token.spelling_of_ne_text (wordKind_ne_text _),
    String.toList_ofList, List.takeWhile_append_dropWhile]

/-- A symbol is spelled as it is read. -/
theorem symbol_spells
    {first : Char}
    (read : symbol first characters = .ok result) :
    result.Spells (first :: characters) := by
  have listed := symbol_listed read
  unfold symbol at read
  split at read
  · rename_i spelling kind found
    cases read
    intro location
    have accepted := List.find?_some found
    have starts : spelling <+: first :: characters :=
      List.isPrefixOf_iff_prefix.mp accepted
    rw [Token.spelling_of_ne_text (ne_text_of_listed listed),
      String.toList_ofList]
    exact List.prefix_iff_eq_append.mp starts
  · split at read <;> cases read

/--
A piece is spelled by the characters from its first one up to what it leaves.
-/
theorem Reads.spells
    {first : Char}
    (reads : Reads first characters result) :
    result.Spells (first :: characters) := by
  cases reads with
  | text read =>
      exact text_spells read
  | number _ shape read =>
      rw [shape]
      exact number_spells read
  | word =>
      exact word_spells _
  | symbol read =>
      exact symbol_spells read

/-- A token is spelled with at least one character. -/
theorem spelling_ne_nil
    {previous : Option Char}
    {first : Char}
    (read : piece previous first characters = .ok result)
    (location : Location) :
    Token.spelling ⟨result.kind, result.lexeme, location⟩ ≠ [] := by
  intro empty
  have whole := (piece_reads read).spells location
  have shorter := piece_rest_length read
  rw [empty, List.nil_append] at whole
  rw [whole] at shorter
  exact Nat.not_succ_le_self _ shorter

end Scan

/-! ## Tokens in a text -/

/--
The text from a place on holds these tokens: each follows a run of blanks and is
spelled where it stands, and nothing but blanks comes after the last one.
-/
inductive Lays : Location → List Char → List Token → Prop where
  | nil
      {location : Location}
      {blanks : List Char}
      (blank : ∀ character ∈ blanks, isBlank character = true) :
      Lays location blanks []
  | cons
      {location : Location}
      {blanks rest : List Char}
      {token : Token}
      {tokens : List Token}
      (blank : ∀ character ∈ blanks, isBlank character = true)
      (placed : token.location = location.advanceOver blanks)
      (spelled : token.spelling ≠ [])
      (others : Lays (token.location.advanceOver token.spelling) rest tokens) :
      Lays location (blanks ++ (token.spelling ++ rest)) (token :: tokens)

namespace Lays

variable
  {location : Location}
  {characters : List Char}
  {tokens : List Token}

/-- One more blank at the start moves no token. -/
theorem blank
    {first : Char}
    (isBlank : isBlank first = true)
    (lays : Lays (location.advance first) characters tokens) :
    Lays location (first :: characters) tokens := by
  cases lays with
  | nil blank =>
      exact .nil (List.forall_mem_cons.mpr ⟨isBlank, blank⟩)
  | cons blank placed spelled others =>
      rw [← List.cons_append]
      exact .cons (List.forall_mem_cons.mpr ⟨isBlank, blank⟩) placed
        spelled others

/-- Classes may change, as long as spellings and places stay. -/
theorem map
    {change : Token → Token}
    (sameSpelling : ∀ token, (change token).spelling = token.spelling)
    (sameLocation : ∀ token, (change token).location = token.location)
    (lays : Lays location characters tokens) :
    Lays location characters (tokens.map change) := by
  induction lays with
  | nil blank =>
      exact .nil blank
  | @cons location blanks rest token tokens blank placed spelled others
    inductionHypothesis =>
      rw [List.map_cons, ← sameSpelling token]
      refine .cons blank ((sameLocation token).trans placed) ?_ ?_
      · rw [sameSpelling]
        exact spelled
      · rw [sameSpelling, sameLocation]
        exact inductionHypothesis

/-- Every token is reached by advancing over the text. -/
theorem advances
    (lays : Lays location characters tokens) :
    ∀ token ∈ tokens, ∃ passed,
      token.location = location.advanceOver passed := by
  induction lays with
  | nil =>
      nofun
  | @cons location blanks rest first tokens blank placed spelled others
    inductionHypothesis =>
      intro token member
      rcases List.mem_cons.mp member with rfl | inRest
      · exact ⟨blanks, placed⟩
      · obtain ⟨passed, later⟩ := inductionHypothesis token inRest
        refine ⟨blanks ++ (first.spelling ++ passed), ?_⟩
        rw [later, placed, Location.advanceOver_append,
          Location.advanceOver_append]

/-- Every token in a text is spelled with some character. -/
theorem spelled
    (lays : Lays location characters tokens) :
    ∀ token ∈ tokens, token.spelling ≠ [] := by
  induction lays with
  | nil =>
      nofun
  | cons _ _ spelled _ inductionHypothesis =>
      exact List.forall_mem_cons.mpr ⟨spelled, inductionHypothesis⟩

/-- Tokens stand in reading order. -/
theorem increasing
    (lays : Lays location characters tokens) :
    tokens.Pairwise fun first second =>
      first.location.Before second.location := by
  induction lays with
  | nil =>
      exact .nil
  | @cons location blanks rest first tokens blank placed spelled others
    inductionHypothesis =>
      refine .cons ?_ inductionHypothesis
      intro second member
      obtain ⟨passed, later⟩ := others.advances second member
      rw [later, ← Location.advanceOver_append]
      exact first.location.before_advanceOver
        (List.append_ne_nil_of_left_ne_nil spelled passed)

end Lays

/-- The scanner lays its tokens out over the whole text. -/
theorem Scan.tokens_lays
    {previous : Option Char}
    {location : Location}
    {nesting : Nesting}
    {characters : List Char}
    {scanned : List Token}
    (read : tokens previous location nesting characters = .ok scanned) :
    Lays location characters scanned := by
  have noBlanks : ∀ character ∈ ([] : List Char), isBlank character = true := by
    intro character member
    cases member
  fun_induction tokens previous location nesting characters
    generalizing scanned with
  | case1 previous location nesting =>
      obtain ⟨_, _, rfl⟩ := map_eq_ok read
      exact .nil noBlanks
  | case2 | case4 | case5 =>
      cases read
  | case3 =>
      rename_i isBlank _ _ inductionHypothesis
      exact .blank isBlank (inductionHypothesis read)
  | case6 previous location nesting first rest notBlank result piecewise =>
      rename_i token _ _ inductionHypothesis
      obtain ⟨others, later, rfl⟩ := map_eq_ok read
      have whole : token.spelling ++ result.rest = first :: rest :=
        (piece_reads piecewise).spells location
      rw [← whole, ← List.nil_append (token.spelling ++ result.rest)]
      exact .cons noBlanks rfl (spelling_ne_nil piecewise location)
        (inductionHypothesis later)

/-- The tokens of a source lie in its text, from its start on. -/
theorem lays_of_tokenize
    {source : String}
    {tokens : List Token}
    (scanned : tokenize source = .ok tokens) :
    Lays .start source.toList tokens := by
  obtain ⟨provisional, read, rfl⟩ := exists_scan_of_tokenize scanned
  exact (Scan.tokens_lays read).map (Naming.spelling_settle _)
    (Naming.location_settle _)

/-- The text of tokens, each after its run of blanks. -/
def written (pieces : List (List Char × Token)) : List Char :=
  pieces.flatMap fun piece => piece.1 ++ piece.2.spelling

/-- The runs of blanks in which tokens are laid out. -/
theorem Lays.exists_written
    {location : Location}
    {characters : List Char}
    {tokens : List Token}
    (lays : Lays location characters tokens) :
    ∃ pieces trailing,
      pieces.map Prod.snd = tokens ∧
        characters = written pieces ++ trailing ∧
        (∀ piece ∈ pieces, ∀ character ∈ piece.1, isBlank character = true) ∧
        (∀ character ∈ trailing, isBlank character = true) ∧
        ∀ earlier blanks token later,
          pieces = earlier ++ (blanks, token) :: later →
          token.location =
            location.advanceOver (written earlier ++ blanks) := by
  induction lays with
  | @nil location blanks blank =>
      refine ⟨[], blanks, rfl, rfl, nofun, blank, ?_⟩
      intro earlier others token later shape
      exact (List.append_ne_nil_of_right_ne_nil earlier
        (List.cons_ne_nil _ later)
        shape.symm).elim
  | @cons location blanks rest token tokens blank placed spelled others
    inductionHypothesis =>
      obtain ⟨pieces, trailing, sameTokens, text, blankPieces, blankEnd,
        places⟩ :=
        inductionHypothesis
      refine ⟨(blanks, token) :: pieces, trailing, ?_, ?_, ?_, blankEnd, ?_⟩
      · rw [List.map_cons, sameTokens]
      · rw [text]
        simp only [written, List.flatMap_cons, List.append_assoc]
      · exact List.forall_mem_cons.mpr ⟨blank, blankPieces⟩
      · intro earlier ownBlanks own later shape
        cases earlier with
        | nil =>
            cases shape
            exact placed
        | cons first earlier =>
            obtain ⟨rfl, inPieces⟩ := List.cons.inj shape
            rw [places earlier ownBlanks own later inPieces, placed,
              ← Location.advanceOver_append, ← Location.advanceOver_append]
            simp only [written, List.flatMap_cons, List.append_assoc]

/--
A text that has tokens is the spellings of its tokens, in order, with nothing
but blanks before, between and after them.  Each token has the place that the
characters before its first one count, and these places increase strictly.
-/
theorem written_of_tokenize
    {source : String}
    {tokens : List Token}
    (scanned : tokenize source = .ok tokens) :
    (∃ pieces trailing,
      pieces.map Prod.snd = tokens ∧
        source.toList = written pieces ++ trailing ∧
        (∀ piece ∈ pieces, ∀ character ∈ piece.1, isBlank character = true) ∧
        (∀ character ∈ trailing, isBlank character = true) ∧
        ∀ earlier blanks token later,
          pieces = earlier ++ (blanks, token) :: later →
          token.location = .after (written earlier ++ blanks)) ∧
    (∀ token ∈ tokens, token.spelling ≠ []) ∧
    tokens.Pairwise fun first second =>
      first.location.Before second.location := by
  have lays := lays_of_tokenize scanned
  refine ⟨?_, lays.spelled, lays.increasing⟩
  obtain ⟨pieces, trailing, sameTokens, text, blankPieces, blankEnd, places⟩ :=
    lays.exists_written
  refine ⟨pieces, trailing, sameTokens, text, blankPieces, blankEnd, ?_⟩
  intro earlier blanks token later shape
  rw [places earlier blanks token later shape, Location.advanceOver_start]

/--
Tabs, an empty line, an arrow inside a string and one against a negative number.
The last token stands on the fourth line after two blanks.
-/
theorem written_of_tokenize_string :
    let source := "n\t<--12\n\nColor(\"Grün <-\")\n  n2<=n \n"
    let tokens : List Token :=
      [⟨.identifier, "n", ⟨1, 1⟩⟩, ⟨.assignment, "<-", ⟨1, 3⟩⟩,
        ⟨.number, "-12", ⟨1, 5⟩⟩, ⟨.keyword, "Color", ⟨3, 1⟩⟩,
        ⟨.punctuation, "(", ⟨3, 6⟩⟩, ⟨.text, "Grün <-", ⟨3, 7⟩⟩,
        ⟨.punctuation, ")", ⟨3, 16⟩⟩, ⟨.label, "n2", ⟨4, 3⟩⟩,
        ⟨.boolean, "<=", ⟨4, 5⟩⟩, ⟨.identifier, "n", ⟨4, 7⟩⟩]
    tokenize source = .ok tokens ∧
      (∃ pieces trailing,
        pieces.map Prod.snd = tokens ∧
          source.toList = written pieces ++ trailing) ∧
      tokens.Pairwise fun first second =>
        first.location.Before second.location := by
  intro source tokens
  have scanned : tokenize source = .ok tokens := by
    decide +kernel
  obtain ⟨⟨pieces, trailing, sameTokens, text, _⟩, _, increasing⟩ :=
    written_of_tokenize scanned
  exact ⟨scanned, ⟨pieces, trailing, sameTokens, text⟩, increasing⟩

end PixelBrush
