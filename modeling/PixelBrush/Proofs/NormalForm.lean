import PixelBrush.Proofs.NamesApart
import PixelBrush.Proofs.TokenShapes

namespace PixelBrush

/-!
# A normal form of texts

The normal form of a text has every token on the line it had, after one space.
It has the tokens of the text again, up to their columns.  Since the space comes
before each token, no line starts with a hyphen or a digit, no hyphen follows an
operand, and no two tokens run into each other.  What is open at a token, and
which words stand alone or before an arrow, depends on classes, texts and lines
only.
-/

namespace Token

/-- What there is to a token besides its column. -/
def outline (token : Token) : TokenKind × String × Nat :=
  (token.kind, token.lexeme, token.location.line)

/-- Tokens have the same outline if they differ at most in their columns. -/
theorem outline_eq_iff
    {first second : Token} :
    first.outline = second.outline ↔
      first.kind = second.kind ∧
        first.lexeme = second.lexeme ∧
          first.location.line = second.location.line := by
  simp only [outline, Prod.mk.injEq]

end Token

/--
Tokens each on its own line after one space, given the line that is reached.
-/
def respaced (line : Nat) : List Token → List Char
  | [] => []
  | token :: tokens =>
      List.replicate (token.location.line - line) '\n' ++
        ' ' :: (token.spelling ++ respaced token.location.line tokens)

/-- The text with every token on its line after one space. -/
def normalForm (tokens : List Token) : String :=
  String.ofList (respaced 1 tokens)

/-! ## Nesting up to places -/

namespace Scan.Nesting

/-- How many parentheses and brackets are open. -/
def depths (nesting : Nesting) : Nat × Nat :=
  (nesting.parentheses.length, nesting.brackets.length)

variable
  {nesting other later : Nesting}
  {token next : Token}

/-- Whether a token can be added depends on depths, its class and its text. -/
theorem after_of_depths_eq
    (done : nesting.after token = .ok later)
    (sameDepths : other.depths = nesting.depths)
    (sameKind : next.kind = token.kind)
    (sameLexeme : next.lexeme = token.lexeme) :
    ∃ otherLater,
      other.after next = .ok otherLater ∧ otherLater.depths = later.depths := by
  obtain ⟨parentheses, brackets⟩ := nesting
  obtain ⟨otherParentheses, otherBrackets⟩ := other
  obtain ⟨sameParentheses, sameBrackets⟩ := Prod.mk.inj sameDepths
  dsimp only at sameParentheses sameBrackets
  unfold after at done ⊢
  rw [sameKind, sameLexeme]
  split at done
  · rename_i plain
    cases done
    rw [if_pos plain]
    exact ⟨_, rfl, sameDepths⟩
  · rename_i punctuation
    rw [if_neg punctuation]
    split at done
    · rename_i opens
      cases done
      rw [if_pos opens]
      exact ⟨_, rfl, Prod.ext (congrArg (· + 1) sameParentheses) sameBrackets⟩
    · rename_i notOpening
      rw [if_neg notOpening]
      split at done
      · rename_i opens
        cases done
        rw [if_pos opens]
        exact ⟨_, rfl, Prod.ext sameParentheses (congrArg (· + 1) sameBrackets)⟩
      · rename_i notBracket
        rw [if_neg notBracket]
        split at done
        · rename_i closes
          rw [if_pos closes]
          cases parentheses with
          | nil =>
              cases done
          | cons innermost outer =>
              cases done
              cases otherParentheses with
              | nil =>
                  cases sameParentheses
              | cons otherInnermost otherOuter =>
                  exact ⟨_, rfl,
                    Prod.ext (Nat.succ.inj sameParentheses) sameBrackets⟩
        · rename_i notClosing
          rw [if_neg notClosing]
          split at done
          · rename_i closes
            rw [if_pos closes]
            cases brackets with
            | nil =>
                cases done
            | cons innermost outer =>
                cases done
                cases otherBrackets with
                | nil =>
                    cases sameBrackets
                | cons otherInnermost otherOuter =>
                    exact ⟨_, rfl,
                      Prod.ext sameParentheses (Nat.succ.inj sameBrackets)⟩
          · rename_i other
            cases done
            rw [if_neg other]
            exact ⟨_, rfl, sameDepths⟩

/-- A text may end where nothing is open. -/
theorem close_eq_ok_iff :
    nesting.close = .ok () ↔ nesting.depths = (0, 0) := by
  obtain ⟨parentheses, brackets⟩ := nesting
  simp only [depths, Prod.mk.injEq, List.length_eq_zero_iff]
  cases brackets with
  | nil =>
      cases parentheses with
      | nil =>
          exact iff_of_true rfl ⟨rfl, rfl⟩
      | cons innermost outer =>
          simp [close, List.getLast?_cons]
  | cons innermost outer =>
      simp [close, List.getLast?_cons]

end Scan.Nesting

/-- The tokens of a text close all that they open. -/
theorem Scan.nested_of_tokens
    {previous : Option Char}
    {location : Location}
    {nesting : Nesting}
    {characters : List Char}
    {scanned : List Token}
    (read : tokens previous location nesting characters = .ok scanned) :
    ∃ after, nesting.afterAll scanned = .ok after ∧ after.close = .ok () := by
  fun_induction tokens previous location nesting characters
    generalizing scanned with
  | case1 previous location nesting =>
      obtain ⟨_, closed, rfl⟩ := map_eq_ok read
      exact ⟨nesting, rfl, closed⟩
  | case2 | case4 | case5 =>
      cases read
  | case3 =>
      rename_i inductionHypothesis
      exact inductionHypothesis read
  | case6 =>
      rename_i opened inductionHypothesis
      obtain ⟨others, later, rfl⟩ := map_eq_ok read
      obtain ⟨after, nested, closed⟩ := inductionHypothesis later
      refine ⟨after, ?_, closed⟩
      exact (congrArg (· >>= _) opened).trans nested

/-! ## Scanning the normal form -/

namespace Scan

variable
  {previous : Option Char}
  {location : Location}
  {nesting : Nesting}

/-- Line breaks and one space are passed over. -/
theorem tokens_lineBreaks
    (previous : Option Char)
    (location : Location)
    (nesting : Nesting)
    (count : Nat)
    (rest : List Char) :
    tokens previous location nesting
      (List.replicate count '\n' ++ ' ' :: rest) =
      tokens (some ' ')
        (location.advanceOver (List.replicate count '\n' ++ [' '])) nesting
        rest := by
  induction count generalizing previous location with
  | zero =>
      exact tokens_blank (by decide) rfl
  | succ count inductionHypothesis =>
      have startsWell :
          badLineStart? '\n' (List.replicate count '\n' ++ ' ' :: rest) =
            none := by
        cases count <;> rfl
      rw [List.replicate_succ, List.cons_append,
        tokens_blank (by decide) startsWell, inductionHypothesis]
      rfl

/-- Respaced text starts with a separator. -/
theorem separated_respaced
    (line : Nat)
    (scanned : List Token) :
    Separated (respaced line scanned) := by
  cases scanned with
  | nil =>
      nofun
  | cons token others =>
      rw [respaced]
      intro character isHead
      cases lines : token.location.line - line with
      | zero =>
          rw [lines] at isHead
          cases isHead
          decide
      | succ count =>
          rw [lines] at isHead
          cases isHead
          decide

/-- Line breaks lead as many lines down. -/
theorem line_advanceOver_lineBreaks
    (location : Location)
    (count : Nat) :
    (location.advanceOver (List.replicate count '\n' ++ [' '])).line =
      location.line + count := by
  induction count generalizing location with
  | zero =>
      rfl
  | succ count inductionHypothesis =>
      refine (inductionHypothesis (location.advance '\n')).trans ?_
      show location.line + 1 + count = _
      omega

/-- Respaced tokens are scanned again, up to their columns. -/
theorem tokens_respaced
    (previous : Option Char)
    {scanned : List Token}
    (shaped : ∀ token ∈ scanned, Shaped token.kind token.lexeme)
    (below : ∀ token ∈ scanned, location.line ≤ token.location.line)
    (ordered :
      scanned.Pairwise fun first second =>
        first.location.line ≤ second.location.line)
    {original after : Nesting}
    (nested : original.afterAll scanned = .ok after)
    (closed : after.close = .ok ())
    (sameDepths : nesting.depths = original.depths) :
    ∃ again,
      tokens previous location nesting (respaced location.line scanned) =
        .ok again ∧
        again.map Token.outline = scanned.map Token.outline := by
  induction scanned generalizing previous location nesting original with
  | nil =>
      cases nested
      refine ⟨[], ?_, rfl⟩
      rw [Nesting.close_eq_ok_iff, ← sameDepths,
        ← Nesting.close_eq_ok_iff] at closed
      rw [respaced, tokens, closed]
      rfl
  | cons token others inductionHypothesis =>
      obtain ⟨shapedFirst, shapedOthers⟩ := List.forall_mem_cons.mp shaped
      obtain ⟨belowFirst, orderedOthers⟩ := List.pairwise_cons.mp ordered
      obtain ⟨inner, nestedFirst, nestedOthers⟩ := bind_eq_ok nested
      have reached := below token List.mem_cons_self
      -- The place of the token in the normal form.
      generalize found :
        location.advanceOver
          (List.replicate (token.location.line - location.line) '\n' ++ [' ']) =
            place
      have onLine : place.line = token.location.line := by
        rw [← found, line_advanceOver_lineBreaks]
        omega
      have endLine :
          (place.advanceOver token.spelling).line = token.location.line := by
        rw [Location.line_advanceOver
          (shapedFirst.spelling_oneLine token.location), onLine]
      obtain ⟨innerAgain, nestedAgain, sameInner⟩ :=
        @Nesting.after_of_depths_eq original nesting inner token
          ⟨token.kind, token.lexeme, place⟩
          nestedFirst sameDepths rfl rfl
      obtain ⟨again, read, outlines⟩ :=
        @inductionHypothesis (place.advanceOver token.spelling) innerAgain
          token.spelling.getLast? shapedOthers (endLine ▸ belowFirst)
            orderedOthers inner
          nestedOthers sameInner
      rw [endLine] at read
      have reads :
          ReadsAs (some ' ') token.spelling token.kind token.lexeme
            (respaced token.location.line others) :=
        shapedFirst.readsAs (separated_respaced _ others) token.location
      have spelled :
          Token.spelling ⟨token.kind, token.lexeme, place⟩ = token.spelling :=
        rfl
      refine ⟨⟨token.kind, token.lexeme, place⟩ :: again, ?_, ?_⟩
      · rw [respaced, tokens_lineBreaks, found,
          tokens_token reads spelled nestedAgain, read]
        rfl
      · rw [List.map_cons, List.map_cons, outlines, Token.outline, onLine]
        rfl

end Scan

/-! ## Names up to columns -/

namespace Naming

variable {first second : List Token}

/-- Words before arrows are told by outlines. -/
theorem assigned_of_outlines
    (same : first.map Token.outline = second.map Token.outline) :
    assigned first = assigned second := by
  induction first generalizing second with
  | nil =>
      rw [List.map_eq_nil_iff.mp same.symm]
  | cons token others inductionHypothesis =>
      obtain ⟨again, othersAgain, rfl, sameToken, sameOthers⟩ :=
        List.map_eq_cons_iff.mp same.symm
      have rest := inductionHypothesis sameOthers.symm
      obtain ⟨sameKind, sameLexeme, _⟩ := Token.outline_eq_iff.mp sameToken
      cases others with
      | nil =>
          rw [List.map_eq_nil_iff.mp sameOthers]
          rfl
      | cons next more =>
          obtain ⟨nextAgain, moreAgain, rfl, sameNext, _⟩ :=
            List.map_eq_cons_iff.mp sameOthers
          obtain ⟨sameNextKind, _⟩ := Token.outline_eq_iff.mp sameNext
          rw [assigned, assigned, rest, sameKind, sameLexeme, sameNextKind]

/-- Words alone on their line are told by outlines. -/
theorem alone_of_outlines
    (previousLine : Option Nat)
    (same : first.map Token.outline = second.map Token.outline) :
    (alone previousLine first).map Token.outline =
      (alone previousLine second).map Token.outline := by
  induction first generalizing second previousLine with
  | nil =>
      rw [List.map_eq_nil_iff.mp same.symm]
  | cons token others inductionHypothesis =>
      obtain ⟨again, othersAgain, rfl, sameToken, sameOthers⟩ :=
        List.map_eq_cons_iff.mp same.symm
      obtain ⟨sameKind, _, sameLine⟩ := Token.outline_eq_iff.mp sameToken
      have rest :=
        inductionHypothesis (some token.location.line) sameOthers.symm
      have sameHead :
          othersAgain.head?.map Token.outline =
            others.head?.map Token.outline := by
        rw [← List.head?_map, ← List.head?_map, sameOthers]
      have sameNextKind :
          othersAgain.head?.map Token.kind = others.head?.map Token.kind := by
        have kinds := congrArg (Option.map Prod.fst) sameHead
        rwa [Option.map_map, Option.map_map] at kinds
      have sameNextLine :
          othersAgain.head?.map (·.location.line) =
            others.head?.map (·.location.line) := by
        have lines := congrArg (Option.map fun outline => outline.2.2) sameHead
        rwa [Option.map_map, Option.map_map] at lines
      simp only [alone, sameKind, sameLine, sameNextKind, sameNextLine]
      split
      · rw [List.map_cons, List.map_cons, rest, sameToken]
      · exact rest

/-- What settling does to an outline. -/
def settleOutline
    (known : List String)
    (outline : TokenKind × String × Nat) :
    TokenKind × String × Nat :=
  (if outline.1 = .identifier ∧ outline.2.1 ∉ known then .label else outline.1,
    outline.2)

/-- Settling a token only depends on its outline. -/
theorem outline_settle (known : List String) :
    Token.outline ∘ settle known = settleOutline known ∘ Token.outline := by
  funext token
  show (settle known token).outline = settleOutline known token.outline
  rw [Token.outline, kind_settle, lexeme_settle, location_settle]
  rfl

/-- What is settled of tokens is told by their outlines. -/
theorem resolveNames_of_outlines
    {resolved : List Token}
    (done : resolveNames first = .ok resolved)
    (same : second.map Token.outline = first.map Token.outline) :
    ∃ again,
      resolveNames second = .ok again ∧
        again.map Token.outline = resolved.map Token.outline := by
  have sameAssigned := assigned_of_outlines same
  have sameAlone := alone_of_outlines none same
  unfold resolveNames at done ⊢
  split at done
  · cases done
  · rename_i noConflict
    cases done
    have noConflictAgain : conflict? second = none := by
      unfold conflict? at noConflict ⊢
      rw [List.find?_eq_none] at noConflict ⊢
      intro token isAlone
      have listed : token.outline ∈ (alone none second).map Token.outline :=
        List.mem_map_of_mem isAlone
      rw [sameAlone] at listed
      obtain ⟨original, wasAlone, sameToken⟩ := List.mem_map.mp listed
      obtain ⟨_, sameLexeme, _⟩ := Token.outline_eq_iff.mp sameToken
      rw [sameAssigned, ← sameLexeme]
      exact noConflict original wasAlone
    refine ⟨_, by rw [noConflictAgain], ?_⟩
    rw [sameAssigned, List.map_map, List.map_map, outline_settle,
      ← List.map_map, ← List.map_map, same]

end Naming

/-! ## The tokens of the normal form -/

/-- Settling words does not change how tokens are spaced. -/
theorem respaced_map_settle
    (known : List String)
    (line : Nat)
    (scanned : List Token) :
    respaced line (scanned.map (Naming.settle known)) =
      respaced line scanned := by
  induction scanned generalizing line with
  | nil =>
      rfl
  | cons token others inductionHypothesis =>
      rw [List.map_cons, respaced, respaced, inductionHypothesis,
        Naming.spelling_settle, Naming.location_settle]

/--
The normal form of a text that has tokens has tokens too: the same classes and
texts, on the same lines.
-/
theorem tokenize_normalForm
    {source : String}
    {tokens : List Token}
    (scanned : tokenize source = .ok tokens) :
    ∃ again,
      tokenize (normalForm tokens) = .ok again ∧
        again.map Token.outline = tokens.map Token.outline := by
  obtain ⟨provisional, read, rfl⟩ := exists_scan_of_tokenize scanned
  rw [tokenize, read] at scanned
  have lays := Scan.tokens_lays read
  obtain ⟨after, nested, closed⟩ := Scan.nested_of_tokens read
  have below :
      ∀ token ∈ provisional, Location.start.line ≤ token.location.line := by
    intro token member
    obtain ⟨passed, placed⟩ := lays.advances token member
    rw [placed, Location.advanceOver_start]
    exact Nat.le_add_right 1 _
  have ordered :
      provisional.Pairwise fun first second =>
        first.location.line ≤ second.location.line := by
    apply lays.increasing.imp
    intro first second before
    rcases before with earlier | ⟨sameLine, _⟩
    · exact Nat.le_of_lt earlier
    · exact Nat.le_of_eq sameLine
  obtain ⟨rescanned, readAgain, sameOutlines⟩ :=
    Scan.tokens_respaced none (Scan.tokens_shaped read) below ordered
      nested closed rfl
  obtain ⟨again, resolved, outlines⟩ :=
    Naming.resolveNames_of_outlines scanned sameOutlines
  refine ⟨again, ?_, outlines⟩
  have scannedAgain :
      scan (String.ofList (respaced 1 provisional)) = .ok rescanned := by
    rw [scan, String.toList_ofList]
    exact readAgain
  rw [normalForm, respaced_map_settle, tokenize, scannedAgain]
  exact resolved

/--
A hyphen that subtracts, one that belongs to a number, a string with blanks and
an empty line, as they stand in a text and in its normal form.
-/
theorem tokenize_normalForm_hyphens :
    let source := "n<-m-1\n\n\tColor(\"Sky  Blue\")m<-(-007)\n"
    let tokens : List Token :=
      [⟨.identifier, "n", ⟨1, 1⟩⟩, ⟨.assignment, "<-", ⟨1, 2⟩⟩,
        ⟨.identifier, "m", ⟨1, 4⟩⟩, ⟨.arithmetic, "-", ⟨1, 5⟩⟩,
        ⟨.number, "1", ⟨1, 6⟩⟩, ⟨.keyword, "Color", ⟨3, 2⟩⟩,
        ⟨.punctuation, "(", ⟨3, 7⟩⟩, ⟨.text, "Sky  Blue", ⟨3, 8⟩⟩,
        ⟨.punctuation, ")", ⟨3, 19⟩⟩, ⟨.identifier, "m", ⟨3, 20⟩⟩,
        ⟨.assignment, "<-", ⟨3, 21⟩⟩, ⟨.punctuation, "(", ⟨3, 23⟩⟩,
        ⟨.number, "-007", ⟨3, 24⟩⟩, ⟨.punctuation, ")", ⟨3, 28⟩⟩]
    tokenize source = .ok tokens ∧
      normalForm tokens =
        " n <- m - 1\n\n Color ( \"Sky  Blue\" ) m <- ( -007 )" ∧
        ∃ again,
          tokenize (normalForm tokens) = .ok again ∧
            again.map Token.outline = tokens.map Token.outline := by
  intro source tokens
  have scanned : tokenize source = .ok tokens := by
    decide +kernel
  have text :
      normalForm tokens =
        " n <- m - 1\n\n Color ( \"Sky  Blue\" ) m <- ( -007 )" := by
    decide +kernel
  exact ⟨scanned, text, tokenize_normalForm scanned⟩

end PixelBrush
