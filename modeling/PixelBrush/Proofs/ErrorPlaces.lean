import PixelBrush.Proofs.Instructions
import PixelBrush.Proofs.NamesApart
import PixelBrush.Proofs.TokenPlaces
import PixelBrush.Proofs.Turns

namespace PixelBrush

/-!
# Where errors point

Every error points into what it was found in.  The scanner points to a character
of the text, the parser to a token of its input, and a run to a node of the
instruction at which it stopped.
-/

/-! ## Characters of a text -/

/--
The second place is that of a character of the text that starts at the first.
-/
def Location.Marks
    (start : Location)
    (characters : List Char)
    (place : Location) :
    Prop :=
  ∃ before character later,
    characters = before ++ character :: later ∧ place = start.advanceOver before

/-- The place after a text is a place. -/
theorem Location.after_ne_nowhere (characters : List Char) :
    after characters ≠ nowhere := by
  intro same
  have line : 1 + characters.count '\n' = 0 := congrArg Location.line same
  omega

namespace Location.Marks

variable
  {start place : Location}
  {characters : List Char}

/-- The first character of a text stands where the text starts. -/
theorem head
    {first : Char} :
    start.Marks (first :: characters) start :=
  ⟨[], first, characters, rfl, rfl⟩

/-- What is marked in the rest of a text is marked in all of it. -/
theorem append
    (passed : List Char)
    (marks : (start.advanceOver passed).Marks characters place) :
    start.Marks (passed ++ characters) place := by
  obtain ⟨before, character, later, rfl, rfl⟩ := marks
  refine ⟨passed ++ before, character, later, ?_, ?_⟩
  · rw [List.append_assoc]
  · rw [Location.advanceOver_append]

end Location.Marks

/-- Every token that is laid out in a text starts at one of its characters. -/
theorem Lays.marks
    {location : Location}
    {characters : List Char}
    {tokens : List Token}
    (lays : Lays location characters tokens) :
    ∀ token ∈ tokens, location.Marks characters token.location := by
  induction lays with
  | nil =>
      intro token member
      cases member
  | @cons location blanks rest first tokens blank placed spelled others
    inductionHypothesis =>
      intro token member
      refine .append blanks ?_
      rw [← placed]
      rcases List.mem_cons.mp member with rfl | inRest
      · obtain ⟨opening, spelling, shape⟩ := List.exists_cons_of_ne_nil spelled
        rw [shape]
        exact .head
      · exact .append first.spelling (inductionHypothesis token inRest)

/-- A mapped result fails as the result fails. -/
theorem map_eq_error
    {Failure Middle Result : Type}
    {first : Except Failure Middle}
    {change : Middle → Result}
    {failure : Failure}
    (fails : first.map change = .error failure) :
    first = .error failure := by
  cases first with
  | error other =>
      cases fails
      rfl
  | ok middle =>
      cases fails

namespace Scan

namespace Nesting

/-- The places of everything that is still open. -/
def openings (nesting : Nesting) : List Location :=
  nesting.brackets ++ nesting.parentheses

variable
  {nesting later : Nesting}
  {token : Token}
  {error : ScanError}

/-- A token opens nothing but itself. -/
theorem openings_after
    (done : nesting.after token = .ok later) :
    later.openings ⊆ token.location :: nesting.openings := by
  obtain ⟨parentheses, brackets⟩ := nesting
  unfold after at done
  split at done
  · cases done
    exact List.subset_cons_self ..
  · split at done
    · cases done
      exact List.perm_middle.subset
    · split at done
      · cases done
        exact List.Subset.refl _
      · split at done
        · split at done
          · cases done
          · rename_i innermost outer shape
            cases done
            cases shape
            have fewer :
                (brackets ++ outer).Sublist (brackets ++ innermost :: outer) :=
              (List.sublist_cons_self ..).append_left brackets
            exact (fewer.cons _).subset
        · split at done
          · split at done
            · cases done
            · rename_i innermost outer shape
              cases done
              cases shape
              have fewer :
                  (outer ++ parentheses).Sublist
                    (innermost :: outer ++ parentheses) :=
                List.sublist_cons_self ..
              exact (fewer.cons _).subset
          · cases done
            exact List.subset_cons_self ..

/-- A token that closes what is not open is pointed to. -/
theorem location_of_after
    (refused : nesting.after token = .error error) :
    error.location = token.location := by
  unfold after at refused
  repeat' split at refused
  all_goals cases refused
  all_goals rfl

/-- What is never closed is pointed to where it is opened. -/
theorem mem_openings_of_close
    (refused : nesting.close = .error error) :
    error.location ∈ nesting.openings := by
  unfold close at refused
  split at refused
  · rename_i outermost isLast
    cases refused
    exact List.mem_append_left _ (List.mem_of_getLast? isLast)
  · rename_i outermost _ isLast
    cases refused
    exact List.mem_append_right _ (List.mem_of_getLast? isLast)
  · cases refused

end Nesting

/--
A scan fails at a character still to be scanned or at something left open
before.
-/
theorem location_of_tokens
    {previous : Option Char}
    {location : Location}
    {nesting : Nesting}
    {characters : List Char}
    {error : ScanError}
    (refused : tokens previous location nesting characters = .error error) :
    location.Marks characters error.location ∨
      error.location ∈ nesting.openings := by
  -- What is open was opened before the characters that are left, so it is kept
  -- apart.
  fun_induction tokens previous location nesting characters
    generalizing error with
  | case1 previous location nesting =>
      exact .inr (Nesting.mem_openings_of_close (map_eq_error refused))
  | case2 previous location nesting first rest isBlank =>
      rename_i character bad
      cases refused
      unfold badLineStart? at bad
      split at bad
      · -- The line starts with a character, the one that is pointed to.
        cases rest with
        | nil =>
            cases bad
        | cons second others =>
            exact .inl (.append [first] .head)
      · cases bad
  | case3 previous location nesting first rest isBlank =>
      rename_i inductionHypothesis
      exact (inductionHypothesis refused).imp_left (.append [first])
  | case4 =>
      cases refused
      exact .inl .head
  | case5 previous location nesting first rest notBlank result piecewise =>
      rename_i closed
      cases refused
      rw [Nesting.location_of_after closed]
      exact .inl .head
  | case6 previous location nesting first rest notBlank result piecewise =>
      rename_i token later opened inductionHypothesis
      have whole : token.spelling ++ result.rest = first :: rest :=
        (piece_reads piecewise).spells location
      rcases inductionHypothesis (map_eq_error refused) with ahead | isOpen
      · rw [← whole]
        exact .inl (.append token.spelling ahead)
      · rcases List.mem_cons.mp (Nesting.openings_after opened isOpen) with
          here | before
        · rw [here]
          exact .inl .head
        · exact .inr before

end Scan

/-- The words that stand alone on a line are among the tokens. -/
theorem Naming.alone_sublist
    (previousLine : Option Nat)
    (tokens : List Token) :
    (alone previousLine tokens).Sublist tokens := by
  induction tokens generalizing previousLine with
  | nil =>
      exact .slnil
  | cons token rest inductionHypothesis =>
      unfold alone
      dsimp only
      split
      · exact (inductionHypothesis _).cons_cons token
      · exact (inductionHypothesis _).cons token

/-- The error of a text that has no tokens points to one of its characters. -/
theorem marks_of_tokenize
    {source : String}
    {error : ScanError}
    (refused : tokenize source = .error error) :
    Location.start.Marks source.toList error.location := by
  rcases bind_eq_error refused with unscanned | ⟨tokens, scanned, ambiguous⟩
  · rcases Scan.location_of_tokens unscanned with marked | isOpen
    · exact marked
    · cases isOpen
  · unfold resolveNames at ambiguous
    split at ambiguous
    · rename_i token found
      cases ambiguous
      have isAlone := List.mem_of_find?_eq_some found
      have member := (Naming.alone_sublist none tokens).subset isAlone
      exact (Scan.tokens_lays scanned).marks token member
    · cases ambiguous

/-! ## Tokens of a program -/

namespace Cursor

/--
Only these tokens are ahead, and one of them stands where the cursor points.
-/
structure Within (tokens : List Token) (cursor : Cursor) : Prop where
  ahead : ∀ token ∈ cursor.rest, token ∈ tokens
  pointsTo : ∃ token ∈ tokens, cursor.location = token.location

/-- Reading goes on within these tokens or fails at the place of one of them. -/
def Placed
    {Value : Type}
    {bound : Nat}
    (tokens : List Token) :
    Except ParseError (Reading Value bound) → Prop
  | .ok reading => reading.next.Within tokens
  | .error error => ∃ token ∈ tokens, error.location = token.location

/-- Readings that follow one another fail within the same tokens. -/
theorem Placed.bind
    {First Result : Type}
    {bound limit : Nat}
    {tokens : List Token}
    {first : Except ParseError (Reading First bound)}
    {rest : Reading First bound → Except ParseError (Reading Result limit)}
    (placed : Placed tokens first)
    (continues :
      ∀ reading, reading.next.Within tokens → Placed tokens (rest reading)) :
    Placed tokens (first >>= rest) := by
  cases first with
  | error error =>
      exact placed
  | ok reading =>
      exact continues reading placed

section Readers

variable
  {tokens : List Token}
  {cursor next : Cursor}
  {token : Token}

/-- A cursor with some of the tokens ahead is within them. -/
theorem Within.of_ahead
    (ahead : ∀ token ∈ cursor.rest, token ∈ tokens)
    (nonempty : cursor.rest ≠ []) :
    cursor.Within tokens := by
  obtain ⟨first, others, shape⟩ := List.exists_cons_of_ne_nil nonempty
  refine ⟨ahead, first, ?_, ?_⟩
  · apply ahead
    rw [shape]
    exact List.mem_cons_self ..
  · rw [location, shape]

/-- After a token the cursor points to the next one or still to it. -/
theorem Within.of_reads
    (within : cursor.Within tokens)
    (reads : cursor.Reads [token] next) :
    token ∈ tokens ∧ next.Within tokens := by
  have member : token ∈ tokens := by
    apply within.ahead
    rw [reads.rest]
    exact List.mem_cons_self ..
  have ahead : ∀ other ∈ next.rest, other ∈ tokens :=
    fun other isAhead => within.ahead other (reads.rest_sublist.subset isAhead)
  refine ⟨member, ahead, ?_⟩
  obtain ⟨last, rest⟩ := next
  cases rest with
  | nil =>
      exact ⟨token, member, reads.last⟩
  | cons first others =>
      exact ⟨first, ahead first (List.mem_cons_self ..), rfl⟩

/-- Reading a required token stays within the tokens or fails there. -/
theorem placed_token
    (within : cursor.Within tokens)
    (accepts : Token → Bool)
    (expectation : Expectation) :
    Placed tokens (cursor.token accepts expectation) := by
  unfold Cursor.token
  split
  · rename_i reading found
    obtain ⟨reads, _⟩ := token?_eq_some_iff.mp found
    exact (within.of_reads reads).2
  · exact within.pointsTo

/-- So does reading a required symbol. -/
theorem placed_symbol
    (within : cursor.Within tokens)
    (text : String)
    (expectation : Expectation) :
    Placed tokens (cursor.symbol text expectation) :=
  placed_token within _ expectation

/-- So does reading a token of a required kind. -/
theorem placed_kind
    (within : cursor.Within tokens)
    (kind : TokenKind)
    (expectation : Expectation) :
    Placed tokens (cursor.kind kind expectation) :=
  placed_token within _ expectation

/-- So does reading an integer. -/
theorem placed_integer
    (within : cursor.Within tokens)
    (use : LiteralUse) :
    Placed tokens (cursor.integer use) := by
  have placed := placed_kind within .number (.integer use)
  unfold integer
  cases read : cursor.kind .number (.integer use) with
  | error error =>
      rw [read] at placed
      exact placed
  | ok reading =>
      obtain ⟨reads, _⟩ := kind_eq_ok_iff.mp read
      obtain ⟨member, withinNext⟩ := within.of_reads reads
      dsimp only [bind, Except.bind]
      split
      · exact withinNext
      · exact ⟨reading.value, member, rfl⟩

end Readers

section Expressions

variable
  {tokens : List Token}

mutual

/-- Reading an operand stays within the tokens or fails there. -/
theorem placed_operand
    (cursor : Cursor)
    (within : cursor.Within tokens) :
    Placed tokens cursor.operand := by
  rw [operand]
  split
  · exact within.pointsTo
  · rename_i token next fewer found
    obtain ⟨member, withinNext⟩ := within.of_reads (next?_eq_some_iff.mp found)
    have less : next.remaining < cursor.remaining := fewer
    split
    · exact (placed_integer within .operand).bind fun _ withinAfter =>
        withinAfter
    · exact withinNext
    · exact withinNext
    · exact withinNext
    · split
      · exact ⟨token, member, rfl⟩
      · exact (placed_arguments next token.lexeme withinNext).bind
          fun _ withinAfter => withinAfter
    · split
      · refine (placed_expression next 1 withinNext).bind ?_
        rintro ⟨inner, close, _⟩ withinClose
        exact (placed_symbol withinClose ")" .expressionClose).bind
          fun _ withinAfter => withinAfter
      · exact within.pointsTo
termination_by 2 * cursor.remaining
decreasing_by
  all_goals omega

/-- So does reading an expression. -/
theorem placed_expression
    (cursor : Cursor)
    (minimum : Nat)
    (within : cursor.Within tokens) :
    Placed tokens (cursor.expression minimum) := by
  rw [expression]
  refine (placed_operand cursor within).bind ?_
  rintro ⟨left, next, fewer⟩ withinNext
  have less : next.remaining < cursor.remaining := fewer
  exact (placed_climb next minimum left withinNext).bind fun _ withinAfter =>
    withinAfter
termination_by 2 * cursor.remaining + 1
decreasing_by
  all_goals omega

/-- So does going on with operators after a left operand. -/
theorem placed_climb
    (cursor : Cursor)
    (minimum : Nat)
    (left : Node)
    (within : cursor.Within tokens) :
    Placed tokens (cursor.climb minimum left) := by
  rw [climb]
  split
  · exact within
  · rename_i token next fewer found
    obtain ⟨_, withinNext⟩ := within.of_reads (next?_eq_some_iff.mp found)
    have less : next.remaining < cursor.remaining := fewer
    split
    · exact within
    · rename_i operator _
      split
      · exact within
      · refine (placed_expression next operator.rightPrecedence withinNext).bind
          ?_
        rintro ⟨right, after, shorter⟩ withinAfter
        have lesser : after.remaining < next.remaining := shorter
        exact (placed_climb after minimum _ withinAfter).bind
          fun _ withinStop => withinStop
termination_by 2 * cursor.remaining
decreasing_by
  all_goals omega

/-- So does reading the arguments of a call. -/
theorem placed_arguments
    (cursor : Cursor)
    (word : String)
    (within : cursor.Within tokens) :
    Placed tokens (cursor.arguments word) := by
  rw [Cursor.arguments]
  refine (placed_symbol within "(" (.openAfter word)).bind ?_
  rintro ⟨_, start, fewer⟩ withinStart
  have less : start.remaining < cursor.remaining := fewer
  dsimp only
  split
  · exact (placed_symbol withinStart ")" .argumentsClose).bind
      fun _ withinAfter => withinAfter
  · refine (placed_operands start withinStart).bind ?_
    rintro ⟨nodes, close, _⟩ withinClose
    exact (placed_symbol withinClose ")" .argumentsClose).bind
      fun _ withinAfter => withinAfter
termination_by 2 * cursor.remaining
decreasing_by
  all_goals omega

/-- So does reading operands that commas separate. -/
theorem placed_operands
    (cursor : Cursor)
    (within : cursor.Within tokens) :
    Placed tokens cursor.operands := by
  rw [Cursor.operands]
  refine (placed_operand cursor within).bind ?_
  rintro ⟨node, next, fewer⟩ withinNext
  have less : next.remaining < cursor.remaining := fewer
  dsimp only
  split
  · exact withinNext
  · rename_i comma more shorter found
    obtain ⟨reads, _⟩ := token?_eq_some_iff.mp found
    have lesser : more.remaining < next.remaining := shorter
    exact (placed_operands more (withinNext.of_reads reads).2).bind
      fun _ withinAfter => withinAfter
termination_by 2 * cursor.remaining + 1
decreasing_by
  all_goals omega

end

end Expressions

section Instructions

variable
  {tokens : List Token}
  {cursor : Cursor}

/-- Reading a spawn stays within the tokens or fails there. -/
theorem placed_spawn
    (within : cursor.Within tokens)
    (location : Location) :
    Placed tokens (cursor.spawn location) := by
  refine (placed_symbol within "(" _).bind ?_
  rintro ⟨_, first, _⟩ withinFirst
  refine (placed_integer withinFirst .spawnX).bind ?_
  rintro ⟨x, comma, _⟩ withinComma
  refine (placed_symbol withinComma "," .spawnComma).bind ?_
  rintro ⟨_, second, _⟩ withinSecond
  refine (placed_integer withinSecond .spawnY).bind ?_
  rintro ⟨y, close, _⟩ withinClose
  exact (placed_symbol withinClose ")" .spawnClose).bind fun _ withinAfter =>
    withinAfter

/-- So does reading a change of the color. -/
theorem placed_setColor
    (within : cursor.Within tokens)
    (location : Location) :
    Placed tokens (cursor.setColor location) := by
  refine (placed_symbol within "(" _).bind ?_
  rintro ⟨_, start, _⟩ withinStart
  refine (placed_kind withinStart .text .colorName).bind ?_
  rintro ⟨name, close, _⟩ withinClose
  exact (placed_symbol withinClose ")" .colorClose).bind fun _ withinAfter =>
    withinAfter

/-- So does reading a change of the size. -/
theorem placed_setSize
    (within : cursor.Within tokens)
    (location : Location) :
    Placed tokens (cursor.setSize location) := by
  refine (placed_symbol within "(" _).bind ?_
  rintro ⟨_, start, _⟩ withinStart
  refine (placed_integer withinStart .brushSize).bind ?_
  rintro ⟨size, close, _⟩ withinClose
  exact (placed_symbol withinClose ")" .sizeClose).bind fun _ withinAfter =>
    withinAfter

/-- So does reading a flood. -/
theorem placed_fill
    (within : cursor.Within tokens)
    (location : Location) :
    Placed tokens (cursor.fill location) := by
  refine (placed_symbol within "(" _).bind ?_
  rintro ⟨_, close, _⟩ withinClose
  exact (placed_symbol withinClose ")" .fillClose).bind fun _ withinAfter =>
    withinAfter

/-- So does reading a jump. -/
theorem placed_goTo
    (within : cursor.Within tokens)
    (location : Location) :
    Placed tokens (cursor.goTo location) := by
  refine (placed_symbol within "[" .labelOpen).bind ?_
  rintro ⟨_, name, _⟩ withinName
  refine (placed_kind withinName .label .labelName).bind ?_
  rintro ⟨label, bracket, _⟩ withinBracket
  refine (placed_symbol withinBracket "]" .labelClose).bind ?_
  rintro ⟨_, start, _⟩ withinStart
  refine (placed_symbol withinStart "(" .conditionOpen).bind ?_
  rintro ⟨_, condition, _⟩ withinCondition
  refine (placed_expression condition 1 withinCondition).bind ?_
  rintro ⟨value, close, _⟩ withinClose
  exact (placed_symbol withinClose ")" .conditionClose).bind
    fun _ withinAfter => withinAfter

/-- So does reading an assignment. -/
theorem placed_assignment
    (within : cursor.Within tokens)
    (name : String)
    (location : Location) :
    Placed tokens (cursor.assignment name location) := by
  refine (placed_symbol within "<-" .arrow).bind ?_
  rintro ⟨_, start, _⟩ withinStart
  exact (placed_expression start 1 withinStart).bind fun _ withinAfter =>
    withinAfter

/-- So does reading what follows a keyword. -/
theorem placed_afterKeyword
    {keyword : Token}
    (within : cursor.Within tokens)
    (member : keyword ∈ tokens) :
    Placed tokens (cursor.afterKeyword keyword) := by
  unfold afterKeyword
  split
  · exact placed_spawn within _
  · exact placed_setColor within _
  · exact placed_setSize within _
  · exact placed_fill within _
  · exact placed_goTo within _
  · exact ⟨keyword, member, rfl⟩

/-- So does reading what follows a draw command. -/
theorem placed_afterCommand
    {command : Token}
    (within : cursor.Within tokens)
    (member : command ∈ tokens) :
    Placed tokens (cursor.afterCommand command) := by
  unfold afterCommand
  split
  · exact ⟨command, member, rfl⟩
  · exact (placed_arguments cursor _ within).bind fun _ withinAfter =>
      withinAfter

/-- So does reading an instruction. -/
theorem placed_instruction
    (within : cursor.Within tokens) :
    Placed tokens cursor.instruction := by
  unfold instruction
  split
  · exact within.pointsTo
  · rename_i token next fewer found
    obtain ⟨member, withinNext⟩ := within.of_reads (next?_eq_some_iff.mp found)
    split
    · exact (placed_afterKeyword withinNext member).bind fun _ withinAfter =>
        withinAfter
    · exact (placed_afterCommand withinNext member).bind fun _ withinAfter =>
        withinAfter
    · exact placed_operand cursor within
    · exact withinNext
    · split
      · exact (placed_assignment withinNext _ _).bind fun _ withinAfter =>
          withinAfter
      · exact ⟨token, member, rfl⟩
    · exact ⟨token, member, rfl⟩

/-- A line that does not end is refused where the cursor points. -/
theorem location_of_endOfLine
    {error : ParseError}
    (refused : cursor.endOfLine = .error error) :
    error.location = cursor.location := by
  unfold endOfLine at refused
  split at refused
  · cases refused
    rfl
  · cases refused

end Instructions

/-- A parse that fails points to one of the tokens that were ahead. -/
theorem location_of_instructions
    {tokens : List Token}
    (cursor : Cursor)
    (ahead : ∀ token ∈ cursor.rest, token ∈ tokens)
    {error : ParseError}
    (refused : cursor.instructions = .error error) :
    ∃ token ∈ tokens, error.location = token.location := by
  rw [instructions] at refused
  split at refused
  · cases refused
  · rename_i nonempty
    -- Before the first token no place has been passed, but one is ahead.
    have within : cursor.Within tokens :=
      .of_ahead ahead (mt List.isEmpty_iff.mpr nonempty)
    have placed := placed_instruction within
    rcases bind_eq_error refused with
      first | ⟨⟨node, next, fewer⟩, first, refused⟩
    · rw [first] at placed
      exact placed
    · rw [first] at placed
      have withinNext : next.Within tokens := placed
      rcases bind_eq_error refused with sameLine | ⟨_, _, refused⟩
      · rw [location_of_endOfLine sameLine]
        exact withinNext.pointsTo
      · rcases bind_eq_error refused with later | ⟨nodes, _, done⟩
        · have less : next.remaining < cursor.remaining := fewer
          exact location_of_instructions next withinNext.ahead later
        · cases done
termination_by cursor.remaining

end Cursor

/-! ## Nodes of an instruction -/

/-- The place is that of a node, or of a node somewhere inside it. -/
def Node.Places (node : Node) (place : Location) : Prop :=
  ∃ inner : Node, inner.Occurs node ∧ place = inner.location

namespace Node

variable
  {node part : Node}
  {place : Location}

/-- The place of a node is one of its places. -/
theorem places_self :
    node.Places node.location :=
  ⟨node, .whole, rfl⟩

/-- The places of a part are places of the whole. -/
theorem Places.of_part
    (isPart : part ∈ node.parts)
    (places : part.Places place) :
    node.Places place := by
  obtain ⟨inner, occurs, rfl⟩ := places
  exact ⟨inner, .inside isPart occurs, rfl⟩

/-- The operands of a node are among its parts. -/
theorem operands_subset_parts :
    node.operands ⊆ node.parts := by
  cases node with
  | call | arithmetic | boolean =>
      exact List.Subset.refl _
  | _ =>
      exact List.nil_subset _

end Node

namespace Moment

variable
  {moment : Moment}
  {error : RunError}

/-- An expression fails at its own node or at one inside it. -/
theorem places_of_evaluate
    {node : Node}
    (fails : moment.evaluate node = .error error) :
    node.Places error.location := by
  induction node using Node.operandInduction with
  | step node inductionHypothesis =>
      cases evaluate_error fails with
      | operand member fails =>
          exact (inductionHypothesis _ member fails).of_part
            (Node.operands_subset_parts member)
      | argument listed =>
          exact Node.places_self.of_part (List.of_mem_zip listed).2
      | color member =>
          exact Node.places_self.of_part member
      | _ =>
          exact Node.places_self

/-- An expression that has to give a number fails at one of its places. -/
theorem places_of_evaluateInt
    {node : Node}
    (fails : moment.evaluateInt node = .error error) :
    node.Places error.location := by
  rcases bind_eq_error fails with unevaluated | ⟨value, _, wrong⟩
  · exact places_of_evaluate unevaluated
  · cases value with
    | int =>
        cases wrong
    | string | bool =>
        cases wrong
        exact Node.places_self

end Moment

/-- An instruction fails at its own node or at one inside it. -/
theorem Action.Fails.places
    {program : Program}
    {moment : Moment}
    {node : Node}
    {error : RunError}
    (fails : Fails program moment node error) :
    node.Places error.location := by
  cases fails with
  | drawArgument member fails =>
      exact (Moment.places_of_evaluateInt fails).of_part member
  | assign fails | condition fails =>
      exact (Moment.places_of_evaluate fails).of_part
        (List.mem_singleton_self _)
  | expression _ fails =>
      exact Moment.places_of_evaluate fails
  | _ =>
      exact Node.places_self

/--
Errors point into what they are found in.  The error of a text without tokens
has the place of one of its characters, and that of tokens which spell no
program the place of one of the tokens, which is never the place before all
text.  A run that fails keeps the index of an instruction, and its error has the
place of that or of a node inside it.
-/
theorem errors_have_places :
    (∀ source error,
      tokenize source = .error error →
      ∃ before character later,
        source.toList = before ++ character :: later ∧
          error.location = .after before) ∧
      (∀ source tokens error,
        tokenize source = .ok tokens →
        Program.parse tokens = .error error →
        (∃ token ∈ tokens, error.location = token.location) ∧
          error.location ≠ .nowhere) ∧
      ∀ (machine after : Machine) error,
        machine.run = (after, .error error) →
        ∃ (index : Nat) (node inner : Node),
          after.failed = some index ∧
            after.program[index]? = some node ∧
            inner.Occurs node ∧
            error.location = inner.location := by
  refine ⟨?_, ?_, ?_⟩
  · intro source error refused
    obtain ⟨before, character, later, shape, place⟩ := marks_of_tokenize refused
    rw [Location.advanceOver_start] at place
    exact ⟨before, character, later, shape, place⟩
  · intro source tokens error scanned refused
    obtain ⟨token, member, place⟩ :=
      Cursor.location_of_instructions ⟨.nowhere, tokens⟩
        (fun _ isAhead => isAhead) refused
    refine ⟨⟨token, member, place⟩, ?_⟩
    obtain ⟨before, _, _, _, marked⟩ :=
      (lays_of_tokenize scanned).marks token member
    rw [place, marked, Location.advanceOver_start]
    exact Location.after_ne_nowhere before
  · intro machine after error fails
    have concludes := Machine.run_concludes machine
    rw [fails] at concludes
    cases concludes with
    | badly program failed found cause =>
        rw [← program] at found
        rcases cause with same | ⟨moment, left, executed⟩
        · exact ⟨_, _, _, failed, found, .whole, same⟩
        · obtain ⟨inner, occurs, place⟩ :=
            (Action.execute_error executed).1.places
          exact ⟨_, _, inner, failed, found, occurs, place⟩

/--
A parenthesis is left open, an operand is missing at the end, and a division
fails.
-/
theorem errors_have_places_three_failures :
    let unclosed := "x <- (1\n"
    let unfinished := "x <- 1 +\n"
    let tokens : List Token :=
      [⟨.identifier, "x", ⟨1, 1⟩⟩, ⟨.assignment, "<-", ⟨1, 3⟩⟩,
        ⟨.number, "1", ⟨1, 6⟩⟩, ⟨.arithmetic, "+", ⟨1, 8⟩⟩]
    let quotient : Node :=
      .arithmetic .divide (.number 1 ⟨2, 6⟩) (.number 0 ⟨2, 10⟩) ⟨2, 8⟩
    let machine :=
      Machine.load [.spawn 0 0 ⟨1, 1⟩, .assign "x" quotient ⟨2, 1⟩] 1 10 none
    (tokenize unclosed = .error ⟨.openParenthesis, ⟨1, 6⟩⟩ ∧
      ∃ before character later,
        unclosed.toList = before ++ character :: later ∧
          ⟨1, 6⟩ = Location.after before) ∧
      (tokenize unfinished = .ok tokens ∧
        Program.parse tokens = .error ⟨.expected .expression none, ⟨1, 8⟩⟩ ∧
        ∃ token ∈ tokens, ⟨1, 8⟩ = token.location) ∧
      machine.run.2 = .error ⟨.zeroDivision .quotient, ⟨2, 8⟩⟩ ∧
        ∃ (index : Nat) (node inner : Node),
          machine.run.1.program[index]? = some node ∧
            inner.Occurs node ∧
            ⟨2, 8⟩ = inner.location := by
  intro unclosed unfinished tokens quotient machine
  obtain ⟨scans, parses, runs⟩ := errors_have_places
  have unscanned : tokenize unclosed = .error ⟨.openParenthesis, ⟨1, 6⟩⟩ := by
    decide +kernel
  have scanned : tokenize unfinished = .ok tokens := by
    decide +kernel
  have settled :
      (Program.parse tokens).map (fun _ => ()) =
        .error ⟨.expected .expression none, ⟨1, 8⟩⟩ := by
    decide +kernel
  have unparsed := map_eq_error settled
  have failed : machine.run.2 = .error ⟨.zeroDivision .quotient, ⟨2, 8⟩⟩ := by
    decide +kernel
  obtain ⟨index, node, inner, _, found, occurs, place⟩ :=
    runs machine machine.run.1 _ (Prod.ext rfl failed)
  exact ⟨⟨unscanned, scans _ _ unscanned⟩,
    ⟨scanned, unparsed, (parses _ _ _ scanned unparsed).1⟩,
    failed, index, node, inner, found, occurs, place⟩

end PixelBrush
