import PixelBrush.Program.Parse
import PixelBrush.Proofs.Cursors
import PixelBrush.Proofs.ScannedTokens

namespace PixelBrush

/-!
# What is parsed was spelled

Whatever the parser reads, the grammar derives from the tokens it has passed.
The proof follows the parser function by function.  Climbing carries one
invariant: the expression read so far has a level that the next operator may
take as its left operand.
-/

namespace Cursor

open Grammar

/-- The tokens that are left are well spelled. -/
def WellSpelled (cursor : Cursor) : Prop :=
  ∀ token ∈ cursor.rest, token.WellSpelled

/-- After reading, what is left is still well spelled. -/
theorem WellSpelled.of_reads
    {cursor next : Cursor}
    {tokens : List Token}
    (spelled : cursor.WellSpelled)
    (reads : cursor.Reads tokens next) :
    next.WellSpelled :=
  fun token member => spelled token (reads.rest_sublist.subset member)

/-- The next token of a well spelled rest is well spelled. -/
theorem WellSpelled.head
    {cursor next : Cursor}
    {token : Token}
    {tokens : List Token}
    (spelled : cursor.WellSpelled)
    (reads : cursor.Reads (token :: tokens) next) :
    token.WellSpelled := by
  apply spelled
  rw [reads.rest]
  exact List.mem_cons_self

/-- What a well spelled cursor reads as a symbol is that symbol. -/
theorem symbol_sound
    {cursor : Cursor}
    {text : String}
    {expectation : Expectation}
    {reading : Reading Token cursor.remaining}
    (kind : TokenKind)
    (spelled : cursor.WellSpelled)
    (known : (text.toList, kind) ∈ Scan.symbols)
    (done : cursor.symbol text expectation = .ok reading) :
    cursor.Reads [reading.value] reading.next ∧ Is kind text reading.value := by
  obtain ⟨reads, isSymbol⟩ := symbol_eq_ok_iff.mp done
  exact ⟨reads, is_of_isSymbol known (spelled.head reads) isSymbol⟩

/-- A function is found by its own name only. -/
theorem name_of_ofName?
    {name : String}
    {function : Builtin}
    (found : Builtin.ofName? name = some function) :
    name = function.name := by
  have same := List.find?_some found
  exact (eq_of_beq same).symm

/-- No operator that binds at least as tightly as the minimum comes next. -/
def Stops (minimum : Nat) (cursor : Cursor) : Prop :=
  ∀ token ∈ cursor.rest.head?,
    ∀ operator,
      operatorOf? token = some operator →
      operator.precedence < minimum

/-- Every operator that comes next may have a left operand of this level. -/
def MayFollow (level : Nat) (cursor : Cursor) : Prop :=
  ∀ token ∈ cursor.rest.head?,
    ∀ operator,
      operatorOf? token = some operator →
      leftPrecedence operator ≤ level

/-- What ends the right operand of an operation may follow the operation. -/
theorem MayFollow.of_stops
    {operator : Operator}
    {cursor : Cursor}
    (stops : cursor.Stops operator.rightPrecedence) :
    cursor.MayFollow operator.precedence :=
  fun token isHead next found =>
    precedence_lt_iff.mp (stops token isHead next found)

/-- Every operator may follow a primary. -/
theorem mayFollow_primary (cursor : Cursor) :
    cursor.MayFollow primaryLevel :=
  fun _ _ operator _ => leftPrecedence_le_primaryLevel operator

/-- The first of the tokens that are read is the one ahead. -/
theorem mem_head?_iff
    {cursor next : Cursor}
    {token other : Token}
    {tokens : List Token}
    (reads : cursor.Reads (token :: tokens) next) :
    other ∈ cursor.rest.head? ↔ other = token := by
  rw [reads.rest, List.cons_append, List.head?_cons, Option.mem_some_iff,
    eq_comm]

mutual

/-- What is read as an operand is a primary. -/
theorem operand_sound
    (cursor : Cursor)
    (spelled : cursor.WellSpelled)
    {reading : Reading Node cursor.remaining}
    (done : cursor.operand = .ok reading) :
    ∃ tokens,
      cursor.Reads tokens reading.next ∧ Primary tokens reading.value := by
  rw [operand] at done
  split at done
  · cases done
  · rename_i token next fewer found
    have reads := next?_eq_some_iff.mp found
    have spelledNext := spelled.of_reads reads
    have less : next.remaining < cursor.remaining := fewer
    split at done
    · rename_i isNumber
      obtain ⟨⟨value, after, shorter⟩, isInteger, rest⟩ := bind_eq_ok done
      cases rest
      obtain ⟨literal, readsLiteral, integer⟩ := integer_eq_ok_iff.mp isInteger
      have same : literal = token := by
        have shape := reads.rest.symm.trans readsLiteral.rest
        exact (List.cons.inj shape).1.symm
      rw [← same]
      exact ⟨[literal], readsLiteral, .number integer⟩
    · rename_i isText
      cases done
      exact ⟨[token], reads, .text isText⟩
    · rename_i isName
      cases done
      exact ⟨[token], reads, .read isName⟩
    · rename_i isLabel
      cases done
      exact ⟨[token], reads, .label isLabel⟩
    · rename_i isFunction
      split at done
      · cases done
      · rename_i function named
        obtain ⟨⟨nodes, after, shorter⟩, called, rest⟩ := bind_eq_ok done
        cases rest
        obtain ⟨tokens, readsArguments, arguments⟩ :=
          arguments_sound next spelledNext called
        exact ⟨token :: tokens, reads.cons readsArguments,
          .call ⟨isFunction, name_of_ofName? named⟩ arguments⟩
    · split at done
      · rename_i isOpening
        obtain ⟨⟨node, close, shorter⟩, inside, afterInside⟩ := bind_eq_ok done
        obtain ⟨⟨closing, after, shortest⟩, closed, rest⟩ :=
          bind_eq_ok afterInside
        cases rest
        obtain ⟨tokens, readsInner, inner, _⟩ :=
          expression_sound next 1 (by decide) spelledNext inside
        obtain ⟨readsClose, closes⟩ :=
          symbol_sound .punctuation (spelledNext.of_reads readsInner)
            (by decide) closed
        exact ⟨token :: (tokens ++ [closing]),
          reads.cons (readsInner.append readsClose),
          .parenthesised ⟨isOpening.1, isOpening.2⟩ inner closes⟩
      · cases done
termination_by 2 * cursor.remaining
decreasing_by
  all_goals omega

/--
What is read as an expression is one of the requested level, and ends before an
operator that binds less tightly.
-/
theorem expression_sound
    (cursor : Cursor)
    (minimum : Nat)
    (allowed : minimum ≤ primaryLevel)
    (spelled : cursor.WellSpelled)
    {reading : Reading Node cursor.remaining}
    (done : cursor.expression minimum = .ok reading) :
    ∃ tokens,
      cursor.Reads tokens reading.next ∧
        Expression minimum tokens reading.value ∧
        reading.next.Stops minimum := by
  rw [expression] at done
  obtain ⟨⟨left, next, shorter⟩, first, afterFirst⟩ := bind_eq_ok done
  obtain ⟨⟨whole, after, shortest⟩, climbed, rest⟩ := bind_eq_ok afterFirst
  cases rest
  have less : next.remaining < cursor.remaining := shorter
  obtain ⟨leftTokens, readsLeft, primary⟩ := operand_sound cursor spelled first
  obtain ⟨tokens, readsRest, whole, stops⟩ :=
    climb_sound next minimum left (spelled.of_reads readsLeft) climbed
      (.primary primary) allowed (mayFollow_primary next)
  exact ⟨leftTokens ++ tokens, readsLeft.append readsRest, whole, stops⟩
termination_by 2 * cursor.remaining + 1
decreasing_by
  all_goals omega

/--
A climb from an expression gives an expression of the requested level, and ends
before an operator that binds less tightly.
-/
theorem climb_sound
    (cursor : Cursor)
    (minimum : Nat)
    (left : Node)
    (spelled : cursor.WellSpelled)
    {reading : Reading Node (cursor.remaining + 1)}
    (done : cursor.climb minimum left = .ok reading)
    {level : Nat}
    {leftTokens : List Token}
    (base : Expression level leftTokens left)
    (reaches : minimum ≤ level)
    (mayFollow : cursor.MayFollow level) :
    ∃ tokens,
      cursor.Reads tokens reading.next ∧
        Expression minimum (leftTokens ++ tokens) reading.value ∧
        reading.next.Stops minimum := by
  have stays : Expression minimum (leftTokens ++ []) left := by
    rw [List.append_nil]
    exact base.loosen reaches
  rw [climb] at done
  split at done
  · rename_i ended
    cases done
    refine ⟨[], .nil cursor, stays, ?_⟩
    intro token isHead
    rw [next?_eq_none_iff.mp ended] at isHead
    cases isHead
  · rename_i token next fewer found
    have reads := next?_eq_some_iff.mp found
    split at done
    · rename_i noOperator
      cases done
      refine ⟨[], .nil cursor, stays, ?_⟩
      intro other isHead operator isOperator
      rw [(mem_head?_iff reads).mp isHead, noOperator] at isOperator
      cases isOperator
    · rename_i operator isOperator
      split at done
      · rename_i loose
        cases done
        refine ⟨[], .nil cursor, stays, ?_⟩
        intro other isHead operator' isOperator'
        rw [(mem_head?_iff reads).mp isHead, isOperator] at isOperator'
        cases isOperator'
        exact loose
      · rename_i tight
        obtain ⟨⟨right, after, shorter⟩, second, afterSecond⟩ := bind_eq_ok done
        obtain ⟨⟨whole, stop, shortest⟩, climbed, rest⟩ :=
          bind_eq_ok afterSecond
        cases rest
        have spelledNext := spelled.of_reads reads
        have less : next.remaining < cursor.remaining := fewer
        have lesser : after.remaining < next.remaining := shorter
        obtain ⟨rightTokens, readsRight, rightWhole, stops⟩ :=
          expression_sound next operator.rightPrecedence
            (rightPrecedence_le_primaryLevel operator) spelledNext second
        have fits : leftPrecedence operator ≤ level :=
          mayFollow token ((mem_head?_iff reads).mpr rfl) operator isOperator
        have combined :=
          (base.loosen fits).operation
            (is_of_operatorOf? (spelled.head reads) isOperator) rightWhole
        obtain ⟨tokens, readsRest, whole, stopped⟩ :=
          climb_sound after minimum
            (.operation operator left right token.location)
            (spelledNext.of_reads readsRight) climbed combined
              (Nat.le_of_not_lt tight)
            (.of_stops stops)
        refine ⟨token :: (rightTokens ++ tokens),
          reads.cons (readsRight.append readsRest), ?_, stopped⟩
        rw [List.append_assoc, List.cons_append] at whole
        exact whole
termination_by 2 * cursor.remaining
decreasing_by
  all_goals omega

/-- What is read as arguments are arguments. -/
theorem arguments_sound
    (cursor : Cursor)
    {word : String}
    (spelled : cursor.WellSpelled)
    {reading : Reading (List Node) cursor.remaining}
    (done : cursor.arguments word = .ok reading) :
    ∃ tokens,
      cursor.Reads tokens reading.next ∧ Arguments tokens reading.value := by
  rw [Cursor.arguments] at done
  obtain ⟨⟨opening, start, shorter⟩, opened, afterOpening⟩ := bind_eq_ok done
  obtain ⟨readsOpening, opens⟩ :=
    symbol_sound .punctuation spelled (by decide) opened
  have spelledStart := spelled.of_reads readsOpening
  have less : start.remaining < cursor.remaining := shorter
  dsimp only at afterOpening
  split at afterOpening
  · obtain ⟨⟨closing, after, shortest⟩, closed, rest⟩ := bind_eq_ok afterOpening
    cases rest
    obtain ⟨readsClosing, closes⟩ :=
      symbol_sound .punctuation spelledStart (by decide) closed
    exact ⟨[opening, closing], readsOpening.cons readsClosing,
      .none opens closes⟩
  · obtain ⟨⟨nodes, close, shorterClose⟩, inside, afterInside⟩ :=
      bind_eq_ok afterOpening
    obtain ⟨⟨closing, after, shortest⟩, closed, rest⟩ := bind_eq_ok afterInside
    cases rest
    obtain ⟨tokens, readsInner, inner⟩ :=
      operands_sound start spelledStart inside
    obtain ⟨readsClosing, closes⟩ :=
      symbol_sound .punctuation (spelledStart.of_reads readsInner)
        (by decide) closed
    exact ⟨opening :: (tokens ++ [closing]),
      readsOpening.cons (readsInner.append readsClosing),
      .some opens inner closes⟩
termination_by 2 * cursor.remaining
decreasing_by
  all_goals omega

/-- What is read as operands are primaries with commas between them. -/
theorem operands_sound
    (cursor : Cursor)
    (spelled : cursor.WellSpelled)
    {reading : Reading (List Node) cursor.remaining}
    (done : cursor.operands = .ok reading) :
    ∃ tokens,
      cursor.Reads tokens reading.next ∧ Primaries tokens reading.value := by
  rw [Cursor.operands] at done
  obtain ⟨⟨node, next, shorter⟩, first, afterFirst⟩ := bind_eq_ok done
  obtain ⟨tokens, readsFirst, primary⟩ := operand_sound cursor spelled first
  have spelledNext := spelled.of_reads readsFirst
  dsimp only at afterFirst
  split at afterFirst
  · cases afterFirst
    exact ⟨tokens, readsFirst, .one primary⟩
  · rename_i comma more fewer found
    obtain ⟨⟨nodes, after, shortest⟩, inside, rest⟩ := bind_eq_ok afterFirst
    cases rest
    obtain ⟨readsComma, isComma⟩ := token?_eq_some_iff.mp found
    have less : next.remaining < cursor.remaining := shorter
    have lesser : more.remaining < next.remaining := fewer
    have separates : Is .punctuation "," comma :=
      is_of_isSymbol (by decide) (spelledNext.head readsComma) isComma
    obtain ⟨others, readsOthers, primaries⟩ :=
      operands_sound more (spelledNext.of_reads readsComma) inside
    exact ⟨tokens ++ comma :: others,
      readsFirst.append (readsComma.cons readsOthers),
      .more primary separates primaries⟩
termination_by 2 * cursor.remaining + 1
decreasing_by
  all_goals omega

end

section Instructions

variable
  {cursor : Cursor}
  {keyword : Token}
  {reading : Reading Node cursor.remaining}

/-- What is read as a spawn is one, with its keyword. -/
theorem spawn_sound
    (spelled : cursor.WellSpelled)
    (isKeyword : Is .keyword "Spawn" keyword)
    (done : cursor.spawn keyword.location = .ok reading) :
    ∃ tokens,
      cursor.Reads tokens reading.next ∧
        Instruction (keyword :: tokens) reading.value := by
  obtain ⟨⟨opening, first, _⟩, opened, done⟩ := bind_eq_ok done
  obtain ⟨⟨x, comma, _⟩, column, done⟩ := bind_eq_ok done
  obtain ⟨⟨separator, second, _⟩, separated, done⟩ := bind_eq_ok done
  obtain ⟨⟨y, close, _⟩, row, done⟩ := bind_eq_ok done
  obtain ⟨⟨closing, after, _⟩, closed, done⟩ := bind_eq_ok done
  cases done
  obtain ⟨readsOpening, opens⟩ :=
    symbol_sound .punctuation spelled (by decide) opened
  obtain ⟨firstToken, readsFirst, isColumn⟩ := integer_eq_ok_iff.mp column
  have spelledComma := (spelled.of_reads readsOpening).of_reads readsFirst
  obtain ⟨readsComma, separates⟩ :=
    symbol_sound .punctuation spelledComma (by decide) separated
  obtain ⟨secondToken, readsSecond, isRow⟩ := integer_eq_ok_iff.mp row
  have spelledClose := (spelledComma.of_reads readsComma).of_reads readsSecond
  obtain ⟨readsClosing, closes⟩ :=
    symbol_sound .punctuation spelledClose (by decide) closed
  exact ⟨[opening, firstToken, separator, secondToken, closing],
    readsOpening.cons
      (readsFirst.cons (readsComma.cons (readsSecond.cons readsClosing))),
    .spawn isKeyword opens isColumn separates isRow closes⟩

/-- What is read as a change of the color is one, with its keyword. -/
theorem setColor_sound
    (spelled : cursor.WellSpelled)
    (isKeyword : Is .keyword "Color" keyword)
    (done : cursor.setColor keyword.location = .ok reading) :
    ∃ tokens,
      cursor.Reads tokens reading.next ∧
        Instruction (keyword :: tokens) reading.value := by
  obtain ⟨⟨opening, start, _⟩, opened, done⟩ := bind_eq_ok done
  obtain ⟨⟨name, close, _⟩, named, done⟩ := bind_eq_ok done
  obtain ⟨⟨closing, after, _⟩, closed, done⟩ := bind_eq_ok done
  cases done
  obtain ⟨readsOpening, opens⟩ :=
    symbol_sound .punctuation spelled (by decide) opened
  obtain ⟨readsName, isText⟩ := kind_eq_ok_iff.mp named
  have spelledClose := (spelled.of_reads readsOpening).of_reads readsName
  obtain ⟨readsClosing, closes⟩ :=
    symbol_sound .punctuation spelledClose (by decide) closed
  exact ⟨[opening, name, closing],
    readsOpening.cons (readsName.cons readsClosing),
    .setColor isKeyword opens isText closes⟩

/-- What is read as a change of the size is one, with its keyword. -/
theorem setSize_sound
    (spelled : cursor.WellSpelled)
    (isKeyword : Is .keyword "Size" keyword)
    (done : cursor.setSize keyword.location = .ok reading) :
    ∃ tokens,
      cursor.Reads tokens reading.next ∧
        Instruction (keyword :: tokens) reading.value := by
  obtain ⟨⟨opening, start, _⟩, opened, done⟩ := bind_eq_ok done
  obtain ⟨⟨size, close, _⟩, sized, done⟩ := bind_eq_ok done
  obtain ⟨⟨closing, after, _⟩, closed, done⟩ := bind_eq_ok done
  cases done
  obtain ⟨readsOpening, opens⟩ :=
    symbol_sound .punctuation spelled (by decide) opened
  obtain ⟨number, readsNumber, isSize⟩ := integer_eq_ok_iff.mp sized
  have spelledClose := (spelled.of_reads readsOpening).of_reads readsNumber
  obtain ⟨readsClosing, closes⟩ :=
    symbol_sound .punctuation spelledClose (by decide) closed
  exact ⟨[opening, number, closing],
    readsOpening.cons (readsNumber.cons readsClosing),
    .setSize isKeyword opens isSize closes⟩

/-- What is read as a flood is one, with its keyword. -/
theorem fill_sound
    (spelled : cursor.WellSpelled)
    (isKeyword : Is .keyword "Fill" keyword)
    (done : cursor.fill keyword.location = .ok reading) :
    ∃ tokens,
      cursor.Reads tokens reading.next ∧
        Instruction (keyword :: tokens) reading.value := by
  obtain ⟨⟨opening, close, _⟩, opened, done⟩ := bind_eq_ok done
  obtain ⟨⟨closing, after, _⟩, closed, done⟩ := bind_eq_ok done
  cases done
  obtain ⟨readsOpening, opens⟩ :=
    symbol_sound .punctuation spelled (by decide) opened
  obtain ⟨readsClosing, closes⟩ :=
    symbol_sound .punctuation (spelled.of_reads readsOpening) (by decide) closed
  exact ⟨[opening, closing], readsOpening.cons readsClosing,
    .fill isKeyword opens closes⟩

/-- What is read as a jump is one, with its keyword. -/
theorem goTo_sound
    (spelled : cursor.WellSpelled)
    (isKeyword : Is .keyword "GoTo" keyword)
    (done : cursor.goTo keyword.location = .ok reading) :
    ∃ tokens,
      cursor.Reads tokens reading.next ∧
        Instruction (keyword :: tokens) reading.value := by
  obtain ⟨⟨leftBracket, name, _⟩, bracketed, done⟩ := bind_eq_ok done
  obtain ⟨⟨label, bracket, _⟩, labelled, done⟩ := bind_eq_ok done
  obtain ⟨⟨rightBracket, start, _⟩, unbracketed, done⟩ := bind_eq_ok done
  obtain ⟨⟨opening, condition, _⟩, opened, done⟩ := bind_eq_ok done
  obtain ⟨⟨value, close, _⟩, inside, done⟩ := bind_eq_ok done
  obtain ⟨⟨closing, after, _⟩, closed, done⟩ := bind_eq_ok done
  cases done
  obtain ⟨readsLeft, isLeft⟩ :=
    symbol_sound .punctuation spelled (by decide) bracketed
  obtain ⟨readsLabel, isLabel⟩ := kind_eq_ok_iff.mp labelled
  have spelledBracket := (spelled.of_reads readsLeft).of_reads readsLabel
  obtain ⟨readsRight, isRight⟩ :=
    symbol_sound .punctuation spelledBracket (by decide) unbracketed
  have spelledStart := spelledBracket.of_reads readsRight
  obtain ⟨readsOpening, opens⟩ :=
    symbol_sound .punctuation spelledStart (by decide) opened
  have spelledCondition := spelledStart.of_reads readsOpening
  obtain ⟨tokens, readsInner, inner, _⟩ :=
    expression_sound condition 1 (by decide) spelledCondition inside
  obtain ⟨readsClosing, closes⟩ :=
    symbol_sound .punctuation (spelledCondition.of_reads readsInner)
      (by decide) closed
  exact ⟨leftBracket :: label :: rightBracket :: opening ::
    (tokens ++ [closing]),
    readsLeft.cons (readsLabel.cons (readsRight.cons (readsOpening.cons
      (readsInner.append readsClosing)))),
    .goTo isKeyword isLeft isLabel isRight opens inner closes⟩

/-- What is read as an assignment is one, with its name. -/
theorem assignment_sound
    (spelled : cursor.WellSpelled)
    {name : Token}
    (isName : name.kind = .identifier)
    (done : cursor.assignment name.lexeme name.location = .ok reading) :
    ∃ tokens,
      cursor.Reads tokens reading.next ∧
        Instruction (name :: tokens) reading.value := by
  obtain ⟨⟨arrow, start, _⟩, arrowed, done⟩ := bind_eq_ok done
  obtain ⟨⟨value, after, _⟩, inside, done⟩ := bind_eq_ok done
  cases done
  obtain ⟨readsArrow, assigns⟩ :=
    symbol_sound .assignment spelled (by decide) arrowed
  obtain ⟨tokens, readsInner, inner, _⟩ :=
    expression_sound start 1 (by decide) (spelled.of_reads readsArrow) inside
  exact ⟨arrow :: tokens, readsArrow.cons readsInner,
    .assign isName assigns inner⟩

/-- What is read after a keyword makes an instruction with it. -/
theorem afterKeyword_sound
    (spelled : cursor.WellSpelled)
    (isKeyword : keyword.kind = .keyword)
    (done : cursor.afterKeyword keyword = .ok reading) :
    ∃ tokens,
      cursor.Reads tokens reading.next ∧
        Instruction (keyword :: tokens) reading.value := by
  unfold afterKeyword at done
  split at done
  · rename_i isSpawn
    exact spawn_sound spelled ⟨isKeyword, isSpawn⟩ done
  · rename_i isColor
    exact setColor_sound spelled ⟨isKeyword, isColor⟩ done
  · rename_i isSize
    exact setSize_sound spelled ⟨isKeyword, isSize⟩ done
  · rename_i isFill
    exact fill_sound spelled ⟨isKeyword, isFill⟩ done
  · rename_i isGoTo
    exact goTo_sound spelled ⟨isKeyword, isGoTo⟩ done
  · cases done

/--
What is read after the name of a draw command makes an instruction with it.
-/
theorem afterCommand_sound
    (spelled : cursor.WellSpelled)
    {command : Token}
    (isCommand : command.kind = .command)
    (done : cursor.afterCommand command = .ok reading) :
    ∃ tokens,
      cursor.Reads tokens reading.next ∧
        Instruction (command :: tokens) reading.value := by
  unfold afterCommand at done
  split at done
  · cases done
  · rename_i draw named
    obtain ⟨⟨nodes, after, _⟩, inside, done⟩ := bind_eq_ok done
    cases done
    obtain ⟨tokens, reads, arguments⟩ := arguments_sound cursor spelled inside
    have same := List.find?_some named
    exact ⟨tokens, reads, .draw ⟨isCommand, (eq_of_beq same).symm⟩ arguments⟩

/-- A primary that starts with the name of a function is a call. -/
theorem instruction_of_primary
    {token : Token}
    {tokens : List Token}
    {node : Node}
    (isFunction : token.kind = .function)
    (starts : tokens.head? = some token)
    (primary : Primary tokens node) :
    Instruction tokens node := by
  cases primary with
  | call name arguments =>
      exact .call name arguments
  | number literal =>
      cases starts
      cases literal.kind.symm.trans isFunction
  | text other | read other | label other =>
      cases starts
      cases other.symm.trans isFunction
  | parenthesised opens =>
      cases starts
      cases opens.kind.symm.trans isFunction

/-- What is read as an instruction is one. -/
theorem instruction_sound
    (spelled : cursor.WellSpelled)
    (done : cursor.instruction = .ok reading) :
    ∃ tokens,
      cursor.Reads tokens reading.next ∧ Instruction tokens reading.value := by
  unfold instruction at done
  split at done
  · cases done
  · rename_i token next fewer found
    have reads := next?_eq_some_iff.mp found
    have spelledNext := spelled.of_reads reads
    split at done
    · rename_i isKeyword
      obtain ⟨inner, inside, done⟩ := bind_eq_ok done
      cases done
      obtain ⟨tokens, readsRest, whole⟩ :=
        afterKeyword_sound spelledNext isKeyword inside
      exact ⟨token :: tokens, reads.cons readsRest, whole⟩
    · rename_i isCommand
      obtain ⟨inner, inside, done⟩ := bind_eq_ok done
      cases done
      obtain ⟨tokens, readsRest, whole⟩ :=
        afterCommand_sound spelledNext isCommand inside
      exact ⟨token :: tokens, reads.cons readsRest, whole⟩
    · rename_i isFunction
      obtain ⟨tokens, readsAll, primary⟩ := operand_sound cursor spelled done
      refine ⟨tokens, readsAll, instruction_of_primary isFunction ?_ primary⟩
      have shape := readsAll.rest.symm.trans reads.rest
      cases tokens with
      | nil =>
          cases primary
      | cons first rest =>
          rw [List.head?_cons, (List.cons.inj shape).1]
    · rename_i isLabel
      cases done
      exact ⟨[token], reads, .label isLabel⟩
    · rename_i isName
      split at done
      · obtain ⟨inner, inside, done⟩ := bind_eq_ok done
        cases done
        obtain ⟨tokens, readsRest, whole⟩ :=
          assignment_sound spelledNext isName inside
        exact ⟨token :: tokens, reads.cons readsRest, whole⟩
      · cases done
    · cases done

end Instructions

/-- A line ends where no token is left or the next one is on another line. -/
theorem endOfLine_eq_ok_iff
    {cursor : Cursor} :
    cursor.endOfLine = .ok () ↔
      ∀ next ∈ cursor.rest.head?, next.location.line ≠ cursor.last.line := by
  unfold endOfLine
  cases cursor.rest.head? with
  | none =>
      exact iff_of_true rfl nofun
  | some next =>
      rw [Option.any_some]
      by_cases same : next.location.line = cursor.last.line
      · rw [if_pos (decide_eq_true same)]
        exact iff_of_false nofun fun different => different next rfl same
      · rw [if_neg (by simpa using same)]
        exact iff_of_true rfl fun other isNext => by
          cases isNext
          exact same

/-- The line ends after tokens exactly where the parser checks that it ends. -/
theorem endOfLine_iff_breaksLine
    {cursor next : Cursor}
    {tokens : List Token}
    (reads : cursor.Reads tokens next)
    (nonempty : tokens ≠ []) :
    next.endOfLine = .ok () ↔ BreaksLine tokens next.rest := by
  have isLast := List.getLast?_eq_some_getLast nonempty
  rw [endOfLine_eq_ok_iff, reads.last_eq nonempty, BreaksLine, isLast]
  constructor
  · intro different last isLast other isNext
    cases isLast
    exact (different other isNext).symm
  · intro different other isNext
    exact (different _ rfl other isNext).symm

/-- What is parsed as a program was spelled as one. -/
theorem instructions_sound
    (cursor : Cursor)
    (spelled : cursor.WellSpelled)
    {program : Program}
    (done : cursor.instructions = .ok program) :
    Spells cursor.rest program := by
  rw [instructions] at done
  split at done
  · rename_i ended
    cases done
    rw [List.isEmpty_iff.mp ended]
    exact .nil
  · obtain ⟨⟨node, next, fewer⟩, first, done⟩ := bind_eq_ok done
    obtain ⟨_, ended, done⟩ := bind_eq_ok done
    obtain ⟨nodes, others, done⟩ := bind_eq_ok done
    cases done
    obtain ⟨tokens, reads, whole⟩ := instruction_sound spelled first
    have less : next.remaining < cursor.remaining := fewer
    rw [reads.rest]
    exact .cons whole ((endOfLine_iff_breaksLine reads whole.nonempty).mp ended)
      (instructions_sound next (spelled.of_reads reads) others)
termination_by cursor.remaining

end Cursor

/-- The tokens of a source spell the program that is parsed from them. -/
theorem spells_of_parse
    {source : String}
    {tokens : List Token}
    {program : Program}
    (scanned : tokenize source = .ok tokens)
    (parsed : Program.parse tokens = .ok program) :
    Grammar.Spells tokens program :=
  Cursor.instructions_sound ⟨Location.nowhere, tokens⟩
    (wellSpelled_of_tokenize scanned) parsed

end PixelBrush
