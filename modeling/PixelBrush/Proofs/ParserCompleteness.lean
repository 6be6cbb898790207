import PixelBrush.Proofs.ParserSoundness

namespace PixelBrush

/-!
# What is spelled is parsed

Whatever the grammar derives from tokens, the parser reads from them, whatever
comes after.  Only for expressions something is asked of what comes after: an
operator there must be one that may have the whole expression as its left
operand, or none.  Together with soundness this makes the parser exact.
-/

namespace Cursor

open Grammar

variable
  {cursor middle next : Cursor}
  {token : Token}
  {tokens : List Token}

/-- A required symbol that is next is read. -/
theorem symbol_complete
    {kind : TokenKind}
    {text : String}
    (expectation : Expectation)
    (reads : cursor.Reads [token] next)
    (is : Is kind text token)
    (isSymbol : kind.isSymbol = true) :
    Yields (cursor.symbol text expectation) token next :=
  ⟨reads.fewer, symbol_eq_ok_iff.mpr ⟨reads, is.isSymbol isSymbol⟩⟩

/-- A token of a required kind that is next is read. -/
theorem kind_complete
    {kind : TokenKind}
    (expectation : Expectation)
    (reads : cursor.Reads [token] next)
    (isKind : token.kind = kind) :
    Yields (cursor.kind kind expectation) token next :=
  ⟨reads.fewer, kind_eq_ok_iff.mpr ⟨reads, isKind⟩⟩

/-- An integer that is next is read with its value. -/
theorem integer_complete
    {value : Number}
    (use : LiteralUse)
    (reads : cursor.Reads [token] next)
    (isInteger : IsInteger value token) :
    Yields (cursor.integer use) value next :=
  ⟨reads.fewer, integer_eq_ok_iff.mpr ⟨token, reads, isInteger⟩⟩

/-- A token that can be read is the next one. -/
theorem next?_complete
    (reads : cursor.Reads [token] next) :
    cursor.next? = some ⟨token, next, reads.fewer⟩ :=
  next?_eq_some_iff.mpr reads

/-- What may follow an operand may follow one that binds more tightly. -/
theorem MayFollow.mono
    {low high : Nat}
    (mayFollow : cursor.MayFollow low)
    (below : low ≤ high) :
    cursor.MayFollow high :=
  fun token isHead operator found =>
    Nat.le_trans (mayFollow token isHead operator found) below

/-- What may follow an operation ends its right operand. -/
theorem MayFollow.stops
    {operator : Operator}
    (mayFollow : cursor.MayFollow operator.precedence) :
    cursor.Stops operator.rightPrecedence :=
  fun token isHead next found =>
    precedence_lt_iff.mpr (mayFollow token isHead next found)

/-- Climbing ends where no tight operator comes next. -/
theorem climb_of_stops
    {minimum : Nat}
    {node : Node}
    (stops : cursor.Stops minimum) :
    Yields (cursor.climb minimum node) node cursor := by
  rw [climb]
  split
  · exact ⟨_, rfl⟩
  · rename_i token after fewer found
    have reads := next?_eq_some_iff.mp found
    split
    · exact ⟨_, rfl⟩
    · rename_i operator isOperator
      rw [if_pos
        (stops token ((mem_head?_iff reads).mpr rfl) operator isOperator)]
      exact ⟨_, rfl⟩

/-- Climbing over one operator and its right operand. -/
theorem climb_of_operator
    {operator : Operator}
    {after stop : Cursor}
    {minimum : Nat}
    {left right whole : Node}
    (reads : cursor.Reads [token] middle)
    (spelled : Is (tokenKind operator) operator.symbol token)
    (tight : minimum ≤ operator.precedence)
    (second : Yields (middle.expression operator.rightPrecedence) right after)
    (climbs :
      Yields
        (after.climb minimum (.operation operator left right token.location))
        whole stop) :
    Yields (cursor.climb minimum left) whole stop := by
  rw [climb, next?_complete reads]
  dsimp only
  rw [operatorOf?_of_is spelled]
  dsimp only
  rw [if_neg (Nat.not_lt_of_le tight)]
  apply second.bind
  intro fewer
  apply climbs.bind
  intro fewest
  exact ⟨_, rfl⟩

/-- Before an operator stands what it may have as its left operand. -/
theorem mayFollow_of_operator
    {operator : Operator}
    (reads : cursor.Reads [token] next)
    (spelled : Is (tokenKind operator) operator.symbol token) :
    cursor.MayFollow (leftPrecedence operator) := by
  intro other isHead found isOperator
  rw [(mem_head?_iff reads).mp isHead, operatorOf?_of_is spelled] at isOperator
  cases isOperator
  exact Nat.le_refl _

/-- A cursor is at a symbol if its next token is this symbol. -/
theorem atSymbol_of_reads
    {others : List Token}
    (reads : cursor.Reads (token :: others) next)
    (text : String) :
    cursor.atSymbol text = token.isSymbol text := by
  rw [atSymbol, reads.rest]
  rfl

/-- An optional symbol that is not next is not read. -/
theorem token?_of_not_atSymbol
    {text : String}
    (absent : cursor.atSymbol text = false) :
    cursor.token? (·.isSymbol text) = none := by
  rw [Option.eq_none_iff_forall_ne_some]
  intro reading found
  obtain ⟨reads, isSymbol⟩ := token?_eq_some_iff.mp found
  rw [atSymbol_of_reads reads, isSymbol] at absent
  cases absent

/-- No operator comes next. -/
def AtNoOperator (cursor : Cursor) : Prop :=
  ∀ token ∈ cursor.rest.head?, operatorOf? token = none

/-- Where no operator comes next, operands of all levels may end. -/
theorem AtNoOperator.mayFollow
    {level : Nat}
    (none : cursor.AtNoOperator) :
    cursor.MayFollow level := by
  intro token isHead operator found
  rw [none token isHead] at found
  cases found

/-- Where no operator comes next, every expression ends. -/
theorem AtNoOperator.stops
    {minimum : Nat}
    (none : cursor.AtNoOperator) :
    cursor.Stops minimum := by
  intro token isHead operator found
  rw [none token isHead] at found
  cases found

/-- No operator comes next if the next token is of no class of operators. -/
theorem atNoOperator_of_head
    (isHead : cursor.rest.head? = some token)
    (notArithmetic : token.kind ≠ .arithmetic)
    (notBoolean : token.kind ≠ .boolean) :
    cursor.AtNoOperator := by
  intro other isOther
  cases isHead.symm.trans isOther
  rw [operatorOf?, if_neg (not_or.mpr ⟨notArithmetic, notBoolean⟩)]

/-- Punctuation is no operator. -/
theorem atNoOperator_of_punctuation
    {text : String}
    {others : List Token}
    (is : Is .punctuation text token)
    (reads : cursor.Reads (token :: others) next) :
    cursor.AtNoOperator := by
  have isHead : cursor.rest.head? = some token := by
    rw [reads.rest]
    rfl
  apply atNoOperator_of_head isHead <;> rw [is.kind] <;> nofun

/-! ## One lemma for each rule of the grammar -/

/-- The tokens are read as an operand, whatever follows. -/
def ReadAsOperand (tokens : List Token) (node : Node) : Prop :=
  ∀ {cursor next : Cursor},
    cursor.Reads tokens next →
    Yields cursor.operand node next

/-- The tokens are read as arguments, whatever follows. -/
def ReadAsArguments (tokens : List Token) (nodes : List Node) : Prop :=
  ∀ {cursor next : Cursor} (word : String),
    cursor.Reads tokens next →
    Yields (cursor.arguments word) nodes next

/-- The tokens are read as operands, if no comma follows. -/
def ReadAsOperands (tokens : List Token) (nodes : List Node) : Prop :=
  ∀ {cursor next : Cursor},
    cursor.Reads tokens next →
    next.atSymbol "," = false →
    Yields cursor.operands nodes next

/-- The tokens are read as an expression that is then climbed on from. -/
def ReadAsExpression (level : Nat) (tokens : List Token) (node : Node) : Prop :=
  ∀ {minimum : Nat} {cursor middle next : Cursor} {whole : Node},
    minimum ≤ level →
    cursor.Reads tokens middle →
    middle.MayFollow level →
    Yields (middle.climb minimum node) whole next →
    Yields (cursor.expression minimum) whole next

section Rules

variable
  {opening closing comma : Token}
  {others : List Token}
  {node left right : Node}
  {nodes : List Node}
  {level : Nat}

/-- An integer literal is read as an operand. -/
theorem readAsOperand_number
    {value : Number}
    (literal : IsInteger value token) :
    ReadAsOperand [token] (.number value token.location) := by
  intro cursor next reads
  rw [operand]
  simp only [next?_complete reads, literal.kind]
  apply (integer_complete .operand reads literal).bind
  intro fewer
  exact ⟨_, rfl⟩

/-- A string literal is read as an operand. -/
theorem readAsOperand_text
    (literal : token.kind = .text) :
    ReadAsOperand [token] (.text token.lexeme token.location) := by
  intro cursor next reads
  rw [operand]
  simp only [next?_complete reads, literal]
  exact ⟨_, rfl⟩

/-- A variable is read as an operand. -/
theorem readAsOperand_read
    (name : token.kind = .identifier) :
    ReadAsOperand [token] (.read token.lexeme token.location) := by
  intro cursor next reads
  rw [operand]
  simp only [next?_complete reads, name]
  exact ⟨_, rfl⟩

/-- A label is read as an operand. -/
theorem readAsOperand_label
    (name : token.kind = .label) :
    ReadAsOperand [token] (.label token.lexeme token.location) := by
  intro cursor next reads
  rw [operand]
  simp only [next?_complete reads, name]
  exact ⟨_, rfl⟩

/-- Every function is found by its name. -/
theorem ofName?_name (function : Builtin) :
    Builtin.ofName? function.name = some function := by
  cases function <;> decide

/-- A call is read as an operand, with its arguments. -/
theorem readAsOperand_call
    {function : Builtin}
    (name : Is .function function.name token)
    (arguments : ReadAsArguments tokens nodes) :
    ReadAsOperand (token :: tokens) (.call function nodes token.location) := by
  intro cursor next reads
  obtain ⟨middle, readsName, readsRest⟩ := reads.uncons
  have known : Builtin.ofName? token.lexeme = some function := by
    rw [name.text, ofName?_name]
  rw [operand]
  simp only [next?_complete readsName, name.kind, known]
  apply (arguments token.lexeme readsRest).bind
  intro fewer
  exact ⟨_, rfl⟩

/-- An expression is read whole where no operator follows. -/
theorem ReadAsExpression.whole
    {minimum : Nat}
    (expression : ReadAsExpression level tokens node)
    (reaches : minimum ≤ level)
    (reads : cursor.Reads tokens next)
    (mayFollow : next.MayFollow level)
    (stops : next.Stops minimum) :
    Yields (cursor.expression minimum) node next :=
  expression reaches reads mayFollow (climb_of_stops stops)

/-- An expression in parentheses is read as an operand. -/
theorem readAsOperand_parenthesised
    (opens : Is .punctuation "(" opening)
    (inner : ReadAsExpression 1 tokens node)
    (closes : Is .punctuation ")" closing) :
    ReadAsOperand (opening :: (tokens ++ [closing])) node := by
  intro cursor next reads
  obtain ⟨start, readsOpening, readsRest⟩ := reads.uncons
  obtain ⟨close, readsInner, readsClosing⟩ := readsRest.split
  have atNone := atNoOperator_of_punctuation closes readsClosing
  rw [operand]
  simp only [next?_complete readsOpening, opens.kind, opens.text, and_self,
    ↓reduceIte]
  apply (inner.whole (Nat.le_refl 1) readsInner atNone.mayFollow
    atNone.stops).bind
  intro fewer
  apply (symbol_complete .expressionClose readsClosing closes rfl).bind
  intro fewest
  exact ⟨_, rfl⟩

/-- Empty parentheses are read as no arguments. -/
theorem readAsArguments_none
    (opens : Is .punctuation "(" opening)
    (closes : Is .punctuation ")" closing) :
    ReadAsArguments [opening, closing] [] := by
  intro cursor next word reads
  obtain ⟨start, readsOpening, readsClosing⟩ := reads.uncons
  rw [Cursor.arguments]
  apply (symbol_complete (.openAfter word) readsOpening opens rfl).bind
  intro fewer
  dsimp only
  rw [if_pos ((atSymbol_of_reads readsClosing ")").trans (closes.isSymbol rfl))]
  apply (symbol_complete .argumentsClose readsClosing closes rfl).bind
  intro fewest
  exact ⟨_, rfl⟩

/-- Operands in parentheses are read as arguments. -/
theorem readAsArguments_some
    (opens : Is .punctuation "(" opening)
    (starts :
      ∃ first rest,
        tokens = first :: rest ∧
          ∀ text, text ≠ "(" → first.isSymbol text = false)
    (inner : ReadAsOperands tokens nodes)
    (closes : Is .punctuation ")" closing) :
    ReadAsArguments (opening :: (tokens ++ [closing])) nodes := by
  intro cursor next word reads
  obtain ⟨start, readsOpening, readsRest⟩ := reads.uncons
  obtain ⟨close, readsInner, readsClosing⟩ := readsRest.split
  have notClosing : ¬ start.atSymbol ")" = true := by
    obtain ⟨first, rest, rfl, noSymbol⟩ := starts
    rw [atSymbol_of_reads readsInner, noSymbol ")" (by decide)]
    nofun
  have noComma : close.atSymbol "," = false := by
    rw [atSymbol_of_reads readsClosing, closes.isSymbol_eq_false (by decide)]
  rw [Cursor.arguments]
  apply (symbol_complete (.openAfter word) readsOpening opens rfl).bind
  intro fewer
  dsimp only
  rw [if_neg notClosing]
  apply (inner readsInner noComma).bind
  intro fewerStill
  apply (symbol_complete .argumentsClose readsClosing closes rfl).bind
  intro fewest
  exact ⟨_, rfl⟩

/-- A single operand is read as a list of operands. -/
theorem readAsOperands_one
    (only : ReadAsOperand tokens node) :
    ReadAsOperands tokens [node] := by
  intro cursor next reads noComma
  rw [Cursor.operands]
  apply (only reads).bind
  intro fewer
  simp only [token?_of_not_atSymbol noComma]
  exact ⟨_, rfl⟩

/-- After a comma, more operands are read. -/
theorem readAsOperands_more
    (first : ReadAsOperand tokens node)
    (separates : Is .punctuation "," comma)
    (rest : ReadAsOperands others nodes) :
    ReadAsOperands (tokens ++ comma :: others) (node :: nodes) := by
  intro cursor next reads noComma
  obtain ⟨middle, readsFirst, readsRest⟩ := reads.split
  obtain ⟨more, readsComma, readsOthers⟩ := readsRest.uncons
  have found :
      middle.token? (·.isSymbol ",") = some ⟨comma, more, readsComma.fewer⟩ :=
    token?_eq_some_iff.mpr ⟨readsComma, separates.isSymbol rfl⟩
  rw [Cursor.operands]
  apply (first readsFirst).bind
  intro fewer
  simp only [found]
  apply (rest readsOthers noComma).bind
  intro fewest
  exact ⟨_, rfl⟩

/-- An operand is read as an expression of the tightest level. -/
theorem readAsExpression_primary
    (whole : ReadAsOperand tokens node) :
    ReadAsExpression primaryLevel tokens node := by
  intro minimum cursor middle next result _ reads _ climbs
  -- Reading an expression is reading an operand and climbing on from it.
  rw [expression]
  apply (whole reads).bind
  intro fewer
  apply climbs.bind
  intro fewest
  exact ⟨_, rfl⟩

/-- What is read at a tighter level is read at the level below. -/
theorem readAsExpression_tighter
    (inner : ReadAsExpression (level + 1) tokens node) :
    ReadAsExpression level tokens node := by
  intro minimum cursor middle next result reaches reads mayFollow climbs
  exact inner (Nat.le_succ_of_le reaches) reads
    (mayFollow.mono (Nat.le_succ level)) climbs

/--
An operation is read at the precedence of its operator.  The left operand is
read first, and the climb from it takes the operator and the right one.
-/
theorem readAsExpression_operation
    {operator : Operator}
    {leftTokens rightTokens : List Token}
    (first : ReadAsExpression (leftPrecedence operator) leftTokens left)
    (spelled : Is (tokenKind operator) operator.symbol token)
    (second : ReadAsExpression operator.rightPrecedence rightTokens right) :
    ReadAsExpression operator.precedence (leftTokens ++ token :: rightTokens)
      (.operation operator left right token.location) := by
  intro minimum cursor middle next result reaches reads mayFollow climbs
  obtain ⟨between, readsLeft, readsRest⟩ := reads.split
  obtain ⟨start, readsOperator, readsRight⟩ := readsRest.uncons
  -- What may follow the whole is too loose for the right operand, which ends
  -- there.
  have rightRead :
      Yields (start.expression operator.rightPrecedence) right middle :=
    second.whole (Nat.le_refl _) readsRight
      (mayFollow.mono (precedence_le_rightPrecedence operator)) mayFollow.stops
  exact first
    (Nat.le_trans reaches (precedence_le_leftPrecedence operator)) readsLeft
    (mayFollow_of_operator readsOperator spelled)
    (climb_of_operator readsOperator spelled reaches rightRead climbs)

/-- An ordinary operator takes a left operand of its own level. -/
theorem readAsExpression_groupsLeft
    {operator : Operator}
    {leftTokens rightTokens : List Token}
    (listed : operator ∈ operatorsAt level)
    (ordinary : operator ≠ .arithmetic .power)
    (first : ReadAsExpression level leftTokens left)
    (spelled : Is (tokenKind operator) operator.symbol token)
    (second : ReadAsExpression (level + 1) rightTokens right) :
    ReadAsExpression level (leftTokens ++ token :: rightTokens)
      (.operation operator left right token.location) := by
  cases precedence_of_mem_operatorsAt listed
  apply readAsExpression_operation
  · rwa [leftPrecedence, if_neg ordinary]
  · exact spelled
  · rwa [Operator.rightPrecedence, if_neg ordinary]

/-- A power takes a right operand of its own level. -/
theorem readAsExpression_groupsRight
    {operator : Operator}
    {leftTokens rightTokens : List Token}
    (listed : operator ∈ operatorsAt level)
    (power : operator = .arithmetic .power)
    (first : ReadAsExpression (level + 1) leftTokens left)
    (spelled : Is (tokenKind operator) operator.symbol token)
    (second : ReadAsExpression level rightTokens right) :
    ReadAsExpression level (leftTokens ++ token :: rightTokens)
      (.operation operator left right token.location) := by
  cases precedence_of_mem_operatorsAt listed
  apply readAsExpression_operation
  · rwa [leftPrecedence, if_pos power]
  · exact spelled
  · rwa [Operator.rightPrecedence, if_pos power]

end Rules

end Cursor

namespace Grammar

open Cursor

mutual

/-- Every primary is read as an operand. -/
theorem Primary.isRead
    {tokens : List Token}
    {node : Node} :
    Primary tokens node → ReadAsOperand tokens node
  | .number literal => readAsOperand_number literal
  | .text literal => readAsOperand_text literal
  | .read name => readAsOperand_read name
  | .label name => readAsOperand_label name
  | .call name arguments => readAsOperand_call name arguments.isRead
  | .parenthesised opens inner closes =>
      readAsOperand_parenthesised opens inner.isRead closes

/-- All arguments are read as such. -/
theorem Arguments.isRead
    {tokens : List Token}
    {nodes : List Node} :
    Arguments tokens nodes → ReadAsArguments tokens nodes
  | .none opens closes => readAsArguments_none opens closes
  | .some opens inner closes =>
      readAsArguments_some opens inner.starts inner.isRead closes

/-- Primaries with commas between them are read as operands. -/
theorem Primaries.isRead
    {tokens : List Token}
    {nodes : List Node} :
    Primaries tokens nodes → ReadAsOperands tokens nodes
  | .one only => readAsOperands_one only.isRead
  | .more first separates others =>
      readAsOperands_more first.isRead separates others.isRead

/-- Every expression is read at its level. -/
theorem Expression.isRead
    {level : Nat}
    {tokens : List Token}
    {node : Node} :
    Expression level tokens node → ReadAsExpression level tokens node
  | .primary whole => readAsExpression_primary whole.isRead
  | .tighter inner => readAsExpression_tighter inner.isRead
  | .groupsLeft listed ordinary spelled first second =>
      readAsExpression_groupsLeft listed ordinary first.isRead spelled
        second.isRead
  | .groupsRight listed power spelled first second =>
      readAsExpression_groupsRight listed power first.isRead spelled
        second.isRead

end

end Grammar

namespace Cursor

open Grammar

section Instructions

variable
  {cursor middle next : Cursor}
  {word opening closing : Token}
  {tokens : List Token}
  {node : Node}

/--
The condition of a jump or the value of an assignment, which no operator
follows.
-/
theorem expression_complete
    (whole : Expression 1 tokens node)
    (reads : cursor.Reads tokens next)
    (atNone : next.AtNoOperator) :
    Yields (cursor.expression 1) node next :=
  ReadAsExpression.whole whole.isRead (Nat.le_refl 1) reads
    atNone.mayFollow atNone.stops

/--
An instruction that starts with a keyword is read by what follows the keyword.
-/
theorem instruction_of_keyword
    (reads : cursor.Reads [word] middle)
    (isKeyword : word.kind = .keyword)
    (done : Yields (middle.afterKeyword word) node next) :
    Yields cursor.instruction node next := by
  unfold instruction
  simp only [next?_complete reads, isKeyword]
  apply done.bind
  intro fewer
  exact ⟨_, rfl⟩

/-- What follows the keyword of a spawn is read. -/
theorem spawn_complete
    {first comma second : Token}
    {x y : Number}
    (opens : Is .punctuation "(" opening)
    (column : IsInteger x first)
    (separates : Is .punctuation "," comma)
    (row : IsInteger y second)
    (closes : Is .punctuation ")" closing)
    (reads : cursor.Reads [opening, first, comma, second, closing] next)
    (location : Location) :
    Yields (cursor.spawn location) (.spawn x y location) next := by
  obtain ⟨_, readsOpening, reads⟩ := reads.uncons
  obtain ⟨_, readsFirst, reads⟩ := reads.uncons
  obtain ⟨_, readsComma, reads⟩ := reads.uncons
  obtain ⟨_, readsSecond, readsClosing⟩ := reads.uncons
  apply (symbol_complete _ readsOpening opens rfl).bind
  intro _
  apply (integer_complete _ readsFirst column).bind
  intro _
  apply (symbol_complete _ readsComma separates rfl).bind
  intro _
  apply (integer_complete _ readsSecond row).bind
  intro _
  apply (symbol_complete _ readsClosing closes rfl).bind
  intro _
  exact ⟨_, rfl⟩

/-- What follows the keyword of a change of the color is read. -/
theorem setColor_complete
    {name : Token}
    (opens : Is .punctuation "(" opening)
    (text : name.kind = .text)
    (closes : Is .punctuation ")" closing)
    (reads : cursor.Reads [opening, name, closing] next)
    (location : Location) :
    Yields (cursor.setColor location)
      (.setColor name.lexeme location) next := by
  obtain ⟨_, readsOpening, reads⟩ := reads.uncons
  obtain ⟨_, readsName, readsClosing⟩ := reads.uncons
  apply (symbol_complete _ readsOpening opens rfl).bind
  intro _
  apply (kind_complete _ readsName text).bind
  intro _
  apply (symbol_complete _ readsClosing closes rfl).bind
  intro _
  exact ⟨_, rfl⟩

/-- What follows the keyword of a change of the size is read. -/
theorem setSize_complete
    {number : Token}
    {size : Number}
    (opens : Is .punctuation "(" opening)
    (side : IsInteger size number)
    (closes : Is .punctuation ")" closing)
    (reads : cursor.Reads [opening, number, closing] next)
    (location : Location) :
    Yields (cursor.setSize location) (.setSize size location) next := by
  obtain ⟨_, readsOpening, reads⟩ := reads.uncons
  obtain ⟨_, readsNumber, readsClosing⟩ := reads.uncons
  apply (symbol_complete _ readsOpening opens rfl).bind
  intro _
  apply (integer_complete _ readsNumber side).bind
  intro _
  apply (symbol_complete _ readsClosing closes rfl).bind
  intro _
  exact ⟨_, rfl⟩

/-- What follows the keyword of a flood is read. -/
theorem fill_complete
    (opens : Is .punctuation "(" opening)
    (closes : Is .punctuation ")" closing)
    (reads : cursor.Reads [opening, closing] next)
    (location : Location) :
    Yields (cursor.fill location) (.fill location) next := by
  obtain ⟨_, readsOpening, readsClosing⟩ := reads.uncons
  apply (symbol_complete _ readsOpening opens rfl).bind
  intro _
  apply (symbol_complete _ readsClosing closes rfl).bind
  intro _
  exact ⟨_, rfl⟩

/-- What follows the keyword of a jump is read. -/
theorem goTo_complete
    {leftBracket label rightBracket : Token}
    (bracket : Is .punctuation "[" leftBracket)
    (target : label.kind = .label)
    (unbracket : Is .punctuation "]" rightBracket)
    (opens : Is .punctuation "(" opening)
    (inner : Expression 1 tokens node)
    (closes : Is .punctuation ")" closing)
    (reads :
      cursor.Reads
        (leftBracket :: label :: rightBracket :: opening ::
          (tokens ++ [closing])) next)
    (location : Location) :
    Yields (cursor.goTo location) (.goTo label.lexeme node location) next := by
  obtain ⟨_, readsLeft, reads⟩ := reads.uncons
  obtain ⟨_, readsLabel, reads⟩ := reads.uncons
  obtain ⟨_, readsRight, reads⟩ := reads.uncons
  obtain ⟨_, readsOpening, reads⟩ := reads.uncons
  obtain ⟨_, readsInner, readsClosing⟩ := reads.split
  apply (symbol_complete _ readsLeft bracket rfl).bind
  intro _
  apply (kind_complete _ readsLabel target).bind
  intro _
  apply (symbol_complete _ readsRight unbracket rfl).bind
  intro _
  apply (symbol_complete _ readsOpening opens rfl).bind
  intro _
  apply (expression_complete inner readsInner
    (atNoOperator_of_punctuation closes readsClosing)).bind
  intro _
  apply (symbol_complete _ readsClosing closes rfl).bind
  intro _
  exact ⟨_, rfl⟩

/--
What follows the name in an assignment is read, up to a token that is no
operator.
-/
theorem assignment_complete
    {arrow : Token}
    (assigns : Is .assignment "<-" arrow)
    (inner : Expression 1 tokens node)
    (reads : cursor.Reads (arrow :: tokens) next)
    (atNone : next.AtNoOperator)
    (name : String)
    (location : Location) :
    Yields (cursor.assignment name location)
      (.assign name node location) next := by
  obtain ⟨_, readsArrow, readsInner⟩ := reads.uncons
  apply (symbol_complete _ readsArrow assigns rfl).bind
  intro _
  apply (expression_complete inner readsInner atNone).bind
  intro _
  exact ⟨_, rfl⟩

/-- What follows the name of a draw command is read. -/
theorem afterCommand_complete
    {command : DrawCommand}
    {nodes : List Node}
    (name : Is .command command.name word)
    (arguments : Arguments tokens nodes)
    (reads : cursor.Reads tokens next) :
    Yields (cursor.afterCommand word)
      (.draw command nodes word.location) next := by
  have known : DrawCommand.ofName? word.lexeme = some command := by
    rw [name.text]
    cases command <;> decide
  unfold afterCommand
  rw [known]
  apply (arguments.isRead word.lexeme reads).bind
  intro _
  exact ⟨_, rfl⟩

/-- Every instruction is read, up to a token that is no operator. -/
theorem instruction_complete
    (whole : Instruction tokens node)
    (reads : cursor.Reads tokens next)
    (atNone : next.AtNoOperator) :
    Yields cursor.instruction node next := by
  cases whole with
  | spawn keyword opens column separates row closes =>
      obtain ⟨middle, readsWord, readsRest⟩ := reads.uncons
      apply instruction_of_keyword readsWord keyword.kind
      simp only [afterKeyword, keyword.text]
      exact spawn_complete opens column separates row closes readsRest _
  | setColor keyword opens text closes =>
      obtain ⟨middle, readsWord, readsRest⟩ := reads.uncons
      apply instruction_of_keyword readsWord keyword.kind
      simp only [afterKeyword, keyword.text]
      exact setColor_complete opens text closes readsRest _
  | setSize keyword opens side closes =>
      obtain ⟨middle, readsWord, readsRest⟩ := reads.uncons
      apply instruction_of_keyword readsWord keyword.kind
      simp only [afterKeyword, keyword.text]
      exact setSize_complete opens side closes readsRest _
  | fill keyword opens closes =>
      obtain ⟨middle, readsWord, readsRest⟩ := reads.uncons
      apply instruction_of_keyword readsWord keyword.kind
      simp only [afterKeyword, keyword.text]
      exact fill_complete opens closes readsRest _
  | goTo keyword bracket target unbracket opens inner closes =>
      obtain ⟨middle, readsWord, readsRest⟩ := reads.uncons
      apply instruction_of_keyword readsWord keyword.kind
      simp only [afterKeyword, keyword.text]
      exact goTo_complete bracket target unbracket opens inner
        closes readsRest _
  | draw name arguments =>
      obtain ⟨middle, readsWord, readsRest⟩ := reads.uncons
      unfold instruction
      simp only [next?_complete readsWord, name.kind]
      apply (afterCommand_complete name arguments readsRest).bind
      intro _
      exact ⟨_, rfl⟩
  | assign target assigns inner =>
      obtain ⟨middle, readsName, readsRest⟩ := reads.uncons
      have atArrow : middle.rest.head?.any (·.kind = .assignment) = true := by
        rw [readsRest.rest]
        exact decide_eq_true assigns.kind
      unfold instruction
      simp only [next?_complete readsName, target, atArrow, ↓reduceIte]
      apply (assignment_complete assigns inner readsRest atNone _ _).bind
      intro _
      exact ⟨_, rfl⟩
  | call name arguments =>
      obtain ⟨middle, readsWord, _⟩ := reads.uncons
      unfold instruction
      simp only [next?_complete readsWord, name.kind]
      exact (Primary.call name arguments).isRead reads
  | label declared =>
      unfold instruction
      simp only [next?_complete reads, declared]
      exact ⟨_, rfl⟩

end Instructions

/-- A program does not start with an operator. -/
theorem atNoOperator_of_spells
    {tokens : List Token}
    {program : Program}
    (spells : Spells tokens program)
    (last : Location) :
    AtNoOperator ⟨last, tokens⟩ := by
  cases spells with
  | nil =>
      nofun
  | cons first _ _ =>
      obtain ⟨token, rest, rfl, notArithmetic, notBoolean⟩ := first.starts
      exact atNoOperator_of_head rfl notArithmetic notBoolean

/-- What is spelled as a program is parsed as it. -/
theorem instructions_complete
    {tokens : List Token}
    {program : Program}
    (spells : Spells tokens program)
    (last : Location) :
    instructions ⟨last, tokens⟩ = .ok program := by
  induction spells generalizing last with
  | nil =>
      rw [instructions]
      rfl
  | @cons tokens rest node program first newLine others inductionHypothesis =>
      let next : Cursor :=
        ⟨tokens.foldl (fun _ token => token.location) last, rest⟩
      have reads : Reads ⟨last, tokens ++ rest⟩ tokens next := ⟨rfl, rfl⟩
      have nonempty := first.nonempty
      obtain ⟨fewer, read⟩ :=
        instruction_complete first reads
          (atNoOperator_of_spells others next.last)
      have ended := (endOfLine_iff_breaksLine reads nonempty).mpr newLine
      have continues : next.instructions = .ok program :=
        inductionHypothesis next.last
      rw [instructions,
        if_neg (by simpa using fun isEmpty => (nonempty isEmpty).elim), read]
      simp only [bind, Except.bind, ended, continues]
      rfl

end Cursor

/-- The parser accepts what the grammar derives, with the program it derives. -/
theorem Program.parse_eq_ok_iff_spells
    {source : String}
    {tokens : List Token}
    (scanned : tokenize source = .ok tokens)
    (program : Program) :
    parse tokens = .ok program ↔ Grammar.Spells tokens program :=
  ⟨Cursor.instructions_sound ⟨Location.nowhere, tokens⟩
    (wellSpelled_of_tokenize scanned),
    fun spells => Cursor.instructions_complete spells Location.nowhere⟩

/--
Powers inside a product, a comparison inside a conjunction, and a label in two
roles.
-/
theorem Program.parse_eq_ok_iff_spells_loop :
    ∃ tokens program,
      tokenize
        "n <- 2 ** 3 ** 2 * -5 && n < 4\nb\nGoTo [b] (GetActualX() > (n - 1))" =
          .ok tokens ∧
        parse tokens = .ok program ∧ Grammar.Spells tokens program := by
  have accepted :
      (ofSource
          "n <- 2 ** 3 ** 2 * -5 && n < 4\nb\nGoTo [b] (GetActualX() > (n - 1))"
        ).isOk =
        true := by
    decide +kernel
  unfold ofSource at accepted
  split at accepted
  · cases accepted
  · rename_i tokens scanned
    cases parsed : parse tokens with
    | error =>
        rw [parsed] at accepted
        cases accepted
    | ok program =>
        exact ⟨tokens, program, scanned, parsed,
          (parse_eq_ok_iff_spells scanned program).mp parsed⟩

end PixelBrush
