import PixelBrush.Program.Node
import PixelBrush.Token.Basic

namespace PixelBrush.Grammar

/-!
# The grammar of programs

Which lists of tokens spell which programs, said without a parser.  Operators
stand on six levels, and an expression of a level is made of expressions of the
same level on the side to which the level groups and of the next tighter level
on the other side, so that every list of tokens has at most one reading.
Tighter than all levels are the primaries, which are also what arguments have to
be.

A node has the place of the token that makes it what it is: the operator between
two operands, and otherwise the first token.  Parentheses leave the place alone.
-/

/-- A token of a class with exactly this text. -/
structure Is (kind : TokenKind) (text : String) (token : Token) : Prop where
  kind : token.kind = kind
  text : token.lexeme = text

/-- A number token with its value. -/
structure IsInteger (value : Number) (token : Token) : Prop where
  kind : token.kind = .number
  value : Number.read? token.lexeme.toList = some value

/-- The class of the token of an operator. -/
def tokenKind : Operator → TokenKind
  | .arithmetic _ => .arithmetic
  | .boolean _ => .boolean

/-- The operators of a level, from the loosest level to the tightest. -/
def operatorsAt : Nat → List Operator
  | 1 => [.arithmetic .add, .arithmetic .subtract]
  | 2 => [.arithmetic .multiply, .arithmetic .divide, .arithmetic .remainder]
  | 3 => [.arithmetic .power]
  | 4 => [.boolean .and]
  | 5 => [.boolean .or]
  | 6 =>
      [.boolean .equal, .boolean .unequal, .boolean .less,
        .boolean .lessOrEqual,
      .boolean .greater, .boolean .greaterOrEqual]
  | _ => []

/-- The level of expressions in which no operator stands outside parentheses. -/
def primaryLevel : Nat := 7

mutual

/-- Literals, names, calls and parenthesised expressions. -/
inductive Primary : List Token → Node → Prop where
  | number
      {token : Token}
      {value : Number}
      (literal : IsInteger value token) :
      Primary [token] (.number value token.location)
  | text
      {token : Token}
      (literal : token.kind = .text) :
      Primary [token] (.text token.lexeme token.location)
  | read
      {token : Token}
      (name : token.kind = .identifier) :
      Primary [token] (.read token.lexeme token.location)
  | label
      {token : Token}
      (name : token.kind = .label) :
      Primary [token] (.label token.lexeme token.location)
  | call
      {token : Token}
      {function : Builtin}
      {tokens : List Token}
      {nodes : List Node}
      (name : Is .function function.name token)
      (arguments : Arguments tokens nodes) :
      Primary (token :: tokens) (.call function nodes token.location)
  | parenthesised
      {opening closing : Token}
      {tokens : List Token}
      {node : Node}
      (opens : Is .punctuation "(" opening)
      (inner : Expression 1 tokens node)
      (closes : Is .punctuation ")" closing) :
      Primary (opening :: (tokens ++ [closing])) node

/-- A parenthesised list of primaries, which may be empty. -/
inductive Arguments : List Token → List Node → Prop where
  | none
      {opening closing : Token}
      (opens : Is .punctuation "(" opening)
      (closes : Is .punctuation ")" closing) :
      Arguments [opening, closing] []
  | some
      {opening closing : Token}
      {tokens : List Token}
      {nodes : List Node}
      (opens : Is .punctuation "(" opening)
      (inner : Primaries tokens nodes)
      (closes : Is .punctuation ")" closing) :
      Arguments (opening :: (tokens ++ [closing])) nodes

/-- One or more primaries with commas between them. -/
inductive Primaries : List Token → List Node → Prop where
  | one
      {tokens : List Token}
      {node : Node}
      (only : Primary tokens node) :
      Primaries tokens [node]
  | more
      {tokens rest : List Token}
      {comma : Token}
      {node : Node}
      {nodes : List Node}
      (first : Primary tokens node)
      (separates : Is .punctuation "," comma)
      (others : Primaries rest nodes) :
      Primaries (tokens ++ comma :: rest) (node :: nodes)

/-- Expressions of a level. -/
inductive Expression : Nat → List Token → Node → Prop where
  | primary
      {tokens : List Token}
      {node : Node}
      (whole : Primary tokens node) :
      Expression primaryLevel tokens node
  | tighter
      {level : Nat}
      {tokens : List Token}
      {node : Node}
      (inner : Expression (level + 1) tokens node) :
      Expression level tokens node
  | groupsLeft
      {level : Nat}
      {operator : Operator}
      {token : Token}
      {leftTokens rightTokens : List Token}
      {left right : Node}
      (listed : operator ∈ operatorsAt level)
      (ordinary : operator ≠ .arithmetic .power)
      (spelled : Is (tokenKind operator) operator.symbol token)
      (first : Expression level leftTokens left)
      (second : Expression (level + 1) rightTokens right) :
      Expression level (leftTokens ++ token :: rightTokens)
        (.operation operator left right token.location)
  | groupsRight
      {level : Nat}
      {operator : Operator}
      {token : Token}
      {leftTokens rightTokens : List Token}
      {left right : Node}
      (listed : operator ∈ operatorsAt level)
      (power : operator = .arithmetic .power)
      (spelled : Is (tokenKind operator) operator.symbol token)
      (first : Expression (level + 1) leftTokens left)
      (second : Expression level rightTokens right) :
      Expression level (leftTokens ++ token :: rightTokens)
        (.operation operator left right token.location)

end

/-- One instruction. -/
inductive Instruction : List Token → Node → Prop where
  | spawn
      {word opening first comma second closing : Token}
      {x y : Number}
      (keyword : Is .keyword "Spawn" word)
      (opens : Is .punctuation "(" opening)
      (column : IsInteger x first)
      (separates : Is .punctuation "," comma)
      (row : IsInteger y second)
      (closes : Is .punctuation ")" closing) :
      Instruction [word, opening, first, comma, second, closing]
        (.spawn x y word.location)
  | setColor
      {word opening name closing : Token}
      (keyword : Is .keyword "Color" word)
      (opens : Is .punctuation "(" opening)
      (text : name.kind = .text)
      (closes : Is .punctuation ")" closing) :
      Instruction [word, opening, name, closing]
        (.setColor name.lexeme word.location)
  | setSize
      {word opening number closing : Token}
      {size : Number}
      (keyword : Is .keyword "Size" word)
      (opens : Is .punctuation "(" opening)
      (side : IsInteger size number)
      (closes : Is .punctuation ")" closing) :
      Instruction [word, opening, number, closing] (.setSize size word.location)
  | fill
      {word opening closing : Token}
      (keyword : Is .keyword "Fill" word)
      (opens : Is .punctuation "(" opening)
      (closes : Is .punctuation ")" closing) :
      Instruction [word, opening, closing] (.fill word.location)
  | draw
      {word : Token}
      {command : DrawCommand}
      {tokens : List Token}
      {nodes : List Node}
      (name : Is .command command.name word)
      (arguments : Arguments tokens nodes) :
      Instruction (word :: tokens) (.draw command nodes word.location)
  | goTo
      {word leftBracket label rightBracket opening closing : Token}
      {tokens : List Token}
      {condition : Node}
      (keyword : Is .keyword "GoTo" word)
      (bracket : Is .punctuation "[" leftBracket)
      (target : label.kind = .label)
      (unbracket : Is .punctuation "]" rightBracket)
      (opens : Is .punctuation "(" opening)
      (inner : Expression 1 tokens condition)
      (closes : Is .punctuation ")" closing) :
      Instruction
        (word :: leftBracket :: label :: rightBracket :: opening ::
          (tokens ++ [closing]))
        (.goTo label.lexeme condition word.location)
  | assign
      {name arrow : Token}
      {tokens : List Token}
      {value : Node}
      (target : name.kind = .identifier)
      (assigns : Is .assignment "<-" arrow)
      (inner : Expression 1 tokens value) :
      Instruction (name :: arrow :: tokens)
        (.assign name.lexeme value name.location)
  | call
      {word : Token}
      {function : Builtin}
      {tokens : List Token}
      {nodes : List Node}
      (name : Is .function function.name word)
      (arguments : Arguments tokens nodes) :
      Instruction (word :: tokens) (.call function nodes word.location)
  | label
      {name : Token}
      (declared : name.kind = .label) :
      Instruction [name] (.label name.lexeme name.location)

/--
The last of the first tokens and the first of the others are on different lines.
-/
def BreaksLine (tokens others : List Token) : Prop :=
  ∀ last ∈ tokens.getLast?,
    ∀ next ∈ others.head?,
      last.location.line ≠ next.location.line

/-- The tokens of a whole program, each instruction on lines of its own. -/
inductive Spells : List Token → Program → Prop where
  | nil : Spells [] []
  | cons
      {tokens rest : List Token}
      {node : Node}
      {program : Program}
      (first : Instruction tokens node)
      (newLine : BreaksLine tokens rest)
      (others : Spells rest program) :
      Spells (tokens ++ rest) (node :: program)

/-!
## Levels and precedence

The level of an operator is its precedence.  The left operand of a power has to
be tighter than the power, as the right operand of every other operator has to
be.
-/

/-- The level that the left operand must reach; powers group to the right. -/
def leftPrecedence (operator : Operator) : Nat :=
  if operator = .arithmetic .power then
    operator.precedence + 1
  else
    operator.precedence

/-- An operator is listed at its precedence. -/
theorem mem_operatorsAt_precedence (operator : Operator) :
    operator ∈ operatorsAt operator.precedence := by
  rcases operator with operator | operator <;> cases operator <;> decide

/-- An operator is listed at no other level. -/
theorem precedence_of_mem_operatorsAt
    {level : Nat}
    {operator : Operator}
    (listed : operator ∈ operatorsAt level) :
    operator.precedence = level := by
  unfold operatorsAt at listed
  split at listed
  all_goals
    simp only [List.mem_cons, List.not_mem_nil, or_false] at listed
  all_goals
    rcases listed with rfl | rfl | rfl | rfl | rfl | rfl <;> rfl

/-- Powers are the only operators of the tightest level. -/
theorem eq_power_of_precedence
    {operator : Operator}
    (third : operator.precedence = 3) :
    operator = .arithmetic .power := by
  rcases operator with operator | operator <;> cases operator <;> cases third
  rfl

/-- Operators bind less tightly than primaries. -/
theorem precedence_lt_primaryLevel (operator : Operator) :
    operator.precedence < primaryLevel := by
  rcases operator with operator | operator <;> cases operator <;> decide

/-- Operators bind more tightly than nothing. -/
theorem one_le_precedence (operator : Operator) :
    1 ≤ operator.precedence := by
  rcases operator with operator | operator <;> cases operator <;> decide

/-- A primary may stand on the left of every operator. -/
theorem leftPrecedence_le_primaryLevel (operator : Operator) :
    leftPrecedence operator ≤ primaryLevel := by
  have below := precedence_lt_primaryLevel operator
  unfold leftPrecedence
  split <;> omega

/-- A primary may stand on the right of every operator. -/
theorem rightPrecedence_le_primaryLevel (operator : Operator) :
    operator.rightPrecedence ≤ primaryLevel := by
  have below := precedence_lt_primaryLevel operator
  unfold Operator.rightPrecedence
  split <;> omega

/-- A right operand leaves to the whole exactly what may follow it. -/
theorem precedence_lt_iff
    {operator next : Operator} :
    next.precedence < operator.rightPrecedence ↔
      leftPrecedence next ≤ operator.precedence := by
  unfold Operator.rightPrecedence leftPrecedence
  by_cases power : operator = .arithmetic .power
  · have third : operator.precedence = 3 := by
      rw [power]
      rfl
    by_cases nextPower : next = .arithmetic .power
    · rw [if_pos power, if_pos nextPower, power, nextPower]
      decide
    · have notThird : next.precedence ≠ 3 := mt eq_power_of_precedence nextPower
      rw [if_pos power, if_neg nextPower]
      omega
  · have notThird : operator.precedence ≠ 3 := mt eq_power_of_precedence power
    by_cases nextPower : next = .arithmetic .power
    · have third : next.precedence = 3 := by
        rw [nextPower]
        rfl
      rw [if_neg power, if_pos nextPower]
      omega
    · rw [if_neg power, if_neg nextPower]
      omega

/-- The left operand binds at least as tightly as the operator. -/
theorem precedence_le_leftPrecedence (operator : Operator) :
    operator.precedence ≤ leftPrecedence operator := by
  unfold leftPrecedence
  split
  · exact Nat.le_succ _
  · exact Nat.le_refl _

/-- The right operand binds at least as tightly as the operator. -/
theorem precedence_le_rightPrecedence (operator : Operator) :
    operator.precedence ≤ operator.rightPrecedence := by
  unfold Operator.rightPrecedence
  split
  · exact Nat.le_refl _
  · exact Nat.le_succ _

namespace Expression

/-- A tighter expression is also a looser one. -/
theorem loosen
    {low high : Nat}
    {tokens : List Token}
    {node : Node}
    (whole : Expression high tokens node)
    (below : low ≤ high) :
    Expression low tokens node := by
  induction below with
  | refl =>
      exact whole
  | step _ inductionHypothesis =>
      exact inductionHypothesis whole.tighter

/-- An operator between two operands of the levels it asks for. -/
theorem operation
    {operator : Operator}
    {token : Token}
    {leftTokens rightTokens : List Token}
    {left right : Node}
    (first : Expression (leftPrecedence operator) leftTokens left)
    (spelled : Is (tokenKind operator) operator.symbol token)
    (second : Expression operator.rightPrecedence rightTokens right) :
    Expression operator.precedence (leftTokens ++ token :: rightTokens)
      (.operation operator left right token.location) := by
  have listed := mem_operatorsAt_precedence operator
  unfold leftPrecedence at first
  unfold Operator.rightPrecedence at second
  by_cases power : operator = .arithmetic .power
  · rw [if_pos power] at first second
    exact .groupsRight listed power spelled first second
  · rw [if_neg power] at first second
    exact .groupsLeft listed power spelled first second

/-- No expression is tighter than the primaries. -/
theorem level_le
    {level : Nat}
    {tokens : List Token}
    {node : Node} :
    Expression level tokens node → level ≤ primaryLevel
  | .primary _ => Nat.le_refl _
  | .tighter inner => Nat.le_of_succ_le inner.level_le
  | .groupsLeft _ _ _ first _ => first.level_le
  | .groupsRight _ _ _ first _ => Nat.le_of_succ_le first.level_le

/-- The tightest expressions are the primaries. -/
theorem isPrimary
    {tokens : List Token}
    {node : Node}
    (whole : Expression primaryLevel tokens node) :
    Primary tokens node := by
  cases whole with
  | primary whole =>
      exact whole
  | tighter inner =>
      exact (Nat.not_succ_le_self _ inner.level_le).elim
  | groupsLeft listed | groupsRight listed =>
      cases listed

end Expression

/-- An instruction is spelled with at least one token. -/
theorem Instruction.nonempty
    {tokens : List Token}
    {node : Node}
    (whole : Instruction tokens node) :
    tokens ≠ [] := by
  cases whole <;> nofun

/-! ## First tokens -/

/-- A token with a text of its own is no symbol with another text. -/
theorem Is.isSymbol_eq_false
    {kind : TokenKind}
    {own text : String}
    {token : Token}
    (is : Is kind own token)
    (differ : own ≠ text) :
    token.isSymbol text = false := by
  rw [Token.isSymbol, is.text, beq_false_of_ne differ, Bool.and_false]

/-- No primary starts with a symbol other than an opening parenthesis. -/
theorem Primary.starts
    {tokens : List Token}
    {node : Node}
    (primary : Primary tokens node) :
    ∃ first rest,
      tokens = first :: rest ∧
        ∀ text, text ≠ "(" → first.isSymbol text = false := by
  cases primary with
  | number literal =>
      exact ⟨_, _, rfl, fun text _ => by rw [Token.isSymbol, literal.kind]; rfl⟩
  | text kind | read kind | label kind =>
      exact ⟨_, _, rfl, fun text _ => by rw [Token.isSymbol, kind]; rfl⟩
  | call name =>
      exact ⟨_, _, rfl, fun text _ => by rw [Token.isSymbol, name.kind]; rfl⟩
  | parenthesised opens =>
      exact ⟨_, _, rfl, fun text other => opens.isSymbol_eq_false other.symm⟩

/-- Primaries start with no symbol but an opening parenthesis. -/
theorem Primaries.starts
    {tokens : List Token}
    {nodes : List Node}
    (primaries : Primaries tokens nodes) :
    ∃ first rest,
      tokens = first :: rest ∧
        ∀ text, text ≠ "(" → first.isSymbol text = false := by
  cases primaries with
  | one only =>
      exact only.starts
  | more first =>
      obtain ⟨token, rest, rfl, noSymbol⟩ := first.starts
      exact ⟨token, _, rfl, noSymbol⟩

/-- An instruction never starts with an operator. -/
theorem Instruction.starts
    {tokens : List Token}
    {node : Node}
    (whole : Instruction tokens node) :
    ∃ first rest,
      tokens = first :: rest ∧ first.kind ≠ .arithmetic ∧
        first.kind ≠ .boolean := by
  cases whole with
  | spawn is | setColor is | setSize is | fill is | draw is | goTo is
  | call is =>
      exact ⟨_, _, rfl, by rw [is.kind]; nofun, by rw [is.kind]; nofun⟩
  | assign kind | label kind =>
      exact ⟨_, _, rfl, by rw [kind]; nofun, by rw [kind]; nofun⟩

end PixelBrush.Grammar
