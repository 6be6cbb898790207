import PixelBrush.Proofs.CompiledPrograms
import PixelBrush.Proofs.PrintedNames
import PixelBrush.Proofs.TokenShapes

namespace PixelBrush

/-!
# Variables and labels apart

The class of a word depends on its text alone: reserved words have their own
classes, and a free word is a variable if it stands before an arrow anywhere in
the text and a label otherwise.  Arrows stand only in assignments, so the words
before arrows are the words that the program assigns.  Hence a program reads no
variable that it never assigns, and none of its labels is also a variable.
-/

/-! ## Classes of scanned words -/

namespace Scan

/--
The classes that scanning gives to a text: words by their text, others without
letters.
-/
inductive Classified : TokenKind → String → Prop where
  | word
      {lexeme : String} :
      Classified (wordKind lexeme) lexeme
  | text
      {lexeme : String} :
      Classified .text lexeme
  | number
      {lexeme : String}
      (noLetter : ∀ character ∈ lexeme.toList, character.isAlpha = false) :
      Classified .number lexeme
  | symbol
      {kind : TokenKind}
      {lexeme : String}
      (isSymbol : kind.isSymbol = true)
      (noLetter : ∀ character ∈ lexeme.toList, character.isAlpha = false) :
      Classified kind lexeme

/-- No word is a label by its text. -/
theorem wordKind_ne_label (word : String) :
    wordKind word ≠ .label := by
  unfold wordKind
  repeat' split
  all_goals nofun

/-- Scanning leaves it open which words are labels. -/
theorem Classified.ne_label
    {kind : TokenKind}
    {lexeme : String}
    (classified : Classified kind lexeme) :
    kind ≠ .label := by
  cases classified with
  | word =>
      exact wordKind_ne_label lexeme
  | text | number =>
      nofun
  | symbol isSymbol =>
      rintro rfl
      cases isSymbol

/--
What starts with a letter and is no string literal has the class of a word.
-/
theorem Classified.eq_wordKind
    {kind : TokenKind}
    {lexeme : String}
    (classified : Classified kind lexeme)
    (notText : kind ≠ .text)
    {first : Char}
    (starts : first ∈ lexeme.toList.head?)
    (isLetter : first.isAlpha = true) :
    kind = wordKind lexeme := by
  have inside : first ∈ lexeme.toList := List.mem_of_mem_head? starts
  cases classified with
  | word =>
      rfl
  | text =>
      exact (notText rfl).elim
  | number noLetter | symbol _ noLetter =>
      rw [noLetter first inside] at isLetter
      cases isLetter

/-- What looks like a token of a class is classified so. -/
theorem Shaped.classified
    {kind : TokenKind}
    {lexeme : String}
    (shaped : Shaped kind lexeme) :
    Classified kind lexeme := by
  cases shaped with
  | text =>
      exact .text
  | number isSign _ allDigits _ =>
      refine .number ?_
      rw [String.toList_ofList]
      exact noLetter_of_literal isSign allDigits
  | word =>
      exact .word
  | symbol listed =>
      have marks : ∀ entry ∈ symbols, entry.2.isSymbol = true := by
        decide
      exact .symbol (marks _ listed) (noLetter_of_listed listed)

end Scan

/-! ## Settled names -/

/-- A token that starts with a letter, string literals excluded. -/
structure Token.IsWord (token : Token) : Prop where
  notText : token.kind ≠ .text
  starts : ∃ first ∈ token.lexeme.toList.head?, first.isAlpha = true

namespace Naming

/-- Settling a token keeps its text. -/
theorem lexeme_settle
    (assigned : List String)
    (token : Token) :
    (settle assigned token).lexeme = token.lexeme := by
  unfold settle
  split <;> rfl

/-- The class that settling gives depends on the class and the text before. -/
theorem kind_settle
    (assigned : List String)
    (token : Token) :
    (settle assigned token).kind =
      if token.kind = .identifier ∧ token.lexeme ∉ assigned then
        .label
      else
        token.kind := by
  simp only [settle, List.contains_iff_mem]
  split <;> rfl

/-- Settled tokens are names exactly if they are assigned. -/
theorem kind_settle_eq_identifier_iff
    {assigned : List String}
    {token : Token} :
    (settle assigned token).kind = .identifier ↔
      token.kind = .identifier ∧ token.lexeme ∈ assigned := by
  rw [kind_settle]
  by_cases isIdentifier : token.kind = .identifier
  · simp [isIdentifier]
  · simp [isIdentifier]

/-- Settling makes and unmakes no arrows. -/
theorem kind_settle_eq_assignment_iff
    {assigned : List String}
    {token : Token} :
    (settle assigned token).kind = .assignment ↔ token.kind = .assignment := by
  rw [kind_settle]
  split
  · rename_i free
    rw [free.1]
    decide
  · rfl

/-- Settling changes no arrow and no word before one. -/
theorem assigned_map_settle
    {known : List String}
    {tokens : List Token}
    (enough : assigned tokens ⊆ known) :
    assigned (tokens.map (settle known)) = assigned tokens := by
  induction tokens with
  | nil =>
      rfl
  | cons token others inductionHypothesis =>
      cases others with
      | nil =>
          rfl
      | cons next rest =>
          rw [assigned] at enough
          rw [List.map_cons, List.map_cons, assigned, assigned, ← List.map_cons]
          by_cases before : token.kind = .identifier ∧ next.kind = .assignment
          · rw [if_pos before] at enough ⊢
            obtain ⟨isKnown, enough⟩ := List.cons_subset.mp enough
            have isName := kind_settle_eq_identifier_iff.mpr ⟨before.1, isKnown⟩
            have isArrow : (settle known next).kind = .assignment :=
              kind_settle_eq_assignment_iff.mpr before.2
            rw [if_pos ⟨isName, isArrow⟩, lexeme_settle,
              inductionHypothesis enough]
          · rw [if_neg before] at enough ⊢
            rw [if_neg, inductionHypothesis enough]
            rintro ⟨isName, isArrow⟩
            exact before ⟨(kind_settle_eq_identifier_iff.mp isName).1,
              kind_settle_eq_assignment_iff.mp isArrow⟩

end Naming

/-- Tokens whose classes agree with the words before their arrows. -/
structure Settled (tokens : List Token) : Prop where
  words :
    ∀ first ∈ tokens, ∀ second ∈ tokens,
      first.IsWord → second.IsWord → first.lexeme = second.lexeme →
        first.kind = second.kind
  identifiers :
    ∀ token ∈ tokens,
      token.kind = .identifier → token.lexeme ∈ Naming.assigned tokens
  labels :
    ∀ token ∈ tokens,
      token.kind = .label → token.lexeme ∉ Naming.assigned tokens

namespace Naming

variable
  {token : Token}
  {assigned : List String}

/-- A token that is settled as a label is not assigned. -/
theorem not_mem_of_kind_settle
    (classified : Scan.Classified token.kind token.lexeme)
    (isLabel : (settle assigned token).kind = .label) :
    token.lexeme ∉ assigned := by
  rw [kind_settle] at isLabel
  split at isLabel
  · rename_i free
    exact free.2
  · exact (classified.ne_label isLabel).elim

/-- The settled class of a word is told by its text. -/
theorem kind_settle_of_isWord
    (classified : Scan.Classified token.kind token.lexeme)
    (isWord : (settle assigned token).IsWord) :
    (settle assigned token).kind =
      if Scan.wordKind token.lexeme = .identifier ∧ token.lexeme ∉ assigned then
        .label
      else
        Scan.wordKind token.lexeme := by
  obtain ⟨notText, first, starts, isLetter⟩ := isWord
  rw [lexeme_settle] at starts
  have notTextBefore : token.kind ≠ .text := by
    intro isText
    rw [kind_settle, isText, if_neg (by simp)] at notText
    exact notText rfl
  rw [kind_settle, classified.eq_wordKind notTextBefore starts isLetter]

end Naming

/-- The tokens of a source agree with the words before their arrows. -/
theorem settled_of_tokenize
    {source : String}
    {tokens : List Token}
    (scanned : tokenize source = .ok tokens) :
    Settled tokens := by
  obtain ⟨provisional, read, rfl⟩ := exists_scan_of_tokenize scanned
  have classified :=
    fun token member => (Scan.tokens_shaped read token member).classified
  have sameAssigned :=
    Naming.assigned_map_settle (List.Subset.refl (Naming.assigned provisional))
  refine ⟨?_, ?_, ?_⟩
  · intro first isFirst second isSecond firstIsWord secondIsWord sameText
    obtain ⟨_, inFirst, rfl⟩ := List.mem_map.mp isFirst
    obtain ⟨_, inSecond, rfl⟩ := List.mem_map.mp isSecond
    rw [Naming.lexeme_settle, Naming.lexeme_settle] at sameText
    rw [Naming.kind_settle_of_isWord (classified _ inFirst) firstIsWord,
      Naming.kind_settle_of_isWord (classified _ inSecond) secondIsWord,
      sameText]
  · intro token member isIdentifier
    obtain ⟨_, _, rfl⟩ := List.mem_map.mp member
    rw [sameAssigned, Naming.lexeme_settle]
    exact (Naming.kind_settle_eq_identifier_iff.mp isIdentifier).2
  · intro token member isLabel
    obtain ⟨_, before, rfl⟩ := List.mem_map.mp member
    rw [sameAssigned, Naming.lexeme_settle]
    exact Naming.not_mem_of_kind_settle (classified _ before) isLabel

/-! ## Names in a program -/

namespace Node

/-- The nodes that a node is directly made of. -/
def parts : Node → List Node
  | .draw _ arguments _ | .call _ arguments _ => arguments
  | .assign _ value _ => [value]
  | .goTo _ condition _ => [condition]
  | .arithmetic _ left right _ | .boolean _ left right _ => [left, right]
  | .spawn .. | .setColor .. | .setSize .. | .fill .. | .label .. | .read ..
  | .number .. | .text .. => []

/-- A node is the whole node or stands somewhere inside it. -/
inductive Occurs (node : Node) : Node → Prop where
  | whole : Occurs node node
  | inside
      {part whole : Node}
      (isPart : part ∈ whole.parts)
      (occurs : Occurs node part) :
      Occurs node whole

/-- The name that a node holds, with the class that its token has to have. -/
def name? : Node → Option (TokenKind × String)
  | .read name _ | .assign name _ _ => some (.identifier, name)
  | .label name _ | .goTo name _ _ => some (.label, name)
  | _ => none

/-- Every name anywhere in a node is the text of one of the tokens. -/
def NamedBy (tokens : List Token) (node : Node) : Prop :=
  ∀ inner : Node, inner.Occurs node →
    ∀ kind name, inner.name? = some (kind, name) →
      ∃ token ∈ tokens, token.kind = kind ∧ token.lexeme = name

variable
  {tokens others : List Token}
  {node : Node}

/-- Names that are among some tokens are among more of them. -/
theorem NamedBy.mono
    (named : node.NamedBy tokens)
    (subset : ∀ token ∈ tokens, token ∈ others) :
    node.NamedBy others := by
  intro inner occurs kind name holds
  obtain ⟨token, member, isNamed⟩ := named inner occurs kind name holds
  exact ⟨token, subset token member, isNamed⟩

/-- A node is named by tokens if its own name and all its parts are. -/
theorem NamedBy.intro
    (own :
      ∀ kind name, node.name? = some (kind, name) →
        ∃ token ∈ tokens, token.kind = kind ∧ token.lexeme = name)
    (inner : ∀ part ∈ node.parts, part.NamedBy tokens) :
    node.NamedBy tokens := by
  intro node occurs
  cases occurs with
  | whole =>
      exact own
  | inside isPart occurs =>
      exact inner _ isPart _ occurs

/-- A node without a name of its own. -/
theorem NamedBy.of_parts
    (nameless : node.name? = none)
    (inner : ∀ part ∈ node.parts, part.NamedBy tokens) :
    node.NamedBy tokens := by
  refine .intro ?_ inner
  intro kind name holds
  rw [nameless] at holds
  cases holds

/-- A node whose own name is the text of a token. -/
theorem NamedBy.of_token
    {token : Token}
    (member : token ∈ tokens)
    (holds : node.name? = some (token.kind, token.lexeme))
    (inner : ∀ part ∈ node.parts, part.NamedBy tokens) :
    node.NamedBy tokens := by
  refine .intro ?_ inner
  intro kind name same
  rw [holds] at same
  cases same
  exact ⟨token, member, rfl, rfl⟩

/-- An operation is named by tokens if both operands are. -/
theorem NamedBy.operation
    {operator : Operator}
    {left right : Node}
    {location : Location}
    (isLeft : left.NamedBy tokens)
    (isRight : right.NamedBy tokens) :
    (operation operator left right location).NamedBy tokens := by
  have both : ∀ part ∈ [left, right], part.NamedBy tokens :=
    List.forall_mem_cons.mpr ⟨isLeft, List.forall_mem_singleton.mpr isRight⟩
  cases operator with
  | arithmetic | boolean =>
      exact .of_parts rfl both

end Node

namespace Grammar

mutual

/-- Names in a primary come from its tokens. -/
theorem Primary.namedBy
    {tokens : List Token}
    {node : Node} :
    Primary tokens node → node.NamedBy tokens
  | .number _ => .of_parts rfl (fun _ isPart => absurd isPart List.not_mem_nil)
  | .text _ => .of_parts rfl (fun _ isPart => absurd isPart List.not_mem_nil)
  | .read name =>
      .of_token List.mem_cons_self (by rw [name]; rfl)
        (fun _ isPart => absurd isPart List.not_mem_nil)
  | .label name =>
      .of_token List.mem_cons_self (by rw [name]; rfl)
        (fun _ isPart => absurd isPart List.not_mem_nil)
  | .call _ arguments =>
      .of_parts rfl fun argument isArgument =>
        (arguments.namedBy argument isArgument).mono fun _ =>
          List.mem_cons_of_mem _
  | .parenthesised _ inner _ =>
      inner.namedBy.mono fun _ member =>
        List.mem_cons_of_mem _ (List.mem_append_left _ member)

/-- Arguments are named by the tokens that spell them. -/
theorem Arguments.namedBy
    {tokens : List Token}
    {nodes : List Node} :
    Arguments tokens nodes → ∀ node ∈ nodes, node.NamedBy tokens
  | .none _ _ => fun _ member => absurd member List.not_mem_nil
  | .some _ inner _ => fun node isNode =>
      (inner.namedBy node isNode).mono fun _ member =>
        List.mem_cons_of_mem _ (List.mem_append_left _ member)

/-- Primaries are named by the tokens that spell them. -/
theorem Primaries.namedBy
    {tokens : List Token}
    {nodes : List Node} :
    Primaries tokens nodes → ∀ node ∈ nodes, node.NamedBy tokens
  | .one only => List.forall_mem_singleton.mpr only.namedBy
  | .more first _ others =>
      List.forall_mem_cons.mpr
        ⟨first.namedBy.mono fun _ => List.mem_append_left _,
          fun node isNode =>
            (others.namedBy node isNode).mono fun _ member =>
              List.mem_append_right _ (List.mem_cons_of_mem _ member)⟩

/-- An expression is named by the tokens that spell it. -/
theorem Expression.namedBy
    {level : Nat}
    {tokens : List Token}
    {node : Node} :
    Expression level tokens node → node.NamedBy tokens
  | .primary whole => whole.namedBy
  | .tighter inner => inner.namedBy
  | .groupsLeft _ _ _ first second =>
      .operation (first.namedBy.mono fun _ => List.mem_append_left _)
        (second.namedBy.mono fun _ member =>
          List.mem_append_right _ (List.mem_cons_of_mem _ member))
  | .groupsRight _ _ _ first second =>
      .operation (first.namedBy.mono fun _ => List.mem_append_left _)
        (second.namedBy.mono fun _ member =>
          List.mem_append_right _ (List.mem_cons_of_mem _ member))

end

/-- An instruction is named by the tokens that spell it. -/
theorem Instruction.namedBy
    {tokens : List Token}
    {node : Node}
    (whole : Instruction tokens node) :
    node.NamedBy tokens := by
  cases whole with
  | spawn | setColor | setSize | fill =>
      exact .of_parts rfl (fun _ isPart => absurd isPart List.not_mem_nil)
  | draw _ arguments | call _ arguments =>
      refine .of_parts rfl ?_
      intro argument isArgument
      exact (arguments.namedBy argument isArgument).mono fun _ =>
        List.mem_cons_of_mem _
  | goTo _ _ target _ _ inner =>
      refine .of_token
        (List.mem_cons_of_mem _ (List.mem_cons_of_mem _ List.mem_cons_self))
        (by rw [target]; rfl)
          (List.forall_mem_singleton.mpr (inner.namedBy.mono ?_))
      intro token member
      simp [member]
  | assign target _ inner =>
      refine .of_token List.mem_cons_self (by rw [target]; rfl)
        (List.forall_mem_singleton.mpr (inner.namedBy.mono ?_))
      intro token member
      simp [member]
  | label declared =>
      exact .of_token List.mem_cons_self (by rw [declared]; rfl)
        (fun _ isPart => absurd isPart List.not_mem_nil)

/-- Every name in a program is the text of one of its tokens. -/
theorem Spells.namedBy
    {tokens : List Token}
    {program : Program}
    (spells : Spells tokens program) :
    ∀ node ∈ program, node.NamedBy tokens := by
  induction spells with
  | nil =>
      intro node member
      cases member
  | cons first newLine others inductionHypothesis =>
      refine List.forall_mem_cons.mpr ⟨?_, ?_⟩
      · exact first.namedBy.mono fun _ => List.mem_append_left _
      · intro node member
        exact (inductionHypothesis node member).mono fun _ =>
          List.mem_append_right _

/-! ## Arrows -/

/-- A token of another class is no arrow. -/
theorem Is.ne_assignment
    {kind : TokenKind}
    {text : String}
    {token : Token}
    (is : Is kind text token)
    (other : kind ≠ .assignment) :
    token.kind ≠ .assignment := by
  rw [is.kind]
  exact other

/-- No operator is spelled with an arrow. -/
theorem tokenKind_ne_assignment (operator : Operator) :
    tokenKind operator ≠ .assignment := by
  cases operator with
  | arithmetic | boolean =>
      nofun

/-- Parentheses around tokens add no arrow. -/
theorem noArrow_enclosed
    {opening closing : Token}
    {tokens : List Token}
    (opens : Is .punctuation "(" opening)
    (inner : ∀ token ∈ tokens, token.kind ≠ .assignment)
    (closes : Is .punctuation ")" closing) :
    ∀ token ∈ opening :: (tokens ++ [closing]), token.kind ≠ .assignment := by
  have last : ∀ token ∈ [closing], token.kind ≠ .assignment :=
    List.forall_mem_singleton.mpr (closes.ne_assignment nofun)
  exact List.forall_mem_cons.mpr
    ⟨opens.ne_assignment nofun, List.forall_mem_append.mpr ⟨inner, last⟩⟩

/-- A token of another class between two lists adds no arrow. -/
theorem noArrow_between
    {kind : TokenKind}
    {text : String}
    {between : Token}
    {first second : List Token}
    (inFirst : ∀ token ∈ first, token.kind ≠ .assignment)
    (is : Is kind text between)
    (other : kind ≠ .assignment)
    (inSecond : ∀ token ∈ second, token.kind ≠ .assignment) :
    ∀ token ∈ first ++ between :: second, token.kind ≠ .assignment :=
  List.forall_mem_append.mpr
    ⟨inFirst, List.forall_mem_cons.mpr ⟨is.ne_assignment other, inSecond⟩⟩

mutual

/-- Arrows stand in no primary. -/
theorem Primary.noArrow
    {tokens : List Token}
    {node : Node} :
    Primary tokens node → ∀ token ∈ tokens, token.kind ≠ .assignment
  | .number literal =>
      List.forall_mem_singleton.mpr (by rw [literal.kind]; decide)
  | .text literal => List.forall_mem_singleton.mpr (by rw [literal]; decide)
  | .read name => List.forall_mem_singleton.mpr (by rw [name]; decide)
  | .label name => List.forall_mem_singleton.mpr (by rw [name]; decide)
  | .call name arguments =>
      List.forall_mem_cons.mpr
        ⟨name.ne_assignment (by decide), arguments.noArrow⟩
  | .parenthesised opens inner closes =>
      noArrow_enclosed opens inner.noArrow closes

/-- There is no arrow in the arguments of a call. -/
theorem Arguments.noArrow
    {tokens : List Token}
    {nodes : List Node} :
    Arguments tokens nodes → ∀ token ∈ tokens, token.kind ≠ .assignment
  | .none opens closes =>
      noArrow_enclosed opens
        (fun _ member => absurd member List.not_mem_nil) closes
  | .some opens inner closes => noArrow_enclosed opens inner.noArrow closes

/-- There is no arrow in primaries. -/
theorem Primaries.noArrow
    {tokens : List Token}
    {nodes : List Node} :
    Primaries tokens nodes → ∀ token ∈ tokens, token.kind ≠ .assignment
  | .one only => only.noArrow
  | .more first separates others =>
      noArrow_between first.noArrow separates (by decide) others.noArrow

/-- There is no arrow in an expression. -/
theorem Expression.noArrow
    {level : Nat}
    {tokens : List Token}
    {node : Node} :
    Expression level tokens node → ∀ token ∈ tokens, token.kind ≠ .assignment
  | .primary whole => whole.noArrow
  | .tighter inner => inner.noArrow
  | .groupsLeft _ _ spelled first second =>
      noArrow_between first.noArrow spelled (tokenKind_ne_assignment _)
        second.noArrow
  | .groupsRight _ _ spelled first second =>
      noArrow_between first.noArrow spelled (tokenKind_ne_assignment _)
        second.noArrow

end

/--
An arrow stands nowhere in an instruction but after the variable that it
assigns.
-/
theorem Instruction.noArrow_or_assigns
    {tokens : List Token}
    {node : Node}
    (whole : Instruction tokens node) :
    (node.target? = none ∧ ∀ token ∈ tokens, token.kind ≠ .assignment) ∨
      ∃ name arrow others,
        tokens = name :: arrow :: others ∧
          node.target? = some name.lexeme ∧
          name.kind = .identifier ∧
          arrow.kind = .assignment ∧
          ∀ token ∈ others, token.kind ≠ .assignment := by
  cases whole with
  | spawn keyword opens column separates row closes =>
      refine .inl ⟨rfl, ?_⟩
      simp [keyword.kind, opens.kind, column.kind, separates.kind, row.kind,
        closes.kind]
  | setColor keyword opens text closes =>
      refine .inl ⟨rfl, ?_⟩
      simp [keyword.kind, opens.kind, text, closes.kind]
  | setSize keyword opens side closes =>
      refine .inl ⟨rfl, ?_⟩
      simp [keyword.kind, opens.kind, side.kind, closes.kind]
  | fill keyword opens closes =>
      refine .inl ⟨rfl, ?_⟩
      simp [keyword.kind, opens.kind, closes.kind]
  | draw name arguments | call name arguments =>
      refine .inl ⟨rfl, List.forall_mem_cons.mpr ⟨?_, arguments.noArrow⟩⟩
      exact name.ne_assignment (by decide)
  | goTo keyword bracket target unbracket opens inner closes =>
      refine .inl ⟨rfl, ?_⟩
      have condition := noArrow_enclosed opens inner.noArrow closes
      refine List.forall_mem_cons.mpr ⟨keyword.ne_assignment (by decide), ?_⟩
      refine List.forall_mem_cons.mpr ⟨bracket.ne_assignment (by decide), ?_⟩
      refine List.forall_mem_cons.mpr ⟨by rw [target]; decide, ?_⟩
      exact List.forall_mem_cons.mpr
        ⟨unbracket.ne_assignment (by decide), condition⟩
  | assign target assigns inner =>
      exact .inr ⟨_, _, _, rfl, rfl, target, assigns.kind, inner.noArrow⟩
  | label declared =>
      refine .inl ⟨rfl, List.forall_mem_singleton.mpr ?_⟩
      rw [declared]
      decide

/-- The words before the arrows of an instruction are what it assigns to. -/
theorem Instruction.assigned_eq
    {tokens : List Token}
    {node : Node}
    (whole : Instruction tokens node) :
    Naming.assigned tokens = node.target?.toList := by
  rcases whole.noArrow_or_assigns with
    ⟨noTarget, noArrow⟩ | ⟨name, arrow, others, rfl, target, isName, isArrow,
      noArrow⟩
  · rw [noTarget, Naming.assigned_of_noArrow noArrow]
    rfl
  · have head : ∀ token ∈ others.head?, token.kind ≠ .assignment := by
      intro token isHead
      exact noArrow token (List.mem_of_mem_head? isHead)
    show Naming.assigned ([name, arrow] ++ others) = _
    rw [Naming.assigned_append head, Naming.assigned_of_noArrow noArrow, target]
    exact congrArg (· ++ []) (if_pos ⟨isName, isArrow⟩)

/-- No instruction starts with an arrow. -/
theorem Instruction.head_ne_assignment
    {tokens : List Token}
    {node : Node}
    (whole : Instruction tokens node) :
    ∀ token ∈ tokens.head?, token.kind ≠ .assignment := by
  intro token isHead
  rcases whole.noArrow_or_assigns with
    ⟨_, noArrow⟩ | ⟨name, arrow, others, rfl, _, isName, _, _⟩
  · exact noArrow token (List.mem_of_mem_head? isHead)
  · cases isHead
    rw [isName]
    decide

/-- The words before arrows are the words that the program assigns. -/
theorem Spells.assigned_eq
    {tokens : List Token}
    {program : Program}
    (spells : Spells tokens program) :
    Naming.assigned tokens = program.assigned := by
  induction spells with
  | nil =>
      rfl
  | @cons tokens rest node program first newLine others inductionHypothesis =>
      have head : ∀ token ∈ rest.head?, token.kind ≠ .assignment := by
        cases others with
        | nil =>
            nofun
        | cons next =>
            intro token isHead
            rw [List.head?_append_of_ne_nil _ next.nonempty] at isHead
            exact next.head_ne_assignment token isHead
      rw [Naming.assigned_append head, first.assigned_eq, inductionHypothesis,
        Program.assigned_cons]

end Grammar

/-- A node stands somewhere in a program. -/
def Program.Contains (program : Program) (node : Node) : Prop :=
  ∃ instruction ∈ program, node.Occurs instruction

/-- Every name in a spelled program is the text of a token of its class. -/
theorem Grammar.Spells.exists_token
    {tokens : List Token}
    {program : Program}
    (spells : Spells tokens program)
    {node : Node}
    (contains : program.Contains node)
    {kind : TokenKind}
    {name : String}
    (holds : node.name? = some (kind, name)) :
    ∃ token ∈ tokens, token.kind = kind ∧ token.lexeme = name := by
  obtain ⟨instruction, member, occurs⟩ := contains
  exact spells.namedBy instruction member node occurs kind name holds

/-- The assigned names of a program are those of its assignments. -/
theorem Program.mem_assigned_iff
    {program : Program}
    {name : String} :
    name ∈ program.assigned ↔
      ∃ value location, .assign name value location ∈ program := by
  rw [assigned, List.mem_filterMap]
  constructor
  · rintro ⟨node, member, target⟩
    cases node with
    | assign =>
        cases target
        exact ⟨_, _, member⟩
    | _ =>
        cases target
  · rintro ⟨value, location, member⟩
    exact ⟨_, member, rfl⟩

/--
Words with the same text have the same class.  Every variable that a program
reads, it also assigns.  No variable that it assigns is the name of a label, be
it declared, the target of a jump or part of an expression.
-/
theorem names_apart_of_parse
    {source : String}
    {tokens : List Token}
    {program : Program}
    (scanned : tokenize source = .ok tokens)
    (parsed : Program.parse tokens = .ok program) :
    (∀ first ∈ tokens, ∀ second ∈ tokens,
      first.IsWord → second.IsWord → first.lexeme = second.lexeme →
        first.kind = second.kind) ∧
    (∀ name location,
      program.Contains (.read name location) →
      ∃ value place, .assign name value place ∈ program) ∧
    ∀ name value place,
      program.Contains (.assign name value place) →
      (∀ location, ¬ program.Contains (.label name location)) ∧
        ∀ condition location,
          ¬ program.Contains (.goTo name condition location) := by
  have settled := settled_of_tokenize scanned
  have spells : Grammar.Spells tokens program :=
    Cursor.instructions_sound ⟨Location.nowhere, tokens⟩
      (wellSpelled_of_tokenize scanned) parsed
  refine ⟨settled.words, ?_, ?_⟩
  · intro name location contains
    obtain ⟨token, member, kind, rfl⟩ := spells.exists_token contains rfl
    rw [← Program.mem_assigned_iff, ← spells.assigned_eq]
    exact settled.identifiers token member kind
  · intro name value place contains
    obtain ⟨token, member, kind, rfl⟩ := spells.exists_token contains rfl
    have isAssigned := settled.identifiers token member kind
    have noLabel
        {node : Node}
        (holds : node.name? = some (.label, token.lexeme)) :
        ¬ program.Contains node := by
      intro containsNode
      obtain ⟨label, isToken, isLabel, sameName⟩ :=
        spells.exists_token containsNode holds
      have notAssigned := settled.labels label isToken isLabel
      rw [sameName] at notAssigned
      exact notAssigned isAssigned
    exact ⟨fun location => noLabel rfl, fun condition location => noLabel rfl⟩

/--
The variable is read two lines before its only assignment, next to a string
literal with the same text; the label is a target, a declaration and an operand.
-/
theorem names_apart_of_parse_loop :
    let source := "GoTo [again] (n == \"n\")\nagain\nn <- again - n\n"
    let tokens : List Token :=
      [⟨.keyword, "GoTo", ⟨1, 1⟩⟩, ⟨.punctuation, "[", ⟨1, 6⟩⟩,
        ⟨.label, "again", ⟨1, 7⟩⟩, ⟨.punctuation, "]", ⟨1, 12⟩⟩,
        ⟨.punctuation, "(", ⟨1, 14⟩⟩, ⟨.identifier, "n", ⟨1, 15⟩⟩,
        ⟨.boolean, "==", ⟨1, 17⟩⟩, ⟨.text, "n", ⟨1, 20⟩⟩,
        ⟨.punctuation, ")", ⟨1, 23⟩⟩, ⟨.label, "again", ⟨2, 1⟩⟩,
        ⟨.identifier, "n", ⟨3, 1⟩⟩, ⟨.assignment, "<-", ⟨3, 3⟩⟩,
        ⟨.label, "again", ⟨3, 6⟩⟩, ⟨.arithmetic, "-", ⟨3, 12⟩⟩,
        ⟨.identifier, "n", ⟨3, 14⟩⟩]
    let condition : Node :=
      .boolean .equal (.read "n" ⟨1, 15⟩) (.text "n" ⟨1, 20⟩) ⟨1, 17⟩
    let value : Node :=
      .arithmetic .subtract (.label "again" ⟨3, 6⟩) (.read "n" ⟨3, 14⟩) ⟨3, 12⟩
    let program : Program :=
      [.goTo "again" condition ⟨1, 1⟩, .label "again" ⟨2, 1⟩,
        .assign "n" value ⟨3, 1⟩]
    tokenize source = .ok tokens ∧
      Program.parse tokens = .ok program ∧
      (∀ token ∈ tokens, token.IsWord → token.lexeme = "n" →
        token.kind = .identifier) ∧
      program.Contains (.read "n" ⟨1, 15⟩) ∧
      (∃ value place, .assign "n" value place ∈ program) ∧
      program.Contains (.assign "n" value ⟨3, 1⟩) ∧
      (∀ location, ¬ program.Contains (.label "n" location)) ∧
      ∀ condition location,
        ¬ program.Contains (.goTo "n" condition location) := by
  intro source tokens condition value program
  have scanned : tokenize source = .ok tokens := by
    decide +kernel
  have parsed : Program.parse tokens = .ok program := by
    cbv
  have last : ⟨.identifier, "n", ⟨3, 14⟩⟩ ∈ tokens := List.mem_of_getLast? rfl
  have isWord : Token.IsWord ⟨.identifier, "n", ⟨3, 14⟩⟩ :=
    ⟨by decide, 'n', rfl, rfl⟩
  have readsFirst : program.Contains (.read "n" ⟨1, 15⟩) :=
    ⟨_, List.mem_cons_self,
      .inside List.mem_cons_self (.inside List.mem_cons_self .whole)⟩
  have assigns : program.Contains (.assign "n" value ⟨3, 1⟩) :=
    ⟨_, List.mem_of_getLast? rfl, .whole⟩
  obtain ⟨sameKind, reads, apart⟩ := names_apart_of_parse scanned parsed
  refine ⟨scanned, parsed, ?_, readsFirst, reads "n" ⟨1, 15⟩ readsFirst,
    assigns, apart "n" value ⟨3, 1⟩ assigns⟩
  intro token member ownWord sameText
  exact sameKind token member _ last ownWord isWord sameText

end PixelBrush
