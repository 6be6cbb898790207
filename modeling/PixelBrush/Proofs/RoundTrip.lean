import PixelBrush.Proofs.ParserCompleteness
import PixelBrush.Proofs.PrintedNames

namespace PixelBrush

/-!
# Printing and reading back

The tokens of a printed program spell the program, except that its nodes are at
the places of the printed text.  Which rule of the grammar derives a node is
decided by the marks it was printed with, and the places of the tokens do not
matter.  Since the parser is complete for the grammar, a printed program is read
back.
-/

open Grammar

/-- The class and the text of the token of a mark, with the names settled. -/
def Mark.settled?
    (assigned : List String)
    (mark : Mark) :
    Option (TokenKind × String) :=
  mark.token?.map fun shape =>
    (if shape.1 = .identifier ∧ ¬ assigned.contains shape.2 then
        .label
      else
        shape.1,
      shape.2)

/-- The tokens are those of the marks, wherever they are. -/
def Renders
    (assigned : List String)
    (marks : List Mark)
    (tokens : List Token) :
    Prop :=
  tokens.map (fun token => (token.kind, token.lexeme)) =
    marks.filterMap (Mark.settled? assigned)

/-- The tokens of marks in their places render them, once they are settled. -/
theorem renders_place
    (assigned : List String)
    (location : Location)
    (marks : List Mark) :
    Renders assigned marks
      ((place location marks).map (Naming.settle assigned)) := by
  induction marks generalizing location with
  | nil =>
      rfl
  | cons mark others inductionHypothesis =>
      have after := inductionHypothesis (location.advanceOver mark.spelling)
      unfold Renders at after ⊢
      rw [place, List.filterMap_cons, Mark.settled?]
      cases mark.token? with
      | none =>
          exact after
      | some shape =>
          obtain ⟨kind, lexeme⟩ := shape
          dsimp only [Option.map]
          rw [List.map_cons, List.map_cons, after, Naming.settle]
          split <;> rfl

namespace Renders

variable
  {assigned : List String}
  {marks left right : List Mark}
  {tokens : List Token}

/-- No marks render as no tokens. -/
theorem nil
    (renders : Renders assigned [] tokens) :
    tokens = [] :=
  List.map_eq_nil_iff.mp renders

/-- Marks one after the other render as tokens one after the other. -/
theorem split
    (renders : Renders assigned (left ++ right) tokens) :
    ∃ first second,
      tokens = first ++ second ∧
        Renders assigned left first ∧ Renders assigned right second := by
  rw [Renders, List.filterMap_append, List.map_eq_append_iff] at renders
  exact renders

/-- A space renders as nothing. -/
theorem space
    (renders : Renders assigned (.space :: marks) tokens) :
    Renders assigned marks tokens :=
  renders

/-- A mark with a token renders as this token first. -/
theorem uncons
    {mark : Mark}
    {kind : TokenKind}
    {text : String}
    (renders : Renders assigned (mark :: marks) tokens)
    (isToken : mark.settled? assigned = some (kind, text)) :
    ∃ token others,
      tokens = token :: others ∧ Is kind text token ∧
        Renders assigned marks others := by
  rw [Renders, List.filterMap_cons_some isToken,
    List.map_eq_cons_iff] at renders
  obtain ⟨token, others, shape, same, rest⟩ := renders
  exact ⟨token, others, shape, ⟨congrArg Prod.fst same, congrArg Prod.snd same⟩,
    rest⟩

/-- A token other than a free word keeps its class. -/
theorem token
    {mark : Mark}
    {kind : TokenKind}
    {text : String}
    (renders : Renders assigned (mark :: marks) tokens)
    (isToken : mark.token? = some (kind, text))
    (settled : kind ≠ .identifier) :
    ∃ token others,
      tokens = token :: others ∧ Is kind text token ∧
        Renders assigned marks others := by
  apply renders.uncons
  rw [Mark.settled?, isToken, Option.map_some,
    if_neg fun both => settled both.1]

/-- An assigned word stays an identifier. -/
theorem name
    {name : String}
    (renders : Renders assigned (.word name :: marks) tokens)
    (isName : IsName name)
    (known : name ∈ assigned) :
    ∃ token others,
      tokens = token :: others ∧
        Is .identifier name token ∧ Renders assigned marks others := by
  apply renders.uncons
  rw [Mark.settled?, Mark.token?, isName.wordKind_eq, Option.map_some,
    if_neg fun both => both.2 (List.contains_iff_mem.mpr known)]

/-- A word that is never assigned is a label. -/
theorem label
    {name : String}
    (renders : Renders assigned (.word name :: marks) tokens)
    (isName : IsName name)
    (apart : name ∉ assigned) :
    ∃ token others,
      tokens = token :: others ∧ Is .label name token ∧
        Renders assigned marks others := by
  apply renders.uncons
  rw [Mark.settled?, Mark.token?, isName.wordKind_eq, Option.map_some,
    if_pos ⟨rfl, mt List.contains_iff_mem.mp apart⟩]

/-- Marks in parentheses are rendered as tokens in parentheses. -/
theorem enclose
    (renders : Renders assigned (Printing.enclose marks) tokens) :
    ∃ opening inner closing,
      tokens = opening :: (inner ++ [closing]) ∧
        Is .punctuation "(" opening ∧
          Renders assigned marks inner ∧ Is .punctuation ")" closing := by
  obtain ⟨opening, _, rfl, opens, rest⟩ := renders.token rfl nofun
  obtain ⟨inner, _, rfl, inside, rest⟩ := rest.split
  obtain ⟨closing, _, rfl, closes, rest⟩ := rest.token rfl nofun
  cases rest.nil
  exact ⟨opening, inner, closing, rfl, opens, inside, closes⟩

end Renders

/-- A token that spells a number is a literal of its value. -/
theorem Grammar.Is.isInteger
    {value : Number}
    {token : Token}
    (is : Is .number (toString value.toInt) token) :
    IsInteger value token where
  kind := is.kind
  value := by
    rw [is.text, Number.read?_toString]

namespace Node

variable
  {assigned : List String}
  {node : Node}
  {arguments : List Node}
  {tokens : List Token}

/-- Places are taken from an operation and from both operands. -/
theorem unplaced_operation
    (operator : Operator)
    (left right : Node)
    (location : Location) :
    (operation operator left right location).unplaced =
      operation operator left.unplaced right.unplaced .nowhere := by
  cases operator <;> rfl

/-- The tokens of the marks derive the node at a level, up to places. -/
def Derives
    (assigned : List String)
    (level : Nat)
    (marks : List Mark)
    (node : Node) :
    Prop :=
  ∀ tokens, Renders assigned marks tokens →
    ∃ parsed, Expression level tokens parsed ∧ parsed.unplaced = node.unplaced

section Operations

variable
  {operator : Operator}
  {leftMarks rightMarks : List Mark}
  {left right : Node}
  {location : Location}

/-- An operator with spaces around it derives an operation at its precedence. -/
theorem derives_operation
    (first : Derives assigned (leftPrecedence operator) leftMarks left)
    (second : Derives assigned operator.rightPrecedence rightMarks right) :
    Derives assigned operator.precedence
      (leftMarks ++ .space :: .operator operator :: .space :: rightMarks)
      (.operation operator left right location) := by
  intro tokens renders
  obtain ⟨leftTokens, _, rfl, rendersLeft, rest⟩ := renders.split
  obtain ⟨token, rightTokens, rfl, is, rest⟩ :=
    rest.space.token rfl (by cases operator <;> nofun)
  obtain ⟨leftNode, derivesLeft, sameLeft⟩ := first leftTokens rendersLeft
  obtain ⟨rightNode, derivesRight, sameRight⟩ := second rightTokens rest.space
  refine ⟨_, .operation derivesLeft is derivesRight, ?_⟩
  rw [unplaced_operation, unplaced_operation, sameLeft, sameRight]

/-- Parentheses are printed where the level is too tight for the operator. -/
theorem derives_between
    {minimum : Nat}
    (reaches : minimum ≤ primaryLevel)
    (first : Derives assigned (leftPrecedence operator) leftMarks left)
    (second : Derives assigned operator.rightPrecedence rightMarks right) :
    Derives assigned minimum
      (Printing.between minimum operator leftMarks rightMarks)
      (.operation operator left right location) := by
  intro tokens renders
  unfold Printing.between at renders
  split at renders
  · obtain ⟨opening, inner, closing, rfl, opens, inside, closes⟩ :=
      renders.enclose
    obtain ⟨parsed, derives, same⟩ :=
      derives_operation first second inner inside
    have loose := derives.loosen (one_le_precedence operator)
    exact ⟨parsed,
      (Expression.primary (.parenthesised opens loose closes)).loosen reaches,
      same⟩
  · rename_i tight
    obtain ⟨parsed, derives, same⟩ :=
      derives_operation first second tokens renders
    exact ⟨parsed, derives.loosen (Nat.le_of_not_lt tight), same⟩

end Operations

/-- The name of a function is scanned as a function. -/
theorem token?_function (function : Builtin) :
    (Mark.word function.name).token? = some (.function, function.name) := by
  cases function <;> decide

/-- The name of a draw command is scanned as a command. -/
theorem token?_command (command : DrawCommand) :
    (Mark.word command.name).token? = some (.command, command.name) := by
  cases command <;> decide

/--
Arguments with commas between them derive primaries, if each of them derives
one.
-/
theorem primaries_of_separated
    {argument : Node}
    (each :
      ∀ one ∈ argument :: arguments,
        Derives assigned primaryLevel (one.marks primaryLevel) one)
    (renders : Renders assigned (separated (argument :: arguments)) tokens) :
    ∃ nodes,
      Primaries tokens nodes ∧
        unplacedAll nodes = unplacedAll (argument :: arguments) := by
  induction arguments generalizing argument tokens with
  | nil =>
      rw [separated] at renders
      obtain ⟨parsed, derives, same⟩ :=
        each argument List.mem_cons_self tokens renders
      refine ⟨[parsed], .one derives.isPrimary, ?_⟩
      simp only [unplacedAll, same]
  | cons next others inductionHypothesis =>
      obtain ⟨first, each⟩ := List.forall_mem_cons.mp each
      rw [separated] at renders
      obtain ⟨firstTokens, _, rfl, rendersFirst, rest⟩ := renders.split
      obtain ⟨comma, restTokens, rfl, separates, rest⟩ :=
        rest.token rfl (by decide)
      obtain ⟨parsed, derives, same⟩ := first firstTokens rendersFirst
      obtain ⟨nodes, primaries, sameOthers⟩ :=
        inductionHypothesis each rest.space
      refine ⟨parsed :: nodes, .more derives.isPrimary separates primaries, ?_⟩
      rw [unplacedAll, unplacedAll, same, sameOthers]

/-- In parentheses they derive the arguments of a call. -/
theorem arguments_of_enclose
    (each :
      ∀ one ∈ arguments,
        Derives assigned primaryLevel (one.marks primaryLevel) one)
    (renders :
      Renders assigned (Printing.enclose (separated arguments)) tokens) :
    ∃ nodes,
      Arguments tokens nodes ∧ unplacedAll nodes = unplacedAll arguments := by
  obtain ⟨opening, inner, closing, rfl, opens, inside, closes⟩ :=
    renders.enclose
  cases arguments with
  | nil =>
      rw [separated] at inside
      cases inside.nil
      exact ⟨[], .none opens closes, rfl⟩
  | cons argument others =>
      obtain ⟨nodes, primaries, same⟩ := primaries_of_separated each inside
      exact ⟨nodes, .some opens primaries closes, same⟩

/-- The tokens of a printed expression derive it, up to places. -/
theorem Writable.derives
    (writable : node.Writable assigned)
    {minimum : Nat}
    (reaches : minimum ≤ primaryLevel) :
    Derives assigned minimum (node.marks minimum) node := by
  -- The level is general, since operands are printed for the levels of their
  -- operator.
  induction writable generalizing minimum with
  | number =>
      intro tokens renders
      rw [marks] at renders
      obtain ⟨token, _, rfl, is, rest⟩ := renders.token rfl (by decide)
      cases rest.nil
      exact ⟨_, (Expression.primary (.number is.isInteger)).loosen reaches, rfl⟩
  | text plain =>
      intro tokens renders
      rw [marks] at renders
      obtain ⟨token, _, rfl, is, rest⟩ := renders.token rfl (by decide)
      cases rest.nil
      refine ⟨_, (Expression.primary (.text is.kind)).loosen reaches, ?_⟩
      rw [is.text]
      rfl
  | read isName known =>
      intro tokens renders
      rw [marks] at renders
      obtain ⟨token, _, rfl, is, rest⟩ := renders.name isName known
      cases rest.nil
      refine ⟨_, (Expression.primary (.read is.kind)).loosen reaches, ?_⟩
      rw [is.text]
      rfl
  | label isName apart =>
      intro tokens renders
      rw [marks] at renders
      obtain ⟨token, _, rfl, is, rest⟩ := renders.label isName apart
      cases rest.nil
      refine ⟨_, (Expression.primary (.label is.kind)).loosen reaches, ?_⟩
      rw [is.text]
      rfl
  | @call function arguments location each inductionHypothesis =>
      intro tokens renders
      rw [marks] at renders
      obtain ⟨token, _, rfl, is, rest⟩ :=
        renders.token (token?_function function) (by decide)
      obtain ⟨nodes, derives, same⟩ :=
        arguments_of_enclose
          (fun one member => inductionHypothesis one member (Nat.le_refl _))
            rest
      refine ⟨_, (Expression.primary (.call is derives)).loosen reaches, ?_⟩
      rw [unplaced, unplaced, same]
  | arithmetic _ _ firstHypothesis secondHypothesis =>
      rw [marks]
      exact derives_between reaches
        (firstHypothesis (leftPrecedence_le_primaryLevel _))
        (secondHypothesis (rightPrecedence_le_primaryLevel _))
  | boolean _ _ firstHypothesis secondHypothesis =>
      rw [marks]
      exact derives_between reaches
        (firstHypothesis (leftPrecedence_le_primaryLevel _))
        (secondHypothesis (rightPrecedence_le_primaryLevel _))

/-- Arguments that can be written derive the arguments of a call. -/
theorem arguments_of_writable
    (each : ∀ argument ∈ arguments, argument.Writable assigned)
    (renders :
      Renders assigned (Printing.enclose (separated arguments)) tokens) :
    ∃ nodes,
      Arguments tokens nodes ∧ unplacedAll nodes = unplacedAll arguments :=
  arguments_of_enclose
    (fun one member => (each one member).derives (Nat.le_refl _)) renders

/-- The tokens of a printed instruction derive it, up to places. -/
theorem WritableLine.instruction
    (writable : node.WritableLine assigned)
    (known : ∀ name ∈ node.target?, name ∈ assigned)
    (renders : Renders assigned node.line tokens) :
    ∃ parsed, Instruction tokens parsed ∧ parsed.unplaced = node.unplaced := by
  cases writable with
  | @spawn x y location =>
      obtain ⟨word, _, rfl, keyword, rest⟩ := renders.token rfl nofun
      obtain ⟨opening, _, closing, rfl, opens, inside, closes⟩ := rest.enclose
      obtain ⟨first, _, rfl, column, inside⟩ := inside.token rfl nofun
      obtain ⟨comma, _, rfl, separates, inside⟩ := inside.token rfl nofun
      obtain ⟨second, _, rfl, row, inside⟩ := inside.space.token rfl nofun
      cases inside.nil
      exact ⟨_,
        .spawn keyword opens column.isInteger separates row.isInteger closes,
        rfl⟩
  | setColor plain =>
      obtain ⟨word, _, rfl, keyword, rest⟩ := renders.token rfl nofun
      obtain ⟨opening, _, closing, rfl, opens, inside, closes⟩ := rest.enclose
      obtain ⟨name, _, rfl, text, inside⟩ := inside.token rfl nofun
      cases inside.nil
      refine ⟨_, .setColor keyword opens text.kind closes, ?_⟩
      rw [text.text]
      rfl
  | setSize =>
      obtain ⟨word, _, rfl, keyword, rest⟩ := renders.token rfl nofun
      obtain ⟨opening, _, closing, rfl, opens, inside, closes⟩ := rest.enclose
      obtain ⟨number, _, rfl, side, inside⟩ := inside.token rfl nofun
      cases inside.nil
      exact ⟨_, .setSize keyword opens side.isInteger closes, rfl⟩
  | @draw command arguments location each =>
      obtain ⟨word, _, rfl, name, rest⟩ :=
        renders.token (token?_command command) nofun
      obtain ⟨nodes, derives, same⟩ := arguments_of_writable each rest
      refine ⟨_, .draw name derives, ?_⟩
      rw [unplaced, unplaced, same]
  | fill =>
      obtain ⟨word, _, rfl, keyword, rest⟩ := renders.token rfl nofun
      obtain ⟨opening, _, closing, rfl, opens, inside, closes⟩ := rest.enclose
      cases inside.nil
      exact ⟨_, .fill keyword opens closes, rfl⟩
  | assign isName inner =>
      obtain ⟨name, _, rfl, target, rest⟩ := renders.name isName (known _ rfl)
      obtain ⟨arrow, _, rfl, assigns, rest⟩ := rest.space.token rfl nofun
      obtain ⟨value, derives, same⟩ := inner.derives (by decide) _ rest.space
      refine ⟨_, .assign target.kind assigns derives, ?_⟩
      rw [unplaced, unplaced, target.text, same]
  | label isName apart =>
      obtain ⟨name, _, rfl, declared, rest⟩ := renders.label isName apart
      cases rest.nil
      refine ⟨_, .label declared.kind, ?_⟩
      rw [declared.text]
      rfl
  | goTo isName apart inner =>
      obtain ⟨word, _, rfl, keyword, rest⟩ := renders.token rfl nofun
      obtain ⟨leftBracket, _, rfl, bracket, rest⟩ := rest.space.token rfl nofun
      obtain ⟨label, _, rfl, target, rest⟩ := rest.label isName apart
      obtain ⟨rightBracket, _, rfl, unbracket, rest⟩ := rest.token rfl nofun
      obtain ⟨opening, _, closing, rfl, opens, inside, closes⟩ :=
        rest.space.enclose
      obtain ⟨condition, derives, same⟩ := inner.derives (by decide) _ inside
      refine ⟨_,
        .goTo keyword bracket target.kind unbracket opens derives closes, ?_⟩
      rw [unplaced, unplaced, target.text, same]
  | @call function arguments location each =>
      obtain ⟨word, _, rfl, name, rest⟩ :=
        renders.token (token?_function function) nofun
      obtain ⟨nodes, derives, same⟩ := arguments_of_writable each rest
      refine ⟨_, .call name derives, ?_⟩
      rw [unplaced, unplaced, same]

end Node

namespace Program

/-- The line of an instruction ends before the next instruction starts. -/
theorem breaksLine_place
    {assigned : List String}
    {node : Node}
    {program : Program}
    (oneLine : '\n' ∉ spell node.line)
    (others : ∀ node ∈ program, node.WritableLine assigned)
    (location : Location) :
    BreaksLine ((place location node.line).map (Naming.settle assigned))
      ((place ⟨location.line + 1, 1⟩ program.marks).map
        (Naming.settle assigned)) := by
  intro last isLast next isNext
  obtain ⟨lastToken, lastMember, rfl⟩ :=
    List.mem_map.mp (List.mem_of_getLast? isLast)
  rw [List.head?_map] at isNext
  obtain ⟨nextToken, nextHead, rfl⟩ := Option.map_eq_some_iff.mp isNext
  obtain ⟨name, rfl⟩ := head_place others _ nextToken nextHead
  rw [Naming.location_settle, Naming.location_settle,
    line_of_mem_place oneLine lastToken lastMember]
  exact Nat.ne_of_lt (Nat.lt_succ_self _)

/-- The tokens of a printed program spell it, up to places. -/
theorem spells_place
    {assigned : List String}
    {program : Program}
    (writable : ∀ node ∈ program, node.WritableLine assigned)
    (known : ∀ name ∈ program.assigned, name ∈ assigned)
    (location : Location) :
    ∃ parsed,
      Spells
        ((place location program.marks).map (Naming.settle assigned)) parsed ∧
        parsed.unplaced = program.unplaced := by
  induction program generalizing location with
  | nil =>
      exact ⟨[], .nil, rfl⟩
  | cons node program inductionHypothesis =>
      obtain ⟨first, others⟩ := List.forall_mem_cons.mp writable
      have oneLine := first.isLine.oneLine
      rw [assigned_cons, List.forall_mem_append] at known
      obtain ⟨parsedNode, derives, sameNode⟩ :=
        first.instruction
          (fun name isTarget => known.1 name (Option.mem_toList.mpr isTarget))
          (renders_place assigned location node.line)
      obtain ⟨parsed, spells, same⟩ :=
        inductionHypothesis others known.2 ⟨location.line + 1, 1⟩
      rw [place_cons oneLine, List.map_append]
      refine ⟨parsedNode :: parsed,
        .cons derives (breaksLine_place oneLine others location)
        spells, ?_⟩
      rw [unplaced, List.map_cons, sameNode]
      exact congrArg (_ :: ·) same

/-- A printed program is read back, up to places. -/
theorem ofSource_print
    {program : Program}
    (writable : program.Writable) :
    (ofSource program.print).map unplaced = .ok program.unplaced := by
  obtain ⟨parsed, spells, same⟩ :=
    spells_place writable (fun _ member => member) .start
  rw [ofSource, tokenize_print writable]
  dsimp only
  rw [parse, Cursor.instructions_complete spells, ← same]
  rfl

/--
A power of a power, a negative literal after an operator, and a sum as an
argument.
-/
theorem ofSource_print_loop :
    let program : Program :=
      [.assign "n"
          (.arithmetic .subtract (.number 1 .nowhere)
            (.arithmetic .power
              (.arithmetic .power (.number 2 .nowhere)
                (.number 3 .nowhere) .nowhere)
              (.number (-4) .nowhere) .nowhere) .nowhere) .nowhere,
        .label "again" .nowhere,
        .draw .line
          [.number (-1) .nowhere,
            .arithmetic .add (.read "n" .nowhere) (.number 2 .nowhere) .nowhere,
            .call .canvasSize [] .nowhere] .nowhere,
        .goTo "again"
          (.boolean .equal (.text "(a" .nowhere) (.label "again" .nowhere)
            .nowhere) .nowhere]
    program.print =
        "n <- 1 - (2 ** 3) ** -4\nagain\n" ++
          "DrawLine(-1, (n + 2), GetCanvasSize())\n" ++
          "GoTo [again] (\"(a\" == again)\n" ∧
      program.Writable ∧
        (ofSource program.print).map unplaced = .ok program.unplaced := by
  intro program
  have isVariable : IsName "n" :=
    ⟨⟨⟨_, rfl, rfl⟩, by decide⟩, by decide, by decide, by decide⟩
  have isLabel : IsName "again" :=
    ⟨⟨⟨_, rfl, rfl⟩, by decide⟩, by decide, by decide, by decide⟩
  have known : "n" ∈ program.assigned := by
    decide
  have apart : "again" ∉ program.assigned := by
    decide
  have writable : program.Writable := by
    rintro node member
    simp only [program, List.mem_cons, List.not_mem_nil, or_false] at member
    rcases member with rfl | rfl | rfl | rfl
    · exact .assign isVariable (.arithmetic .number
        (.arithmetic (.arithmetic .number .number) .number))
    · exact .label isLabel apart
    · refine .draw fun argument isArgument => ?_
      simp only [List.mem_cons, List.not_mem_nil, or_false] at isArgument
      rcases isArgument with rfl | rfl | rfl
      · exact .number
      · exact .arithmetic (.read isVariable known) .number
      · exact .call nofun
    · exact .goTo isLabel apart
        (.boolean (.text ⟨by decide, by decide⟩) (.label isLabel apart))
  exact ⟨by decide +kernel, writable, ofSource_print writable⟩

end Program

end PixelBrush
