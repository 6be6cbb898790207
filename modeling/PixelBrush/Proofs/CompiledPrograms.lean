import PixelBrush.Proofs.Evaluation
import PixelBrush.Proofs.ParserSoundness
import PixelBrush.Session.Basic

namespace PixelBrush

/-!
# What compilation lets through

One type of nodes covers instructions and expressions, but sources do not mix
them: whatever a compiled program evaluates is made of expressions all the way
down, and the only expression that stands alone is a call.  Both come from the
grammar.
-/

namespace Node

/--
Nothing in an expression is performed; a label may stand where a name is wanted.
-/
inductive IsExpression : Node → Prop where
  | intro
      {node : Node}
      (evaluated :
        node.isInstruction = true →
        ∃ name location, node = .label name location)
      (inner : ∀ operand ∈ node.operands, IsExpression operand) :
      IsExpression node

/-- Literals and names are expressions by themselves. -/
theorem IsExpression.leaf
    {node : Node}
    (evaluated : node.isInstruction = false)
    (noOperands : node.operands = []) :
    node.IsExpression := by
  refine .intro ?_ ?_
  · intro performed
    rw [evaluated] at performed
    cases performed
  · rw [noOperands]
    intro operand member
    cases member

/-- An operation on two expressions is an expression. -/
theorem IsExpression.operation
    {operator : Operator}
    {left right : Node}
    {location : Location}
    (isLeft : left.IsExpression)
    (isRight : right.IsExpression) :
    (operation operator left right location).IsExpression := by
  have both : ∀ operand ∈ [left, right], operand.IsExpression := by
    simpa using ⟨isLeft, isRight⟩
  cases operator with
  | arithmetic | boolean =>
      refine .intro ?_ both
      intro performed
      cases performed

/-- A call with expressions for arguments is an expression. -/
theorem IsExpression.call
    {function : Builtin}
    {arguments : List Node}
    {location : Location}
    (inner : ∀ argument ∈ arguments, argument.IsExpression) :
    (Node.call function arguments location).IsExpression := by
  refine .intro ?_ inner
  intro performed
  cases performed

/-- The expressions that an instruction evaluates. -/
def expressions : Node → List Node
  | .draw _ arguments _ => arguments
  | .assign _ value _ => [value]
  | .goTo _ condition _ => [condition]
  | .spawn .. | .setColor .. | .setSize .. | .fill .. | .label .. => []
  | node => [node]

/-- An instruction that a source can spell. -/
structure IsSpelled (node : Node) : Prop where
  expressions : ∀ expression ∈ node.expressions, expression.IsExpression
  alone :
    node.isInstruction = false →
    ∃ function arguments location, node = .call function arguments location

end Node

namespace Grammar

mutual

/-- Primaries are expressions. -/
theorem Primary.isExpression
    {tokens : List Token}
    {node : Node} :
    Primary tokens node → node.IsExpression
  | .number _ => .leaf rfl rfl
  | .text _ => .leaf rfl rfl
  | .read _ => .leaf rfl rfl
  | .label _ =>
      .intro (fun _ => ⟨_, _, rfl⟩)
        (fun _ member => absurd member List.not_mem_nil)
  | .call _ arguments => .call arguments.isExpression
  | .parenthesised _ inner _ => inner.isExpression

/-- The arguments that the grammar derives are expressions. -/
theorem Arguments.isExpression
    {tokens : List Token}
    {nodes : List Node} :
    Arguments tokens nodes → ∀ node ∈ nodes, node.IsExpression
  | .none _ _ => fun _ member => absurd member List.not_mem_nil
  | .some _ inner _ => inner.isExpression

/-- The primaries that the grammar derives are expressions. -/
theorem Primaries.isExpression
    {tokens : List Token}
    {nodes : List Node} :
    Primaries tokens nodes → ∀ node ∈ nodes, node.IsExpression
  | .one only => List.forall_mem_singleton.mpr only.isExpression
  | .more first _ others =>
      List.forall_mem_cons.mpr ⟨first.isExpression, others.isExpression⟩

/-- So is what operators join. -/
theorem Expression.isExpression
    {level : Nat}
    {tokens : List Token}
    {node : Node} :
    Expression level tokens node → node.IsExpression
  | .primary whole => whole.isExpression
  | .tighter inner => inner.isExpression
  | .groupsLeft _ _ _ first second =>
      .operation first.isExpression second.isExpression
  | .groupsRight _ _ _ first second =>
      .operation first.isExpression second.isExpression

end

/--
What the grammar derives as an instruction has the shape of a spelled one.
-/
theorem Instruction.isSpelled
    {tokens : List Token}
    {node : Node}
    (whole : Instruction tokens node) :
    node.IsSpelled := by
  cases whole with
  | spawn | setColor | setSize | fill | label =>
      exact ⟨by simp [Node.expressions], by simp [Node.isInstruction]⟩
  | draw name arguments =>
      exact ⟨arguments.isExpression, by simp [Node.isInstruction]⟩
  | goTo keyword bracket target unbracket opens inner closes =>
      exact ⟨List.forall_mem_singleton.mpr inner.isExpression,
        by simp [Node.isInstruction]⟩
  | assign target assigns inner =>
      exact ⟨List.forall_mem_singleton.mpr inner.isExpression,
        by simp [Node.isInstruction]⟩
  | call name arguments =>
      exact ⟨List.forall_mem_singleton.mpr (.call arguments.isExpression),
        fun _ => ⟨_, _, _, rfl⟩⟩

/-- All instructions of a spelled program have the shape of spelled ones. -/
theorem Spells.isSpelled
    {tokens : List Token}
    {program : Program}
    (spells : Spells tokens program) :
    ∀ node ∈ program, node.IsSpelled := by
  induction spells with
  | nil =>
      intro node member
      cases member
  | cons first newLine others inductionHypothesis =>
      exact List.forall_mem_cons.mpr ⟨first.isSpelled, inductionHypothesis⟩

end Grammar

/-- What is known of a result in advance is true of the value that it holds. -/
theorem exists_eq_ok_of_any
    {result : Except Failure Result}
    {property : Result → Bool}
    (settled : result.toOption.any property = true) :
    ∃ value, result = .ok value ∧ property value = true := by
  cases result with
  | error failure =>
      cases settled
  | ok value =>
      exact ⟨value, rfl, settled⟩

/--
A program that compiled was spelled by its source and validated without errors.
-/
structure Compiled.IsSound (compiled : Compiled) (size : Nat) : Prop where
  spelled : ∀ node ∈ compiled.program, node.IsSpelled
  valid : (compiled.program.validate size).errors = []
  warnings : compiled.warnings = (compiled.program.validate size).warnings

/-- What compiles can be settled from the characters of the source. -/
theorem exists_compiled_of_characters
    {size : Nat}
    {source : String}
    {characters : List Char}
    {property : Compiled → Bool}
    (spelled : source.toList = characters)
    (settled :
      ((Scan.tokens none .start .empty characters).bind
        resolveNames).toOption.any (fun tokens =>
        (Program.parse tokens).toOption.any fun program =>
          (program.validate size).errors.isEmpty &&
            property ⟨program, (program.validate size).warnings⟩) = true) :
    ∃ compiled,
      compile size source = .ok compiled ∧ property compiled = true := by
  obtain ⟨tokens, scanned, parses⟩ := exists_eq_ok_of_any settled
  obtain ⟨program, parsed, known⟩ := exists_eq_ok_of_any parses
  rw [Bool.and_eq_true] at known
  have tokenized : tokenize source = .ok tokens := by
    unfold tokenize scan
    rw [spelled, scanned]
  refine ⟨_, ?_, known.2⟩
  unfold compile
  simp only [tokenized, parsed, if_pos known.1]

/-- What compiles was scanned, parsed and validated without errors. -/
theorem compile_eq_ok
    {size : Nat}
    {source : String}
    {compiled : Compiled}
    (compiles : compile size source = .ok compiled) :
    ∃ tokens,
      tokenize source = .ok tokens ∧
        Program.parse tokens = .ok compiled.program ∧
        (compiled.program.validate size).errors = [] ∧
        compiled.warnings = (compiled.program.validate size).warnings := by
  unfold compile at compiles
  split at compiles
  · cases compiles
  · rename_i tokens scanned
    split at compiles
    · cases compiles
    · rename_i program parsed
      dsimp only at compiles
      split at compiles
      · rename_i noErrors
        cases compiles
        exact ⟨tokens, scanned, parsed, List.isEmpty_iff.mp noErrors, rfl⟩
      · cases compiles

/-- Compiling gives a program that its source spells and that has no errors. -/
theorem isSound_of_compile
    {size : Nat}
    {source : String}
    {compiled : Compiled}
    (compiles : compile size source = .ok compiled) :
    compiled.IsSound size := by
  obtain ⟨tokens, scanned, parsed, valid, warnings⟩ := compile_eq_ok compiles
  exact ⟨(spells_of_parse scanned parsed).isSpelled, valid, warnings⟩

end PixelBrush
