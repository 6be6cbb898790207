import PixelBrush.Proofs.Kinds
import PixelBrush.Proofs.NodeOrder
import PixelBrush.Proofs.Printing

namespace PixelBrush

/-!
# The warnings of a program

Validation goes through a program from its first instruction to its last, and
through each expression from left to right.  Where it finds no errors, what it
finds can be read off the program itself: each instruction has its early reads,
then the warning that it is a jump too many, then what else is wrong with it as
a whole.
-/

/-! ## Checks that only find errors -/

/-- Every finding is an error. -/
def OnlyErrors (findings : List Diagnostic) : Prop :=
  ∀ finding ∈ findings, finding.isError = true

namespace OnlyErrors

/-- No findings are no warnings. -/
@[simp] theorem nil :
    OnlyErrors [] := by
  intro finding member
  cases member

/-- An error is no warning. -/
@[simp] theorem error
    (cause : ErrorCause)
    (location : Location) :
    OnlyErrors [.error cause location] :=
  List.forall_mem_singleton.mpr rfl

/-- One more error adds no warning. -/
theorem cons
    {findings : List Diagnostic}
    (cause : ErrorCause)
    (location : Location)
    (rest : OnlyErrors findings) :
    OnlyErrors (.error cause location :: findings) :=
  List.forall_mem_cons.mpr ⟨rfl, rest⟩

/-- Findings without warnings can be put together. -/
theorem append
    {first second : List Diagnostic}
    (ofFirst : OnlyErrors first)
    (ofSecond : OnlyErrors second) :
    OnlyErrors (first ++ second) :=
  List.forall_mem_append.mpr ⟨ofFirst, ofSecond⟩

/-- Without errors, nothing was found. -/
theorem eq_nil
    {findings : List Diagnostic}
    (only : OnlyErrors findings)
    (clean : Clean findings) :
    findings = [] := by
  refine List.eq_nil_iff_forall_not_mem.mpr ?_
  intro finding member
  have isError := only finding member
  rw [clean finding member] at isError
  cases isError

/-- Checking the kind of an operand warns of nothing. -/
theorem checkOperand
    (scope : Scope)
    (operator : ArithmeticOperator)
    (operand : Node)
    (location : Location) :
    OnlyErrors (scope.checkOperand operator operand location) := by
  unfold Scope.checkOperand
  split <;> simp

/-- Checking a comparison warns of nothing. -/
theorem checkComparison
    (scope : Scope)
    (operator : BooleanOperator)
    (left right : Node)
    (location : Location) :
    OnlyErrors (scope.checkComparison operator left right location) := by
  unfold Scope.checkComparison
  split
  · split <;> simp
  all_goals simp

/-- Checking a direction warns of nothing. -/
theorem checkDirection
    (command : DrawCommand)
    (argument : Node)
    (location : Location) :
    OnlyErrors (Outlook.checkDirection command argument location) := by
  unfold Outlook.checkDirection
  split
  · split <;> simp
  · simp

/-- Checking a distance warns of nothing. -/
theorem checkDistance
    (command : DrawCommand)
    (argument : Node) :
    OnlyErrors (Outlook.checkDistance command argument) := by
  unfold Outlook.checkDistance
  split
  · split <;> simp
  · split <;> simp
  · simp

/-- Checking the extents of a figure warns of nothing. -/
theorem checkExtents
    (extents : List Node) :
    OnlyErrors (extents.flatMap Outlook.checkExtent) := by
  intro finding member
  obtain ⟨extent, _, found⟩ := List.mem_flatMap.mp member
  have only : OnlyErrors (Outlook.checkExtent extent) := by
    unfold Outlook.checkExtent
    split
    · split <;> simp
    · simp
  exact only finding found

/-- Checking where a command arrives warns of nothing. -/
theorem arrival
    (outlook : Outlook)
    (command : DrawCommand)
    (directionY directionX distance : Node)
    (location : Location) :
    OnlyErrors
      (outlook.arrival command directionY directionX distance location).2 := by
  unfold Outlook.arrival
  split
  · split
    · dsimp only
      split <;> simp
    · simp
  · simp

/-- Looking for repeated spawns and labels warns of nothing. -/
theorem repetitions
    (isFirst : Bool)
    (labels : List String)
    (nodes : List Node) :
    OnlyErrors (PixelBrush.repetitions isFirst labels nodes) := by
  fun_induction PixelBrush.repetitions isFirst labels nodes with
  | case1 =>
      exact nil
  | case2 _ _ _ _ _ inductionHypothesis | case5 _ _ _ _ _ _ inductionHypothesis
  | case6 _ _ _ _ _ _ inductionHypothesis =>
      exact inductionHypothesis
  | case3 _ _ _ _ _ _ _ inductionHypothesis
  | case4 _ _ _ _ _ _ inductionHypothesis =>
      exact cons _ _ inductionHypothesis

/-- Checking the shape of a program warns of nothing. -/
theorem checkShape
    (program : Program) :
    OnlyErrors program.checkShape := by
  unfold Program.checkShape
  refine append ?_ (repetitions true [] program)
  split <;> simp

end OnlyErrors

/-! ## Early reads -/

namespace Node

/-- The warning about a name that is read and not among those assigned. -/
def earlyRead? (assigned : List String) : Node → Option Diagnostic
  | .read name location =>
      if name ∈ assigned then
        none
      else
        some (.warning (.readBeforeAssigned name) location)
  | _ => none

/-- The warnings about names read among some nodes. -/
def earlyReads (assigned : List String) (nodes : List Node) : List Diagnostic :=
  nodes.filterMap (earlyRead? assigned)

variable
  {assigned : List String}
  {node : Node}
  {nodes : List Node}

/-- Early reads are the variables that are read and not yet assigned. -/
theorem mem_earlyReads_iff
    {diagnostic : Diagnostic} :
    diagnostic ∈ earlyReads assigned nodes ↔
      ∃ name location,
        .read name location ∈ nodes ∧
          name ∉ assigned ∧
          diagnostic = .warning (.readBeforeAssigned name) location := by
  unfold earlyReads
  rw [List.mem_filterMap]
  constructor
  · rintro ⟨node, member, warned⟩
    cases node with
    | read name location =>
        rw [earlyRead?] at warned
        split at warned
        · cases warned
        · rename_i early
          cases warned
          exact ⟨name, location, member, early, rfl⟩
    | _ =>
        cases warned
  · rintro ⟨name, location, member, early, rfl⟩
    exact ⟨_, member, if_neg early⟩

/--
There are no early reads exactly if all variables that are read are assigned.
-/
theorem earlyReads_eq_nil_iff :
    earlyReads assigned nodes = [] ↔
      ∀ name location,
        .read name location ∈ nodes →
        name ∈ assigned := by
  rw [List.eq_nil_iff_forall_not_mem]
  constructor
  · intro none name location member
    by_contra early
    exact none _ (mem_earlyReads_iff.mpr ⟨name, location, member, early, rfl⟩)
  · intro each diagnostic member
    obtain ⟨name, location, listed, early, _⟩ := mem_earlyReads_iff.mp member
    exact early (each name location listed)

/-- The order of the assigned names does not matter. -/
theorem earlyReads_reverse
    (assigned : List String)
    (nodes : List Node) :
    earlyReads assigned.reverse nodes = earlyReads assigned nodes := by
  have same : earlyRead? assigned.reverse = earlyRead? assigned := by
    funext node
    cases node with
    | read name location =>
        simp only [earlyRead?, List.mem_reverse]
    | _ =>
        rfl
  unfold earlyReads
  rw [same]

/-- Early reads are reported one list of nodes after the other. -/
theorem earlyReads_append
    (assigned : List String)
    (first second : List Node) :
    earlyReads assigned (first ++ second) =
      earlyReads assigned first ++ earlyReads assigned second :=
  List.filterMap_append

/-- An expression that reads nothing that may change reads no names. -/
theorem read_not_mem_of_static
    (isExpression : node.IsExpression)
    (static : node.isDynamic = false)
    (name : String)
    (location : Location) :
    .read name location ∉ node.inOrder := by
  induction node using Node.operandInduction with
  | step node inductionHypothesis =>
      obtain ⟨performedIsLabel, inner⟩ := isExpression
      cases node with
      | number | text | label | spawn | setColor | setSize | fill =>
          simp [inOrder]
      | read | call =>
          cases static
      | arithmetic operator left right place
      | boolean operator left right place =>
          simp only [isDynamic, Bool.or_eq_false_iff] at static
          have inLeft : left ∈ [left, right] := by simp
          have inRight : right ∈ [left, right] := by simp
          have noneLeft :=
            inductionHypothesis left inLeft (inner left inLeft) static.1
          have noneRight :=
            inductionHypothesis right inRight (inner right inRight) static.2
          simp [inOrder, noneLeft, noneRight]
      | draw | assign | goTo =>
          obtain ⟨_, _, isLabel⟩ := performedIsLabel rfl
          cases isLabel

end Node

namespace Scope

variable
  {scope : Scope}
  {arguments : List Node}

/-- Arguments of a call without errors have only their early reads to report. -/
theorem checkArguments_eq_earlyReads
    {function : Builtin}
    {index : Nat}
    {kinds : List ValueKind}
    (each :
      ∀ argument ∈ arguments,
        Clean (scope.check argument) →
        scope.check argument = Node.earlyReads scope.declared argument.inOrder)
    (arity : arguments.length = kinds.length)
    (clean : Clean (scope.checkArguments function index kinds arguments)) :
    scope.checkArguments function index kinds arguments =
      Node.earlyReads scope.declared (Node.allInOrder arguments) := by
  induction arguments generalizing index kinds with
  | nil =>
      cases kinds with
      | nil =>
          rfl
      | cons =>
          cases arity
  | cons argument rest inductionHypothesis =>
      cases kinds with
      | nil =>
          cases arity
      | cons expected others =>
          obtain ⟨ofFirst, ofRest⟩ := List.forall_mem_cons.mp each
          simp only [checkArguments, clean_append_iff] at clean ⊢
          obtain ⟨⟨cleanFirst, cleanKind⟩, cleanRest⟩ := clean
          rw [ofFirst cleanFirst,
            inductionHypothesis ofRest (Nat.succ.inj arity) cleanRest,
            Node.allInOrder, Node.earlyReads_append]
          congr 1
          split at cleanKind
          · split at cleanKind
            · rename_i fits
              rw [if_pos fits, List.append_nil]
            · exact absurd cleanKind (not_clean_error _ _)
          · rw [List.append_nil]

/-- An expression without errors has only its early reads to report. -/
theorem check_eq_earlyReads
    {node : Node}
    (isExpression : node.IsExpression)
    (clean : Clean (scope.check node)) :
    scope.check node = Node.earlyReads scope.declared node.inOrder := by
  induction node using Node.operandInduction with
  | step node inductionHypothesis =>
      obtain ⟨performedIsLabel, inner⟩ := isExpression
      cases node with
      | number | spawn | setColor | setSize | fill =>
          rfl
      | text name location =>
          rw [check] at clean ⊢
          split at clean
          · rename_i named
            rw [if_pos named]
            rfl
          · exact absurd clean (not_clean_error _ _)
      | read name location =>
          by_cases known : name ∈ scope.declared
          · simp [check, Node.inOrder, Node.earlyReads, Node.earlyRead?, known]
          · simp [check, Node.inOrder, Node.earlyReads, Node.earlyRead?, known]
      | label name location =>
          exact absurd clean (not_clean_error _ _)
      | call function arguments location =>
          rw [check] at clean ⊢
          split at clean
          · rename_i arity
            rw [if_pos arity]
            refine checkArguments_eq_earlyReads ?_ arity clean
            intro argument member cleanArgument
            exact inductionHypothesis argument member (inner argument member)
              cleanArgument
          · exact absurd clean (not_clean_error _ _)
      | arithmetic operator left right location =>
          have inLeft : left ∈ [left, right] := by simp
          have inRight : right ∈ [left, right] := by simp
          have ofLeft := inductionHypothesis left inLeft (inner left inLeft)
          have ofRight :=
            inductionHypothesis right inRight (inner right inRight)
          simp only [check, clean_append_iff] at clean ⊢
          rw [(OnlyErrors.checkOperand scope operator left location).eq_nil
            clean.1.2,
            (OnlyErrors.checkOperand scope operator right location).eq_nil
              clean.2,
            ofLeft clean.1.1.1, ofRight clean.1.1.2, List.append_nil,
            List.append_nil, Node.inOrder, Node.earlyReads_append]
          rfl
      | boolean operator left right location =>
          have inLeft : left ∈ [left, right] := by simp
          have inRight : right ∈ [left, right] := by simp
          have ofLeft := inductionHypothesis left inLeft (inner left inLeft)
          have ofRight :=
            inductionHypothesis right inRight (inner right inRight)
          simp only [check, clean_append_iff] at clean ⊢
          rw [ofLeft clean.1.1, ofRight clean.1.2, Node.inOrder,
            Node.earlyReads_append]
          have comparable := clean.2
          split at comparable
          · rename_i logical
            rw [if_pos logical, List.append_nil]
            rfl
          · rename_i relational
            rw [if_neg relational,
              (OnlyErrors.checkComparison scope operator left right
                location).eq_nil comparable,
              List.append_nil]
            rfl
      | draw | assign | goTo =>
          obtain ⟨_, _, isLabel⟩ := performedIsLabel rfl
          cases isLabel

end Scope

/-! ## Warnings by instruction -/

namespace Program

/-- The warning about many jumps, at the first jump beyond the threshold. -/
def crowding (program : Program) (index : Nat) : Node → List Diagnostic
  | .goTo _ _ location =>
      if (program.take index).countP Node.isJump = jumpThreshold then
        [.warning (.manyJumps jumpThreshold) location]
      else
        []
  | _ => []

/-- The other warnings about an instruction as a whole. -/
def remarks (program : Program) (index : Nat) : Node → List Diagnostic
  | .setSize size location =>
      match Brush.adjustedSize? size with
      | some adjusted =>
          if adjusted = size then
            []
          else
            [.warning (.sizeAdjusted adjusted) location]
      | none => []
  | .goTo label condition location =>
      if (program.labelIndex? label).any (· < index) &&
          !condition.isDynamic then
        [.warning (.endlessJump label) location]
      else
        []
  | _ => []

/--
The warnings about the instruction at an index and about what is inside it.
-/
def warningsAt
    (program : Program)
    (index : Nat)
    (node : Node) :
    List Diagnostic :=
  Node.earlyReads (assigned (program.take index)) node.inOrder ++
    (program.crowding index node ++ program.remarks index node)

/-- The warnings of a program. -/
def warnings (program : Program) : List Diagnostic :=
  program.zipIdx.flatMap fun entry => program.warningsAt entry.2 entry.1

end Program

namespace Outlook

variable
  {outlook : Outlook}
  {program : Program}
  {index : Nat}
  {node : Node}

/--
Arguments of a draw command without errors are warned of for their early reads
only.
-/
theorem checkDrawArguments_eq_earlyReads
    {scope : Scope}
    {command : DrawCommand}
    {first : Nat}
    {arguments : List Node}
    (isExpression : ∀ argument ∈ arguments, argument.IsExpression)
    (clean : Clean (checkDrawArguments scope command first arguments)) :
    checkDrawArguments scope command first arguments =
      Node.earlyReads scope.declared (Node.allInOrder arguments) := by
  induction arguments generalizing first with
  | nil =>
      rfl
  | cons argument rest inductionHypothesis =>
      obtain ⟨ofFirst, ofRest⟩ := List.forall_mem_cons.mp isExpression
      simp only [checkDrawArguments, clean_append_iff] at clean ⊢
      obtain ⟨⟨cleanFirst, cleanKind⟩, cleanRest⟩ := clean
      rw [Scope.check_eq_earlyReads ofFirst cleanFirst,
        inductionHypothesis ofRest cleanRest, Node.allInOrder,
        Node.earlyReads_append]
      congr 1
      split at cleanKind
      · rw [List.append_nil]
      · rw [List.append_nil]
      · exact absurd cleanKind (not_clean_error _ _)

/-- A draw command without errors adds the early reads of its arguments. -/
theorem findings_checkDraw
    {command : DrawCommand}
    {arguments : List Node}
    {location : Location}
    (isExpression : ∀ argument ∈ arguments, argument.IsExpression)
    (clean : Clean (outlook.checkDraw command arguments location).findings) :
    (outlook.checkDraw command arguments location).findings =
      outlook.findings ++
        Node.earlyReads outlook.scope.declared (Node.allInOrder arguments) := by
  obtain ⟨nodeY, nodeX, nodeDistance, extents, rfl, checked⟩ :=
    checkDraw_of_arity outlook location (drawChecked clean).arity
  rw [checked] at clean ⊢
  simp only [checkMove, place, report, clean_append_iff] at clean ⊢
  obtain ⟨_,
    ⟨⟨⟨⟨cleanArguments, cleanY⟩, cleanX⟩, cleanDistance⟩, cleanExtents⟩,
    cleanEnd⟩ :=
    clean
  rw [checkDrawArguments_eq_earlyReads isExpression cleanArguments,
    (OnlyErrors.checkDirection command nodeY location).eq_nil cleanY,
    (OnlyErrors.checkDirection command nodeX location).eq_nil cleanX,
    (OnlyErrors.checkDistance command nodeDistance).eq_nil cleanDistance,
    (OnlyErrors.checkExtents extents).eq_nil cleanExtents,
    (OnlyErrors.arrival outlook command nodeY nodeX nodeDistance
      location).eq_nil cleanEnd]
  simp only [List.append_nil]

/--
A jump without errors adds the early reads of its condition, then its crowding
and its remarks.
-/
theorem findings_checkGoTo
    {label : String}
    {condition : Node}
    {location : Location}
    (isExpression : condition.IsExpression)
    (jumps : outlook.jumps = (program.take index).countP Node.isJump)
    (clean :
      Clean
        (outlook.checkGoTo program index label condition location).findings) :
    (outlook.checkGoTo program index label condition location).findings =
      outlook.findings ++
        (Node.earlyReads outlook.scope.declared condition.inOrder ++
          (program.crowding index (.goTo label condition location) ++
            program.remarks index (.goTo label condition location))) := by
  simp only [checkGoTo, report, clean_append_iff] at clean ⊢
  obtain ⟨_, ⟨⟨⟨cleanLabel, cleanCondition⟩, cleanKind⟩, _⟩, _⟩ := clean
  split at cleanLabel
  · exact absurd cleanLabel (not_clean_error _ _)
  · rename_i declared
    split at cleanKind
    · rename_i isCondition
      rw [if_neg declared, if_pos isCondition,
        Scope.check_eq_earlyReads isExpression cleanCondition, jumps,
        List.nil_append, List.append_nil, List.append_assoc]
      rfl
    · exact absurd cleanKind (not_clean_error _ _)

/-- Checking an instruction without errors adds its warnings. -/
theorem findings_check
    (clean : Clean (outlook.check program index node).findings)
    (spelled : node.IsSpelled)
    (jumps : outlook.jumps = (program.take index).countP Node.isJump) :
    (outlook.check program index node).findings =
      outlook.findings ++
        (Node.earlyReads outlook.scope.declared node.inOrder ++
          (program.crowding index node ++ program.remarks index node)) := by
  cases node with
  | spawn x y location =>
      simp only [check, checkSpawn] at clean ⊢
      split at clean
      · rename_i inside
        rw [if_pos inside]
        exact (List.append_nil _).symm
      · exact absurd (clean_append_iff.mp clean).2 (not_clean_error _ _)
  | setColor name location =>
      simp only [check, checkColor] at clean ⊢
      split at clean
      · exact (List.append_nil _).symm
      · exact absurd (clean_append_iff.mp clean).2 (not_clean_error _ _)
  | setSize size location =>
      simp only [check, checkSize, Program.remarks] at clean ⊢
      split at clean
      · exact absurd (clean_append_iff.mp clean).2 (not_clean_error _ _)
      · rename_i adjusted isAdjusted
        rw [isAdjusted]
        by_cases same : adjusted = size
        · simp only [if_pos same]
          exact (List.append_nil _).symm
        · simp only [if_neg same]
          rfl
  | fill location =>
      simp only [check] at clean ⊢
      split at clean
      · exact absurd (clean_append_iff.mp clean).2 (not_clean_error _ _)
      · rename_i visible
        rw [if_neg visible]
        exact (List.append_nil _).symm
  | label name location =>
      exact (List.append_nil _).symm
  | draw command arguments location =>
      refine (findings_checkDraw spelled.expressions clean).trans ?_
      exact congrArg (outlook.findings ++ ·) (List.append_nil _).symm
  | goTo label condition location =>
      have isExpression :=
        spelled.expressions condition (List.mem_singleton_self _)
      exact findings_checkGoTo isExpression jumps clean
  | assign | call | arithmetic | boolean | read | number | text =>
      have isExpression := spelled.expressions _ (List.mem_singleton_self _)
      have reads :=
        Scope.check_eq_earlyReads isExpression (clean_append_iff.mp clean).2
      refine congrArg (outlook.findings ++ ·) (reads.trans ?_)
      exact (List.append_nil _).symm

/-- Checking an instruction counts the jumps. -/
theorem jumps_check
    (outlook : Outlook)
    (program : Program)
    (index : Nat)
    (node : Node) :
    (outlook.check program index node).jumps =
      outlook.jumps + [node].countP Node.isJump := by
  cases node with
  | spawn x y location =>
      simp only [check, checkSpawn]
      split <;> rfl
  | setColor name location =>
      simp only [check, checkColor]
      split <;> rfl
  | setSize size location =>
      simp only [check, checkSize]
      split
      · rfl
      · split <;> rfl
  | draw command arguments location =>
      simp only [check, checkDraw]
      split <;> rfl
  | fill location =>
      simp only [check]
      split <;> rfl
  | assign | label | goTo | call | arithmetic | boolean | read | number
  | text =>
      rfl

/-- Checking an instruction declares the variable that it assigns. -/
theorem declared_check
    (outlook : Outlook)
    (program : Program)
    (index : Nat)
    (node : Node) :
    (outlook.check program index node).scope.declared =
      (Program.assigned [node]).reverse ++ outlook.scope.declared := by
  cases node with
  | assign name value location =>
      rfl
  | _ =>
      rw [scope_check outlook program index (by simp)]
      rfl

/-- What a state of validation says about the instructions checked so far. -/
structure Tallies
    (program : Program)
    (index : Nat)
    (outlook : Outlook) :
    Prop where
  declared :
    outlook.scope.declared = (Program.assigned (program.take index)).reverse
  jumps : outlook.jumps = (program.take index).countP Node.isJump
  findings :
    outlook.findings =
      (program.take index).zipIdx.flatMap fun entry =>
        program.warningsAt entry.2 entry.1

/-- Checking one more instruction keeps the tally of the warnings. -/
theorem Tallies.check
    (tallies : Tallies program index outlook)
    (found : program[index]? = some node)
    (spelled : node.IsSpelled)
    (clean : Clean (outlook.check program index node).findings) :
    Tallies program (index + 1) (outlook.check program index node) := by
  have within : index ≤ program.length :=
    Nat.le_of_lt (List.getElem?_eq_some_iff.mp found).1
  have longer : program.take (index + 1) = program.take index ++ [node] := by
    rw [List.take_add_one, found, Option.toList_some]
  refine ⟨?_, ?_, ?_⟩
  · rw [declared_check, tallies.declared, longer, ← List.reverse_append]
    unfold Program.assigned
    rw [List.filterMap_append]
  · rw [jumps_check, tallies.jumps, longer, List.countP_append]
  · have entry :
        [node].zipIdx (0 + (program.take index).length) = [(node, index)] := by
      rw [List.length_take, Nat.min_eq_left within, Nat.zero_add]
      rfl
    rw [findings_check clean spelled tallies.jumps, tallies.declared,
      Node.earlyReads_reverse, tallies.findings, longer, List.zipIdx_append,
      entry, List.flatMap_append, List.flatMap_singleton]
    rfl

/--
Before each instruction of a valid program, the findings are the warnings of the
instructions before it.
-/
theorem tallies_before
    {size : Nat}
    (spelled : ∀ node ∈ program, node.IsSpelled)
    (valid : (program.validate size).errors = [])
    (within : index ≤ program.length) :
    Tallies program index (before program size index) := by
  induction index with
  | zero =>
      -- The shape of a program is checked first and can only be wrong.
      have atStart := before_extends_validate program size 0
      have clean : Clean program.checkShape :=
        (clean_of_errors_nil valid).of_isPrefix atStart.findings
      exact ⟨rfl, rfl, (OnlyErrors.checkShape program).eq_nil clean⟩
  | succ index inductionHypothesis =>
      have found := List.getElem?_eq_getElem within
      rw [before_succ found]
      exact (inductionHypothesis (Nat.le_of_lt within)).check found
        (spelled _ (List.getElem_mem within)) (clean_check valid found)

end Outlook

/--
The warnings of a compiled program are those of its instructions, in order.
-/
theorem Compiled.IsSound.warnings_eq
    {compiled : Compiled}
    {size : Nat}
    (sound : compiled.IsSound size) :
    compiled.warnings = compiled.program.warnings := by
  obtain ⟨spelled, valid, warnings⟩ := sound
  have atEnd := Outlook.tallies_before spelled valid (Nat.le_refl _)
  have whole :
      Outlook.before compiled.program size compiled.program.length =
        compiled.program.validate size := by
    unfold Outlook.before
    rw [List.take_length]
    rfl
  have found := atEnd.findings
  rw [whole, List.take_length] at found
  have clean := Outlook.clean_of_errors_nil valid
  rw [warnings, Program.warnings, ← found]
  refine List.filter_eq_self.mpr ?_
  intro finding member
  rw [clean finding member]
  rfl

end PixelBrush
