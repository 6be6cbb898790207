import PixelBrush.Proofs.BrushEstimates

namespace PixelBrush

/-!
# What can still fail after validation

Validation and evaluation walk over the same expressions.  Where validation
finds no error, evaluation fails only on what the values of the run decide, and
an instruction fails only in the ways that `Node.mayFailWith` allows.  So a run
of a validated program never meets an unknown label, an unknown color, a refused
brush size or a wrong number of arguments.
-/

/-- A name is also a name when the case of letters is ignored. -/
theorem Color.ofAnyCase?_of_ofName?
    {name : String}
    (named : (ofName? name).isSome) :
    (ofAnyCase? name).isSome := by
  obtain ⟨color, found⟩ := Option.isSome_iff_exists.mp named
  unfold ofName? at found
  have same := List.find?_some found
  rw [beq_iff_eq] at same
  apply List.find?_isSome.mpr
  exact ⟨color, List.mem_of_find?_eq_some found, by simp [sameLetters, same]⟩

/-- A cause that only the values of a run can decide. -/
def RunCause.isOfValues : RunCause → Bool
  | .undefinedVariable _ | .kindMismatch _ | .zeroDivision _ | .overflow _ =>
      true
  | _ => false

/-- A cause that numbers alone decide. -/
def RunCause.isOfNumbers : RunCause → Bool
  | .zeroDivision _ | .overflow _ => true
  | _ => false

/-- What fails about numbers fails about values. -/
theorem RunCause.isOfValues_of_isOfNumbers
    {cause : RunCause}
    (ofNumbers : cause.isOfNumbers = true) :
    cause.isOfValues = true := by
  cases cause with
  | zeroDivision | overflow =>
      rfl
  | _ =>
      cases ofNumbers

namespace ArithmeticOperator

/-- A result that does not fit fails about numbers. -/
theorem isOfNumbers_of_fit
    {operator : ArithmeticOperator}
    {left right : Number}
    {result : Option Int}
    {cause : RunCause}
    (fails : operator.fit left right result = .error cause) :
    cause.isOfNumbers = true := by
  unfold fit at fails
  split at fails
  · cases fails
  · cases fails
    rfl

/-- A negative power fails about numbers. -/
theorem isOfNumbers_of_inversePower
    {base exponent : Number}
    {cause : RunCause}
    (fails : inversePower base exponent = .error cause) :
    cause.isOfNumbers = true := by
  unfold inversePower at fails
  split at fails
  · cases fails
    rfl
  · split at fails
    · cases fails
    · split at fails
      · cases fails
      · cases fails

/-- Arithmetic on two numbers fails about numbers only. -/
theorem isOfNumbers_of_calculate
    {operator : ArithmeticOperator}
    {left right : Number}
    {cause : RunCause}
    (fails : operator.calculate left right = .error cause) :
    cause.isOfNumbers = true := by
  cases operator with
  | add | subtract | multiply =>
      exact isOfNumbers_of_fit fails
  | divide =>
      simp only [calculate] at fails
      split at fails
      · cases fails
        rfl
      · exact isOfNumbers_of_fit fails
  | remainder =>
      simp only [calculate] at fails
      split at fails
      · cases fails
        rfl
      · rcases bind_eq_error fails with noQuotient | ⟨_, _, noRemainder⟩
        · exact isOfNumbers_of_fit noQuotient
        · exact isOfNumbers_of_fit noRemainder
  | power =>
      simp only [calculate] at fails
      split at fails
      · exact isOfNumbers_of_inversePower fails
      · exact isOfNumbers_of_fit fails

end ArithmeticOperator

/-- A comparison fails about values only. -/
theorem BooleanOperator.isOfValues_of_compare
    {operator : BooleanOperator}
    {left right : Value}
    {cause : RunCause}
    (fails : operator.compare left right = .error cause) :
    cause.isOfValues = true := by
  unfold compare at fails
  split at fails
  · split at fails
    · cases fails
    · cases fails
    · cases fails
      rfl
  · split at fails
    · cases fails
    · cases fails
      rfl

namespace Scope

variable {scope : Scope}

/--
Checking the arguments of a call reports all that checking one of them does.
-/
theorem check_subset_checkArguments
    {function : Builtin}
    {index : Nat}
    {kinds : List ValueKind}
    {arguments : List Node}
    (arity : arguments.length = kinds.length) :
    ∀ argument ∈ arguments,
      scope.check argument ⊆
        scope.checkArguments function index kinds arguments := by
  induction arguments generalizing index kinds with
  | nil =>
      intro argument member
      cases member
  | cons first rest inductionHypothesis =>
      cases kinds with
      | nil =>
          cases arity
      | cons expected others =>
          intro argument member finding found
          simp only [checkArguments, List.mem_append]
          rcases List.mem_cons.mp member with rfl | inRest
          · exact .inl (.inl found)
          · exact .inr
              (inductionHypothesis (Nat.succ.inj arity) argument inRest found)

/-- Checking an expression checks its operands. -/
theorem check_subset_of_operand
    {node operand : Node}
    (clean : Clean (scope.check node))
    (member : operand ∈ node.operands) :
    scope.check operand ⊆ scope.check node := by
  intro finding found
  cases node with
  | call function arguments location =>
      unfold check at clean ⊢
      split at clean
      · rename_i arity
        rw [if_pos arity]
        exact check_subset_checkArguments arity operand member found
      · exact absurd clean (not_clean_error _ _)
  | arithmetic operator left right location =>
      simp only [check, List.mem_append]
      simp only [Node.operands, List.mem_cons, List.not_mem_nil,
        or_false] at member
      rcases member with rfl | rfl
      · exact .inl (.inl (.inl found))
      · exact .inl (.inl (.inr found))
  | boolean operator left right location =>
      simp only [check, List.mem_append]
      simp only [Node.operands, List.mem_cons, List.not_mem_nil,
        or_false] at member
      rcases member with rfl | rfl
      · exact .inl (.inl found)
      · exact .inl (.inr found)
  | _ =>
      cases member

/-- An expression without errors has operands without errors. -/
theorem clean_operand
    {node operand : Node}
    (clean : Clean (scope.check node))
    (member : operand ∈ node.operands) :
    Clean (scope.check operand) :=
  fun finding found =>
    clean finding (check_subset_of_operand clean member found)

/-- An expression that was checked without errors fails only on values. -/
theorem isOfValues_of_evaluate
    {moment : Moment}
    (named : moment.Named)
    {node : Node}
    {error : RunError}
    (clean : Clean (scope.check node))
    (fails : moment.evaluate node = .error error) :
    error.cause.isOfValues = true := by
  induction node using Node.operandInduction with
  | step node inductionHypothesis =>
      cases Moment.evaluate_error fails with
      | operand member inside =>
          exact inductionHypothesis _ member (clean_operand clean member) inside
      | text unnamed =>
          simp [check, unnamed] at clean
      | read | instruction | argument | operands =>
          rfl
      | label =>
          simp [check] at clean
      | arity wrong =>
          simp [check, wrong] at clean
      | color member evaluated unnamed =>
          -- Strings are exact names, so they are names in any case.
          have isName := Moment.isNamed_of_evaluate named evaluated _ rfl
          have found := Color.ofAnyCase?_of_ofName? isName
          rw [unnamed] at found
          cases found
      | calculation _ _ wrong =>
          exact RunCause.isOfValues_of_isOfNumbers
            (ArithmeticOperator.isOfNumbers_of_calculate wrong)
      | comparison _ _ _ wrong =>
          exact BooleanOperator.isOfValues_of_compare wrong

/-- The same holds where the expression has to give a number. -/
theorem isOfValues_of_evaluateInt
    {moment : Moment}
    (named : moment.Named)
    {node : Node}
    {error : RunError}
    (clean : Clean (scope.check node))
    (fails : moment.evaluateInt node = .error error) :
    error.cause.isOfValues = true := by
  unfold Moment.evaluateInt at fails
  rcases bind_eq_error fails with inside | ⟨value, evaluated, afterValue⟩
  · exact isOfValues_of_evaluate named clean inside
  · cases value with
    | int number =>
        cases afterValue
    | string | bool =>
        cases afterValue
        rfl

end Scope

namespace Node

/-- The arguments of a drawing command. -/
def drawArguments : Node → List Node
  | .draw _ arguments _ => arguments
  | _ => []

/-- The instruction that floods. -/
def isFill : Node → Bool
  | .fill _ => true
  | _ => false

/--
The causes for which an instruction may fail after validation.  Directions,
distances and extents may be wrong only where they are not literals.
-/
def mayFailWith (node : Node) : RunCause → Bool
  | .unknownLabel _ | .invalidBrushSize _ | .invalidColor _ | .noMoment _ =>
      false
  | .badArgument (.drawArity _ _) | .badArgument (.callArity _ _) => false
  | .outOfBounds _ _ _ | .transparentFill => node.isFill
  | .invalidDirection _ _ =>
      (node.drawArguments.take 2).any (·.literal?.isNone)
  | .badArgument (.distance _ _) =>
      ((node.drawArguments.drop 2).take 1).any (·.literal?.isNone)
  | .badArgument (.extent _ _) =>
      (node.drawArguments.drop 3).any (·.literal?.isNone)
  | .undefinedVariable _ | .kindMismatch _ | .zeroDivision _ | .overflow _
  | .stepLimit _ => true

/-- Every instruction may fail about values. -/
theorem mayFailWith_of_isOfValues
    (node : Node)
    {cause : RunCause}
    (ofValues : cause.isOfValues = true) :
    node.mayFailWith cause = true := by
  cases cause with
  | undefinedVariable | kindMismatch | zeroDivision | overflow =>
      rfl
  | _ =>
      cases ofValues

end Node

namespace Outlook

section Draw

variable
  {moment : Moment}
  {command : DrawCommand}
  {node : Node}
  {value : Number}

/-- What would be refused as a literal is not a literal. -/
theorem literal?_eq_none
    (evaluated : moment.evaluateInt node = .ok value)
    (refused : node.literal? ≠ some value) :
    node.literal? = none := by
  cases isLiteral : node.literal? with
  | none =>
      rfl
  | some literal =>
      rw [evaluateInt_of_literal isLiteral evaluated] at refused
      exact absurd isLiteral refused

/-- A literal direction that was checked is a direction. -/
theorem literal?_of_undirected
    {location : Location}
    (clean : Clean (checkDirection command node location))
    (evaluated : moment.evaluateInt node = .ok value)
    (undirected : Number.isDirection value = false) :
    node.literal? = none := by
  apply literal?_eq_none evaluated
  intro isLiteral
  simp [checkDirection, isLiteral, undirected] at clean

/-- A literal distance that was checked is long enough. -/
theorem literal?_of_short
    (clean : Clean (checkDistance command node))
    (evaluated : moment.evaluateInt node = .ok value)
    (short : value.toInt < (Action.leastDistance command).toInt) :
    node.literal? = none := by
  apply literal?_eq_none evaluated
  intro isLiteral
  cases command with
  | line | rectangle =>
      have negative : value.toInt < 0 := short
      simp [checkDistance, isLiteral, negative] at clean
  | circle =>
      have notPositive : value.toInt ≤ 0 := Int.lt_add_one_iff.mp short
      simp [checkDistance, isLiteral, notPositive] at clean

/-- A literal extent that was checked is positive. -/
theorem literal?_of_flat
    (clean : Clean (checkExtent node))
    (evaluated : moment.evaluateInt node = .ok value)
    (flat : value.toInt ≤ 0) :
    node.literal? = none := by
  apply literal?_eq_none evaluated
  intro isLiteral
  simp [checkExtent, isLiteral, flat] at clean

/-- An argument that is no literal is seen among the arguments. -/
theorem any_of_not_literal
    {nodes : List Node}
    (member : node ∈ nodes)
    (notLiteral : node.literal? = none) :
    nodes.any (·.literal?.isNone) = true :=
  List.any_eq_true.mpr ⟨node, member, Option.isNone_iff_eq_none.mpr notLiteral⟩

/-- What a drawing command without errors was checked for. -/
structure DrawChecked
    (scope : Scope)
    (command : DrawCommand)
    (nodes : List Node)
    (location : Location) :
    Prop where
  arity : nodes.length = command.arity
  arguments : ∀ node ∈ nodes, Clean (scope.check node)
  directions :
    ∀ node ∈ nodes.take 2, Clean (checkDirection command node location)
  distance : ∀ node ∈ (nodes.drop 2).take 1, Clean (checkDistance command node)
  extents : ∀ node ∈ nodes.drop 3, Clean (checkExtent node)

/--
Checking the arguments of a draw command reports all that checking one of them
does.
-/
theorem check_subset_checkDrawArguments
    {scope : Scope}
    {index : Nat}
    {nodes : List Node} :
    ∀ node ∈ nodes,
      scope.check node ⊆ checkDrawArguments scope command index nodes := by
  induction nodes generalizing index with
  | nil =>
      intro node member
      cases member
  | cons first rest inductionHypothesis =>
      intro node member finding found
      simp only [checkDrawArguments, List.mem_append]
      rcases List.mem_cons.mp member with rfl | inRest
      · exact .inl (.inl found)
      · exact .inr (inductionHypothesis node inRest found)

/--
A draw command without errors was checked for its arity and in all its
arguments.
-/
theorem drawChecked
    {outlook : Outlook}
    {nodes : List Node}
    {location : Location}
    (clean : Clean (outlook.checkDraw command nodes location).findings) :
    DrawChecked outlook.scope command nodes location := by
  by_cases arity : nodes.length = command.arity
  · obtain ⟨nodeY, nodeX, nodeDistance, extents, rfl, checked⟩ :=
      checkDraw_of_arity outlook location arity
    rw [checked] at clean
    simp only [checkMove, place, report, clean_append_iff] at clean
    obtain ⟨_,
      ⟨⟨⟨⟨cleanArguments, cleanY⟩, cleanX⟩, cleanDistance⟩, cleanExtents⟩, _⟩ :=
      clean
    exact
      { arity
        arguments := by
          intro node member finding found
          exact cleanArguments finding
            (check_subset_checkDrawArguments node member found)
        directions := by
          simpa using ⟨cleanY, cleanX⟩
        distance := by
          simpa using cleanDistance
        extents := by
          intro node member finding found
          exact cleanExtents finding
            (List.mem_flatMap.mpr ⟨node, member, found⟩) }
  · have noShape :
        outlook.checkDraw command nodes location =
          (outlook.report
            [.error (.drawArity command nodes.length) location]).place
              none := by
      unfold checkDraw
      split
      iterate 3 exact absurd rfl arity
      rfl
    rw [noShape] at clean
    simp [place, report] at clean

end Draw

variable
  {outlook : Outlook}
  {program : Program}
  {index : Nat}
  {node : Node}
  {moment : Moment}
  {error : RunError}

/--
An instruction that was checked without errors fails only in the allowed ways.
-/
theorem mayFailWith_of_fails
    (clean : Clean (outlook.check program index node).findings)
    (side : outlook.size = moment.canvas.size)
    (named : moment.Named)
    (fails : Action.Fails program moment node error) :
    node.mayFailWith error.cause = true := by
  cases fails with
  | spawn outside =>
      rw [← side] at outside
      simp [check, checkSpawn, outside, place, report] at clean
  | setColor unnamed =>
      simp [check, checkColor, unnamed, dye, report] at clean
  | setSize refused =>
      simp [check, checkSize, refused, report] at clean
  | drawArity wrong =>
      exact absurd (drawChecked clean).arity wrong
  | drawArgument member inside =>
      apply Node.mayFailWith_of_isOfValues
      exact Scope.isOfValues_of_evaluateInt named
        ((drawChecked clean).arguments _ member) inside
  | direction arguments undirected =>
      obtain ⟨nodeY, nodeX, _, _, rfl, evaluatedY, evaluatedX, _⟩ :=
        arguments.first_three
      have cleanDirections := (drawChecked clean).directions
      rcases undirected with wrongX | wrongY
      · have notLiteral :=
          literal?_of_undirected (cleanDirections nodeX (by simp))
            evaluatedX wrongX
        exact any_of_not_literal (by simp [Node.drawArguments]) notLiteral
      · have notLiteral :=
          literal?_of_undirected (cleanDirections nodeY (by simp))
            evaluatedY wrongY
        exact any_of_not_literal (by simp [Node.drawArguments]) notLiteral
  | distance arguments short =>
      obtain ⟨_, _, nodeDistance, _, rfl, _, _, evaluated, _⟩ :=
        arguments.first_three
      have cleanDistance := (drawChecked clean).distance nodeDistance (by simp)
      have notLiteral := literal?_of_short cleanDistance evaluated short
      exact any_of_not_literal (by simp [Node.drawArguments]) notLiteral
  | movement =>
      rfl
  | @extent nodes location _ _ _ width height arguments flat =>
      obtain ⟨_, _, _, rest, rfl, _, _, _, evaluated⟩ := arguments.first_three
      have cleanExtents := (drawChecked clean).extents
      cases evaluated with
      | @cons nodeWidth _ _ _ evaluatedWidth afterWidth =>
          cases afterWidth with
          | @cons nodeHeight _ _ _ evaluatedHeight _ =>
              rcases flat with flatWidth | flatHeight
              · have notLiteral :=
                  literal?_of_flat (cleanExtents nodeWidth (by simp))
                    evaluatedWidth flatWidth
                exact any_of_not_literal
                  (by simp [Node.drawArguments]) notLiteral
              · have notLiteral :=
                  literal?_of_flat (cleanExtents nodeHeight (by simp))
                    evaluatedHeight flatHeight
                exact any_of_not_literal
                  (by simp [Node.drawArguments]) notLiteral
  | transparentFill | fillOutside =>
      rfl
  | assign inside =>
      apply Node.mayFailWith_of_isOfValues
      simp only [check, report, clean_append_iff] at clean
      exact Scope.isOfValues_of_evaluate named clean.2 inside
  | condition inside =>
      apply Node.mayFailWith_of_isOfValues
      simp only [check, checkGoTo, report, clean_append_iff] at clean
      exact Scope.isOfValues_of_evaluate named clean.2.1.1.1.2 inside
  | undeclared _ _ missing =>
      simp only [check, checkGoTo, missing, report, clean_append_iff] at clean
      exact absurd clean.2.1.1.1.1 (not_clean_error _ _)
  | expression bare inside =>
      apply Node.mayFailWith_of_isOfValues
      cases node with
      | call | arithmetic | boolean | read | number | text =>
          simp only [check, report, clean_append_iff] at clean
          exact Scope.isOfValues_of_evaluate named clean.2 inside
      | _ =>
          cases bare

end Outlook

namespace Machine

/--
A run of a program that was validated without errors fails, if at all, at an
instruction and for a cause that `Node.mayFailWith` allows it.
-/
theorem mayFailWith_of_run
    {program : Program}
    {size stepLimit : Nat}
    {budget : Option Nat}
    {error : RunError}
    (valid : (program.validate size).errors = [])
    (fails : (load program size stepLimit budget).run.2 = .error error) :
    ∃ index node,
      (load program size stepLimit budget).run.1.failed = some index ∧
        program[index]? = some node ∧
        node.mayFailWith error.cause = true := by
  obtain ⟨last, final, result, passed, ended, whole⟩ :=
    run_spec (load program size stepLimit budget)
  obtain ⟨rfl, side, named⟩ := passed.preserves running_turn (running_load ..)
  rw [whole] at fails ⊢
  cases fails
  have spec := turn_spec last
  rw [ended] at spec
  cases spec with
  | @exhausted node found spent =>
      exact ⟨last.moment.next, node, rfl, found, rfl⟩
  | @failed node _ after found below failed =>
      obtain ⟨failure, _⟩ := Action.execute_error failed
      have sameSide :
          (Outlook.before last.program size last.moment.next).size =
            (Action.opened last.moment node).canvas.size :=
        (Outlook.size_before ..).trans side.symm
      have allowed :=
        Outlook.mayFailWith_of_fails (Outlook.clean_check valid found) sameSide
          named failure
      exact ⟨last.moment.next, node, rfl, found, allowed⟩

/-- A variable direction passes validation and is found wrong in the run. -/
theorem mayFailWith_of_run_variable :
    let program : Program :=
      [.spawn 0 0 ⟨1, 1⟩,
        .assign "step" (.number 2 ⟨2, 9⟩) ⟨2, 1⟩,
        .draw .line
          [.read "step" ⟨3, 10⟩, .number 0 ⟨3, 16⟩, .number 1 ⟨3, 19⟩] ⟨3, 1⟩]
    let error : RunError := ⟨.invalidDirection 0 2, ⟨3, 1⟩⟩
    (program.validate 4).errors = [] ∧
      (load program 4 10 none).run.2 = .error error ∧
      ∃ index node,
        (load program 4 10 none).run.1.failed = some index ∧
          program[index]? = some node ∧
          node.mayFailWith error.cause = true := by
  intro program error
  have valid : (program.validate 4).errors = [] := by decide
  have fails : (load program 4 10 none).run.2 = .error error := by
    decide +kernel
  exact ⟨valid, fails, mayFailWith_of_run valid fails⟩

end Machine

end PixelBrush
