import PixelBrush.Proofs.DrawnLines
import PixelBrush.Proofs.Warnings

namespace PixelBrush

/-!
# Conditions that never change

An expression that is not dynamic is built from literals and operators alone, so
its value, or the error that keeps it from having one, is the same in every
moment.  The backward jumps that validation warns about have such a condition,
and their label is declared.  Each of them does the same thing every time: it
jumps, goes on with the next instruction or fails.
-/

namespace Moment

/--
What is not dynamic has the same value, or fails with the same error, in all
moments.
-/
theorem evaluate_eq_of_static
    {node : Node}
    (static : node.isDynamic = false)
    (first second : Moment) :
    first.evaluate node = second.evaluate node := by
  induction node using Node.operandInduction with
  | step node inductionHypothesis =>
      cases node with
      | read | call =>
          cases static
      | arithmetic operator left right location =>
          obtain ⟨staticLeft, staticRight⟩ := Bool.or_eq_false_iff.mp static
          rw [evaluate, evaluate,
            inductionHypothesis left (by simp [Node.operands]) staticLeft,
            inductionHypothesis right (by simp [Node.operands]) staticRight]
      | boolean operator left right location =>
          obtain ⟨staticLeft, staticRight⟩ := Bool.or_eq_false_iff.mp static
          have sameLeft :=
            inductionHypothesis left (by simp [Node.operands]) staticLeft
          have sameRight :=
            inductionHypothesis right (by simp [Node.operands]) staticRight
          cases operator with
          | _ =>
              simp only [evaluate, sameLeft, sameRight]
      | number | text | label | spawn | setColor | setSize | draw | fill
      | assign | goTo =>
          rfl

end Moment

/-! ## What a jump does -/

namespace Action

variable
  {program : Program}
  {label : String}
  {condition : Node}
  {location : Location}

/-- An instruction that fails when it is performed fails when it is executed. -/
theorem execute_of_perform_error
    {node : Node}
    {moment after : Moment}
    {error : RunError}
    (performed :
      perform program node (opened moment node) = .error error after) :
    execute program node moment =
      .error error (changeCanvas after Canvas.rollback) := by
  unfold execute
  rw [opened] at performed
  dsimp only
  rw [performed]

section Jumps

variable
  {moment : Moment}
  {value : Value}
  (evaluated : moment.evaluate condition = .ok value)

include evaluated

/-- A jump whose condition is true goes past its label. -/
theorem goTo_of_isTrue
    {target : Nat}
    (isTrue : value.isTrue = true)
    (declared : program.labelIndex? label = some target) :
    goTo program label condition location moment =
      .ok (.jump target) moment := by
  rw [goTo, bind_of_ok (reading_of_ok evaluated), if_pos isTrue, declared]
  rfl

/-- A jump whose condition is not true goes on with the next instruction. -/
theorem goTo_of_not_isTrue
    (untrue : ¬ value.isTrue = true) :
    goTo program label condition location moment = .ok .next moment := by
  rw [goTo, bind_of_ok (reading_of_ok evaluated), if_neg untrue]
  rfl

end Jumps

/-- A jump fails as its condition fails, and leaves the moment as it was. -/
theorem goTo_of_error
    {moment : Moment}
    {error : RunError}
    (evaluated : moment.evaluate condition = .error error) :
    goTo program label condition location moment = .error error moment :=
  bind_of_error (reading_of_error evaluated) _

/--
A jump whose condition comes to the same in all moments, to a label that is
declared, does the same in all moments.
-/
theorem execute_constant_goTo
    {target : Nat}
    (declared : program.labelIndex? label = some target)
    (constant :
      ∀ first second : Moment,
        first.evaluate condition = second.evaluate condition) :
    (∀ moment, ∃ after,
        execute program (.goTo label condition location) moment =
          .ok (.jump target) after) ∨
      (∀ moment, ∃ after,
        execute program (.goTo label condition location) moment =
          .ok .next after) ∨
      ∃ error, ∀ moment, ∃ after,
        execute program (.goTo label condition location) moment =
          .error error after := by
  -- The case is settled by the value in any one moment.
  cases settled : (Moment.initial 0).evaluate condition with
  | error error =>
      have everywhere (moment : Moment) :
          moment.evaluate condition = .error error :=
        (constant moment _).trans settled
      refine .inr (.inr ⟨error, fun moment => ?_⟩)
      exact ⟨_, execute_of_perform_error (goTo_of_error (everywhere _))⟩
  | ok value =>
      have everywhere (moment : Moment) :
          moment.evaluate condition = .ok value :=
        (constant moment _).trans settled
      by_cases isTrue : value.isTrue = true
      · refine .inl fun moment => ?_
        exact ⟨_,
          execute_of_perform (goTo_of_isTrue (everywhere _) isTrue declared)⟩
      · refine .inr (.inl fun moment => ?_)
        exact ⟨_, execute_of_perform (goTo_of_not_isTrue (everywhere _) isTrue)⟩

end Action

/-! ## What validation warns about -/

/-- The warning about a backward jump whose condition never changes. -/
def Diagnostic.isEndless (diagnostic : Diagnostic) : Bool :=
  match diagnostic.finding with
  | .warning (.endlessJump _) => true
  | _ => false

/-- Checks that only find errors do not find endless jumps. -/
theorem OnlyErrors.any_isEndless
    {findings : List Diagnostic}
    (only : OnlyErrors findings) :
    findings.any Diagnostic.isEndless = false := by
  rw [List.any_eq_false]
  rintro ⟨finding, location⟩ member
  have isError := only _ member
  cases finding with
  | error cause =>
      exact Bool.false_ne_true
  | warning cause =>
      cases isError

namespace Scope

variable
  {scope : Scope}
  {arguments : List Node}

/--
Checking arguments warns of no endless jump if checking each of them does not.
-/
theorem any_isEndless_checkArguments
    {function : Builtin}
    {index : Nat}
    {kinds : List ValueKind}
    (each :
      ∀ argument ∈ arguments,
        (scope.check argument).any Diagnostic.isEndless = false) :
    (scope.checkArguments function index kinds arguments).any
      Diagnostic.isEndless = false := by
  induction arguments generalizing index kinds with
  | nil =>
      rw [checkArguments]
      · rfl
      · intro _ _ _ _ _ impossible
        cases impossible
  | cons argument rest inductionHypothesis =>
      cases kinds with
      | nil =>
          rfl
      | cons expected others =>
          obtain ⟨ofFirst, ofRest⟩ := List.forall_mem_cons.mp each
          simp only [checkArguments, List.any_append, ofFirst,
            inductionHypothesis ofRest, Bool.false_or, Bool.or_false]
          split
          · split <;> rfl
          · rfl

/-- Checking an expression never finds an endless jump. -/
theorem any_isEndless_check
    (scope : Scope)
    (node : Node) :
    (scope.check node).any Diagnostic.isEndless = false := by
  induction node using Node.operandInduction with
  | step node inductionHypothesis =>
      cases node with
      | text | read =>
          rw [check]
          split <;> rfl
      | call function arguments location =>
          rw [check]
          split
          · exact any_isEndless_checkArguments inductionHypothesis
          · rfl
      | arithmetic operator left right location =>
          simp only [check, List.any_append,
            inductionHypothesis left (by simp [Node.operands]),
            inductionHypothesis right (by simp [Node.operands]),
            (OnlyErrors.checkOperand scope operator _ location).any_isEndless,
            Bool.or_self]
      | boolean operator left right location =>
          simp only [check, List.any_append,
            inductionHypothesis left (by simp [Node.operands]),
            inductionHypothesis right (by simp [Node.operands]), Bool.false_or]
          split
          · rfl
          · exact (OnlyErrors.checkComparison scope operator left right
              location).any_isEndless
      | label | spawn | setColor | setSize | draw | fill | assign | goTo
      | number =>
          rfl

end Scope

namespace Program

/-- Checking the instruction at an index adds a finding. -/
def Flags
    (program : Program)
    (size index : Nat)
    (diagnostic : Diagnostic) :
    Prop :=
  ∃ added,
    (Outlook.before program size (index + 1)).findings =
        (Outlook.before program size index).findings ++ added ∧
      diagnostic ∈ added

/-- Checking a jump finds it endless, if at all, after everything else. -/
theorem exists_findings_goTo
    {program : Program}
    (size : Nat)
    {index : Nat}
    {label : String}
    {condition : Node}
    {location : Location}
    (found : program[index]? = some (.goTo label condition location)) :
    ∃ others,
      others.any Diagnostic.isEndless = false ∧
        (Outlook.before program size (index + 1)).findings =
          (Outlook.before program size index).findings ++
            (others ++
              if (program.labelIndex? label).any (· < index) &&
                  !condition.isDynamic then
                [.warning (.endlessJump label) location]
              else
                []) := by
  rw [Outlook.before_succ found]
  refine ⟨_, ?_, rfl⟩
  simp only [List.any_append, Scope.any_isEndless_check, Bool.or_false]
  rw [Bool.or_eq_false_iff, Bool.or_eq_false_iff]
  refine ⟨⟨?_, ?_⟩, ?_⟩
  · split <;> rfl
  · split <;> rfl
  · split <;> rfl

/--
Validation warns about a jump back to a label under a condition that is not
dynamic.
-/
theorem flags_endlessJump_iff
    {program : Program}
    {size index : Nat}
    {label : String}
    {condition : Node}
    {location : Location}
    (found : program[index]? = some (.goTo label condition location)) :
    program.Flags size index (.warning (.endlessJump label) location) ↔
      (∃ target, program.labelIndex? label = some target ∧ target < index) ∧
        condition.isDynamic = false := by
  obtain ⟨others, noOther, findings⟩ := exists_findings_goTo size found
  have suspicious :
      ((program.labelIndex? label).any (· < index) && !condition.isDynamic) =
        true ↔
        (∃ target, program.labelIndex? label = some target ∧ target < index) ∧
          condition.isDynamic = false := by
    simp [Option.any_eq_true]
  rw [← suspicious]
  constructor
  · rintro ⟨added, shape, member⟩
    rw [findings] at shape
    rw [← List.append_cancel_left shape, List.mem_append] at member
    rcases member with inOthers | last
    · exact absurd rfl (List.any_eq_false.mp noOther _ inOthers)
    · split at last
      · assumption
      · cases last
  · intro flagged
    rw [if_pos flagged] at findings
    exact ⟨_, findings, by simp⟩

end Program

/--
What is not dynamic evaluates alike in all moments.  So a jump that validation
flags as a backward jump with such a condition jumps, goes on or fails every
time.
-/
theorem constant_conditions_never_change :
    (∀ node : Node, node.isDynamic = false →
      ∀ first second : Moment, first.evaluate node = second.evaluate node) ∧
    ∀ (program : Program) (size index : Nat) (label : String) (condition : Node)
      (location : Location),
      program[index]? = some (.goTo label condition location) →
      program.Flags size index (.warning (.endlessJump label) location) →
      ∃ target, program.labelIndex? label = some target ∧ target < index ∧
        ((∀ moment, ∃ after,
            Action.execute program (.goTo label condition location) moment =
              .ok (.jump target) after) ∨
          (∀ moment, ∃ after,
            Action.execute program (.goTo label condition location) moment =
              .ok .next after) ∨
          ∃ error, ∀ moment, ∃ after,
            Action.execute program (.goTo label condition location) moment =
              .error error after) := by
  refine ⟨fun node static => Moment.evaluate_eq_of_static static, ?_⟩
  intro program size index label condition location found flagged
  obtain ⟨⟨target, declared, backward⟩, static⟩ :=
    (Program.flags_endlessJump_iff found).mp flagged
  exact ⟨target, declared, backward,
    Action.execute_constant_goTo declared (Moment.evaluate_eq_of_static static)⟩

/--
A jump back on a false comparison and a quotient by zero is flagged.  It goes on
with the next instruction every time, since the quotient is never calculated.
-/
theorem constant_conditions_never_change_short_circuit :
    let place := Location.start
    let number (value : Number) := Node.number value place
    let quotient := Node.arithmetic .divide (number 1) (number 0) place
    let condition :=
      Node.boolean .and (.boolean .less (number 2) (number 1) place)
        (.boolean .equal quotient (number 1) place) place
    let jump := Node.goTo "again" condition place
    let program : Program := [.spawn 0 0 place, .label "again" place, jump]
    condition.isDynamic = false ∧
      program.Flags 1 2 (.warning (.endlessJump "again") place) ∧
      ∀ moment, ∃ after,
        Action.execute program jump moment = .ok .next after := by
  intro place number quotient condition jump program
  have flagged : program.Flags 1 2 (.warning (.endlessJump "again") place) :=
    (Program.flags_endlessJump_iff rfl).mpr ⟨⟨1, by decide, by decide⟩, rfl⟩
  have once :
      ∃ after,
        Action.execute program jump (Moment.initial 1) = .ok .next after :=
    ⟨_, rfl⟩
  obtain ⟨_, performed⟩ := once
  obtain ⟨target, _, _, jumps | goesOn | ⟨error, fails⟩⟩ :=
    constant_conditions_never_change.2 program 1 2 "again" condition
      place rfl flagged
  · obtain ⟨_, jumped⟩ := jumps (Moment.initial 1)
    rw [performed] at jumped
    cases jumped
  · exact ⟨rfl, flagged, goesOn⟩
  · obtain ⟨_, failed⟩ := fails (Moment.initial 1)
    rw [performed] at failed
    cases failed

end PixelBrush
