import PixelBrush.Proofs.CompiledPrograms
import PixelBrush.Proofs.ValidatedRuns

namespace PixelBrush

/-!
# Kinds are sound where nothing jumps

Validation gives kinds to variables in program order.  A run without jumps goes
through the program in the same order, so the scope before an instruction tells
which variables are bound there and what kinds of value they have.  Then no
operand, argument or comparison has a wrong kind, and a variable is found
unbound only where validation has warned that it is read before it is assigned.
-/

/--
Every bound name has its kind in the scope, and every declared name is bound.
-/
structure Scope.Describes (scope : Scope) (bindings : Table Value) : Prop where
  kinds :
    ∀ name value,
      bindings.get? name = some value →
      scope.kinds.get? name = some value.kind
  declared :
    ∀ name,
      scope.declared.contains name = true →
      (bindings.get? name).isSome = true

/--
An error that is not about kinds, and about a name only with a warning at its
place.
-/
structure RunError.IsAnnounced
    (error : RunError)
    (findings : List Diagnostic) :
    Prop where
  kinds : ∀ mismatch, error.cause ≠ .kindMismatch mismatch
  names :
    ∀ name,
      error.cause = .undefinedVariable name →
      Diagnostic.warning (.readBeforeAssigned name) error.location ∈ findings

namespace RunError.IsAnnounced

variable {error : RunError}

/-- An error that some diagnostics announce is announced by more of them. -/
theorem mono
    {findings more : List Diagnostic}
    (announced : error.IsAnnounced findings)
    (among : findings ⊆ more) :
    error.IsAnnounced more where
  kinds := announced.kinds
  names := fun name unbound => among (announced.names name unbound)

/-- Errors that are neither about kinds nor about names need no warning. -/
theorem of_other
    (notKind : ∀ mismatch, error.cause ≠ .kindMismatch mismatch)
    (notName : ∀ name, error.cause ≠ .undefinedVariable name)
    (findings : List Diagnostic) :
    error.IsAnnounced findings where
  kinds := notKind
  names := fun name unbound => absurd unbound (notName name)

/-- An error about numbers needs no warning. -/
theorem of_isOfNumbers
    (ofNumbers : error.cause.isOfNumbers = true)
    (findings : List Diagnostic) :
    error.IsAnnounced findings := by
  apply of_other
  · intro mismatch same
    rw [same] at ofNumbers
    cases ofNumbers
  · intro name same
    rw [same] at ofNumbers
    cases ofNumbers

end RunError.IsAnnounced

namespace Scope

/-! ## What the checks of kinds exclude -/

variable {scope : Scope}

/-- A checked argument whose kind is known has the kind of its parameter. -/
theorem kind_of_clean_checkArguments
    {function : Builtin}
    {index : Nat}
    {kinds : List ValueKind}
    {arguments : List Node}
    (clean : Clean (scope.checkArguments function index kinds arguments))
    {expected got : ValueKind}
    {argument : Node}
    (listed : (expected, argument) ∈ kinds.zip arguments)
    (known : scope.kindOf? argument = some got) :
    got = expected := by
  induction arguments generalizing index kinds with
  | nil =>
      rw [List.zip_nil_right] at listed
      cases listed
  | cons first rest inductionHypothesis =>
      cases kinds with
      | nil =>
          cases listed
      | cons parameter others =>
          simp only [checkArguments, clean_append_iff] at clean
          rw [List.zip_cons_cons] at listed
          rcases List.mem_cons.mp listed with here | inRest
          · cases here
            have fits := clean.1.2
            rw [known] at fits
            by_contra wrong
            simp [wrong] at fits
          · exact inductionHypothesis clean.2 inRest

/-- A checked operand whose kind is known is an integer. -/
theorem kind_of_clean_checkOperand
    {operator : ArithmeticOperator}
    {operand : Node}
    {location : Location}
    {kind : ValueKind}
    (clean : Clean (scope.checkOperand operator operand location))
    (known : scope.kindOf? operand = some kind) :
    kind = .int := by
  cases kind with
  | int =>
      rfl
  | string | bool =>
      simp [checkOperand, known] at clean

/-- A checked comparison between values of known kinds has an outcome. -/
theorem compare_ne_error
    {operator : BooleanOperator}
    {left right : Node}
    {location : Location}
    {first second : Value}
    (clean : Clean (scope.checkComparison operator left right location))
    (knownLeft : scope.kindOf? left = some first.kind)
    (knownRight : scope.kindOf? right = some second.kind)
    (cause : RunCause) :
    operator.compare first second ≠ .error cause := by
  intro fails
  simp only [checkComparison, knownLeft, knownRight] at clean
  cases first with
  | string firstText =>
      cases second with
      | string secondText =>
          cases operator with
          | equal | unequal =>
              cases fails
          | _ =>
              simp [Value.kind, BooleanOperator.isEquality] at clean
      | int | bool =>
          simp [Value.kind] at clean
  | int | bool =>
      cases second with
      | string secondText =>
          simp [Value.kind] at clean
      | int | bool =>
          cases fails

namespace Describes

variable {moment : Moment}

/-- The empty scope describes a machine without variables. -/
theorem empty :
    Scope.empty.Describes Table.empty where
  kinds := by
    intro name value bound
    cases bound
  declared := by
    intro name declared
    cases declared

/--
The kind of an expression that has a value is known, and is the kind of its
value.
-/
theorem kindOf?
    (describes : scope.Describes moment.bindings)
    {node : Node}
    {value : Value}
    (evaluated : moment.evaluate node = .ok value) :
    scope.kindOf? node = some value.kind := by
  cases node with
  | number number location =>
      cases evaluated
      rfl
  | text name location =>
      unfold Moment.evaluate at evaluated
      split at evaluated
      · cases evaluated
        rfl
      · cases evaluated
  | read name location =>
      unfold Moment.evaluate at evaluated
      split at evaluated
      · rename_i found bound
        cases evaluated
        exact describes.kinds name value bound
      · cases evaluated
  | call function arguments location =>
      rw [Moment.kind_of_evaluate_call evaluated]
      rfl
  | arithmetic operator left right location =>
      rw [Moment.kind_of_evaluate_arithmetic evaluated]
      rfl
  | boolean operator left right location =>
      rw [Moment.kind_of_evaluate_boolean evaluated]
      rfl
  | spawn | setColor | setSize | draw | fill | assign | label | goTo =>
      cases evaluated

/-- An assignment brings the scope up to date. -/
theorem assign
    (describes : scope.Describes moment.bindings)
    {node : Node}
    {value : Value}
    (evaluated : moment.evaluate node = .ok value)
    (name : String) :
    (scope.assign name node).Describes (moment.bindings.set name value) where
  kinds := by
    intro other found bound
    simp only [Scope.assign, describes.kindOf? evaluated]
    rw [Table.get?_set] at bound ⊢
    split at bound
    · rename_i same
      cases bound
      rw [if_pos same]
    · rename_i different
      rw [if_neg different]
      exact describes.kinds other found bound
  declared := by
    intro other declared
    simp only [Scope.assign, List.contains_cons, Bool.or_eq_true] at declared
    rw [Table.get?_set]
    split
    · rfl
    · rename_i different
      exact describes.declared other (declared.resolve_left different)

/--
An expression that was checked without errors fails only with an announced
error.
-/
theorem isAnnounced_of_evaluate
    (describes : scope.Describes moment.bindings)
    {node : Node}
    {error : RunError}
    (isExpression : node.IsExpression)
    (clean : Clean (scope.check node))
    (fails : moment.evaluate node = .error error) :
    error.IsAnnounced (scope.check node) := by
  induction node using Node.operandInduction with
  | step node inductionHypothesis =>
      obtain ⟨performedIsLabel, inner⟩ := isExpression
      cases Moment.evaluate_error fails with
      | operand member inside =>
          have announced :=
            inductionHypothesis _ member (inner _ member)
              (clean_operand clean member) inside
          exact announced.mono (check_subset_of_operand clean member)
      | text unnamed =>
          simp [check, unnamed] at clean
      | @read name location unbound =>
          -- Declared names are bound, so this one was not declared and has its
          -- warning.
          have undeclared : ¬ scope.declared.contains name = true := by
            intro declared
            have bound := describes.declared name declared
            rw [unbound] at bound
            cases bound
          refine ⟨by simp, ?_⟩
          intro other same
          cases same
          rw [check, if_neg undeclared]
          exact List.mem_singleton_self _
      | label =>
          simp [check] at clean
      | instruction performed =>
          obtain ⟨name, location, rfl⟩ := performedIsLabel performed
          simp [check] at clean
      | arity wrong =>
          simp [check, wrong] at clean
      | @argument function arguments location expected argument value listed
        evaluated wrong =>
          rw [check] at clean
          split at clean
          · exact absurd
              (kind_of_clean_checkArguments clean listed
                (describes.kindOf? evaluated)) wrong
          · exact absurd clean (not_clean_error _ _)
      | color member evaluated unnamed =>
          exact .of_other (by simp) (by simp) _
      | operands evaluatedLeft evaluatedRight wrong =>
          simp only [check, clean_append_iff] at clean
          have isLeft :=
            kind_of_clean_checkOperand clean.1.2
              (describes.kindOf? evaluatedLeft)
          have isRight :=
            kind_of_clean_checkOperand clean.2
              (describes.kindOf? evaluatedRight)
          rcases wrong with wrongLeft | wrongRight
          · exact absurd isLeft wrongLeft
          · exact absurd isRight wrongRight
      | calculation _ _ refused =>
          exact .of_isOfNumbers
            (ArithmeticOperator.isOfNumbers_of_calculate refused) _
      | comparison evaluatedLeft evaluatedRight relational refused =>
          simp only [check, clean_append_iff, relational, Bool.false_eq_true,
            if_false] at clean
          exact absurd refused
            (compare_ne_error clean.2 (describes.kindOf? evaluatedLeft)
              (describes.kindOf? evaluatedRight) _)

/--
The same holds where the expression has to give a number and is not known not
to.
-/
theorem isAnnounced_of_evaluateInt
    (describes : scope.Describes moment.bindings)
    {node : Node}
    {error : RunError}
    (isExpression : node.IsExpression)
    (clean : Clean (scope.check node))
    (isInt : ∀ kind, scope.kindOf? node = some kind → kind = .int)
    (fails : moment.evaluateInt node = .error error) :
    error.IsAnnounced (scope.check node) := by
  unfold Moment.evaluateInt at fails
  rcases bind_eq_error fails with inside | ⟨value, evaluated, afterValue⟩
  · exact describes.isAnnounced_of_evaluate isExpression clean inside
  · have kind := isInt _ (describes.kindOf? evaluated)
    cases value with
    | int number =>
        cases afterValue
    | string | bool =>
        cases kind

end Describes

end Scope

namespace Outlook

/-! ## Instructions -/

variable
  {outlook : Outlook}
  {program : Program}
  {index : Nat}
  {node : Node}
  {moment : Moment}

/--
A checked argument of a drawing command whose kind is known is an integer.
-/
theorem kind_of_clean_checkDrawArguments
    {scope : Scope}
    {command : DrawCommand}
    {first : Nat}
    {nodes : List Node}
    (clean : Clean (checkDrawArguments scope command first nodes)) :
    ∀ node ∈ nodes,
      ∀ kind,
        scope.kindOf? node = some kind →
        kind = .int := by
  induction nodes generalizing first with
  | nil =>
      intro node member
      cases member
  | cons argument rest inductionHypothesis =>
      simp only [checkDrawArguments, clean_append_iff] at clean
      intro node member kind known
      rcases List.mem_cons.mp member with rfl | inRest
      · have fits := clean.1.2
        rw [known] at fits
        cases kind with
        | int =>
            rfl
        | string | bool =>
            simp at fits
      · exact inductionHypothesis clean.2 node inRest kind known

/-- Checking a draw command reports all that is found in its arguments. -/
theorem checkDrawArguments_subset_checkDraw
    (outlook : Outlook)
    {command : DrawCommand}
    {nodes : List Node}
    {location : Location}
    (arity : nodes.length = command.arity) :
    checkDrawArguments outlook.scope command 1 nodes ⊆
      (outlook.checkDraw command nodes location).findings := by
  obtain ⟨nodeY, nodeX, nodeDistance, extents, rfl, checked⟩ :=
    checkDraw_of_arity outlook location arity
  intro finding found
  rw [checked]
  simp only [checkMove, place, report, List.mem_append]
  exact .inr (.inl (.inl (.inl (.inl (.inl found)))))

/-- Checking an instruction checks the expressions that it evaluates. -/
theorem check_subset_of_mem_expressions
    (clean : Clean (outlook.check program index node).findings)
    {expression : Node}
    (member : expression ∈ node.expressions) :
    outlook.scope.check expression ⊆
      (outlook.check program index node).findings := by
  intro finding found
  cases node with
  | draw command nodes location =>
      have arity := (drawChecked clean).arity
      exact checkDrawArguments_subset_checkDraw outlook arity
        (check_subset_checkDrawArguments expression member found)
  | assign name value location =>
      rw [List.mem_singleton.mp member] at found
      exact List.mem_append_right _ found
  | goTo label condition location =>
      rw [List.mem_singleton.mp member] at found
      simp only [check, checkGoTo, report, List.mem_append]
      exact .inr (.inl (.inl (.inl (.inr found))))
  | call | arithmetic | boolean | read | number | text =>
      rw [List.mem_singleton.mp member] at found
      exact List.mem_append_right _ found
  | spawn | setColor | setSize | fill | label =>
      cases member

/--
An instruction that was checked without errors fails only with an announced
error.
-/
theorem isAnnounced_of_fails
    {error : RunError}
    (fails : Action.Fails program moment node error)
    (describes : outlook.scope.Describes moment.bindings)
    (spelled : node.IsSpelled)
    (clean : Clean (outlook.check program index node).findings) :
    error.IsAnnounced (outlook.check program index node).findings := by
  have ofExpression :
      ∀ expression ∈ node.expressions,
        moment.evaluate expression = .error error →
        error.IsAnnounced (outlook.check program index node).findings := by
    intro expression member inside
    have among := check_subset_of_mem_expressions clean member
    have announced :=
      describes.isAnnounced_of_evaluate (spelled.expressions expression member)
        (fun finding found => clean finding (among found)) inside
    exact announced.mono among
  cases fails with
  | spawn | setColor | setSize | drawArity | direction | distance | movement
  | extent
  | transparentFill | fillOutside | undeclared =>
      exact .of_other (by simp) (by simp) _
  | @drawArgument command nodes location argument _ member inside =>
      have among := check_subset_of_mem_expressions clean member
      have cleanArguments :
          Clean (checkDrawArguments outlook.scope command 1 nodes) := by
        intro finding found
        exact clean finding
          (checkDrawArguments_subset_checkDraw outlook
            (drawChecked clean).arity found)
      have announced :=
        describes.isAnnounced_of_evaluateInt
          (spelled.expressions argument member)
          (fun finding found => clean finding (among found))
          (kind_of_clean_checkDrawArguments cleanArguments argument member)
            inside
      exact announced.mono among
  | assign inside =>
      exact ofExpression _ (List.mem_singleton_self _) inside
  | condition inside =>
      exact ofExpression _ (List.mem_singleton_self _) inside
  | expression bare inside =>
      apply ofExpression node _ inside
      cases node with
      | call | arithmetic | boolean | read | number | text =>
          exact List.mem_singleton_self _
      | _ =>
          cases bare

/-- Only assignments change the scope. -/
theorem scope_check
    (outlook : Outlook)
    (program : Program)
    (index : Nat)
    {node : Node}
    (other : ∀ name value location, node ≠ .assign name value location) :
    (outlook.check program index node).scope = outlook.scope := by
  cases node with
  | spawn x y location =>
      simp only [check, checkSpawn]
      split <;> rfl
  | setColor name location =>
      simp only [check, checkColor]
      split <;> rfl
  | setSize size location =>
      simp only [check, checkSize]
      split
      · rfl
      · split <;> rfl
  | draw command arguments location =>
      simp only [check, checkDraw]
      split <;> rfl
  | fill location =>
      simp only [check]
      split <;> rfl
  | assign name value location =>
      exact absurd rfl (other name value location)
  | label | goTo | call | arithmetic | boolean | read | number | text =>
      rfl

/--
Checking an instruction updates the scope as performing it updates the
variables.
-/
theorem check_describes_scope
    (index : Nat)
    {flow : Flow}
    {after : Moment}
    (succeeds : Action.Succeeds program moment node flow after)
    (describes : outlook.scope.Describes moment.bindings) :
    (outlook.check program index node).scope.Describes after.bindings := by
  cases succeeds with
  | assign evaluated =>
      exact describes.assign evaluated _
  | draw =>
      rw [scope_check outlook program index (by simp)]
      simp only [Moment.painted]
      split <;> exact describes
  | expression bare evaluated =>
      rw [scope_check]
      · exact describes
      · rintro name value location rfl
        cases bare
  | spawn | setColor | setSize | fill | label | stay | jump =>
      rw [scope_check outlook program index (by simp)]
      exact describes

end Outlook

/-- The instruction that jumps. -/
def Node.isJump : Node → Bool
  | .goTo _ _ _ => true
  | _ => false

namespace Machine

/-! ## Runs -/

/--
The scope before the next instruction describes the variables of a machine.
-/
structure InScope
    (program : Program)
    (size : Nat)
    (machine : Machine) :
    Prop extends Running program size machine where
  describes :
    (Outlook.before program size machine.moment.next).scope.Describes
      machine.moment.bindings

/-- Before the first instruction, the scope describes the machine. -/
theorem inScope_load
    (program : Program)
    (size stepLimit : Nat)
    (budget : Option Nat) :
    InScope program size (load program size stepLimit budget).record := by
  refine ⟨running_load program size stepLimit budget, ?_⟩
  rw [record_moment]
  exact .empty

/-- Without jumps the next instruction is the one that was checked next. -/
theorem inScope_turn
    {program : Program}
    {size : Nat}
    (jumpFree : ∀ node ∈ program, node.isJump = false)
    {machine after : Machine}
    (goesOn : machine.turn = (after, none))
    (inScope : InScope program size machine) :
    InScope program size after := by
  refine ⟨running_turn goesOn inScope.toRunning, ?_⟩
  obtain ⟨⟨rfl, rfl, _⟩, describes⟩ := inScope
  have spec := turn_spec machine
  rw [goesOn] at spec
  cases spec with
  | @advanced node flow committed found below succeeds =>
      obtain ⟨performed, effect, rfl⟩ := Action.execute_ok succeeds
      have sameNext : performed.next = machine.moment.next := effect.frame.1
      have noJump := jumpFree node (List.mem_of_getElem? found)
      rw [record_moment]
      cases flow with
      | next =>
          show
            (Outlook.before machine.program machine.moment.canvas.size
              (performed.next + 1)).scope.Describes performed.bindings
          rw [sameNext, Outlook.before_succ found]
          exact Outlook.check_describes_scope machine.moment.next
            effect describes
      | jump label =>
          cases effect with
          | jump =>
              cases noJump

/-- A failed run came to an instruction that failed or that was one too many. -/
theorem exists_fails_of_run
    {program : Program}
    {size stepLimit : Nat}
    {budget : Option Nat}
    {error : RunError}
    (fails : (load program size stepLimit budget).run.2 = .error error) :
    ∃ last node,
      Passes (load program size stepLimit budget).record last ∧
        (load program size stepLimit budget).run.1.failed =
          some last.moment.next ∧
        program[last.moment.next]? = some node ∧
        ((∃ limit, error.cause = .stepLimit limit) ∨
          Action.Fails program (Action.opened last.moment node)
            node error) := by
  obtain ⟨last, final, result, passed, ended, whole⟩ :=
    run_spec (load program size stepLimit budget)
  obtain ⟨rfl, _, _⟩ := passed.preserves running_turn (running_load ..)
  rw [whole] at fails ⊢
  cases fails
  have spec := turn_spec last
  rw [ended] at spec
  cases spec with
  | exhausted found spent =>
      exact ⟨last, _, passed, rfl, found, .inl ⟨_, rfl⟩⟩
  | failed found below failed =>
      exact ⟨last, _, passed, rfl, found, .inr (Action.execute_error failed).1⟩

end Machine

/--
Warnings found before an instruction are among the warnings of the program.
-/
theorem Outlook.mem_warnings_of_check
    {program : Program}
    {size index : Nat}
    {node : Node}
    (found : program[index]? = some node)
    {cause : WarningCause}
    {location : Location}
    (member :
      Diagnostic.warning cause location ∈
        ((before program size index).check program index node).findings) :
    Diagnostic.warning cause location ∈ (program.validate size).warnings := by
  rw [← before_succ found] at member
  have later :=
    (before_extends_validate program size (index + 1)).findings.subset member
  exact List.mem_filter.mpr ⟨later, rfl⟩

namespace Session

/--
A run of a source that compiled and has no jumps never fails because of kinds,
and where it fails on a name that is not bound, compilation has warned that the
name is read there before it is assigned.
-/
theorem announced_of_run
    {session : Session}
    {source : String}
    {compiled : Compiled}
    {error : RunError}
    (compiles : session.compile source = .ok compiled)
    (jumpFree : ∀ node ∈ compiled.program, node.isJump = false)
    (fails : (session.machine compiled.program).run.2 = .error error) :
    (∀ mismatch, error.cause ≠ .kindMismatch mismatch) ∧
      ∀ name,
        error.cause = .undefinedVariable name →
        Diagnostic.warning (.readBeforeAssigned name) error.location ∈
          compiled.warnings := by
  obtain ⟨spelled, valid, warnings⟩ := isSound_of_compile compiles
  obtain ⟨last, node, passed, _, found, exhausted | failure⟩ :=
    Machine.exists_fails_of_run fails
  · obtain ⟨limit, isLimit⟩ := exhausted
    simp [isLimit]
  · have inScope :=
      passed.preserves (Machine.inScope_turn jumpFree) (Machine.inScope_load ..)
    have announced :=
      Outlook.isAnnounced_of_fails failure inScope.describes
        (spelled node (List.mem_of_getElem? found))
          (Outlook.clean_check valid found)
    refine ⟨announced.kinds, ?_⟩
    intro name unbound
    rw [warnings]
    exact Outlook.mem_warnings_of_check found (announced.names name unbound)

/--
A variable that is assigned one line too late is warned of, and then found
unbound.
-/
theorem announced_of_run_early_read :
    let session := Session.start ⟨4, 10, none⟩
    let source := "Spawn(0, 0)\nx <- y + 1\ny <- 2\n"
    let error : RunError := ⟨.undefinedVariable "y", ⟨2, 6⟩⟩
    ∃ compiled,
      session.compile source = .ok compiled ∧
        (∀ node ∈ compiled.program, node.isJump = false) ∧
        (session.machine compiled.program).run.2 = .error error ∧
        (∀ mismatch, error.cause ≠ .kindMismatch mismatch) ∧
        Diagnostic.warning (.readBeforeAssigned "y") error.location ∈
          compiled.warnings := by
  intro session source error
  have settled :
      (session.compile source).toOption.any (fun compiled =>
        compiled.program.all (·.isJump = false) &&
          (session.machine compiled.program).run.2 = .error error) = true := by
    decide +kernel
  obtain ⟨compiled, compiles, known⟩ := exists_eq_ok_of_any settled
  simp only [Bool.and_eq_true, List.all_eq_true, decide_eq_true_eq] at known
  obtain ⟨jumpFree, fails⟩ := known
  obtain ⟨kinds, names⟩ := announced_of_run compiles jumpFree fails
  exact ⟨compiled, compiles, jumpFree, fails, kinds, names "y" rfl⟩

end Session

end PixelBrush
