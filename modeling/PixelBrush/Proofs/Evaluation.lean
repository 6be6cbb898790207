import PixelBrush.Machine.Evaluate

namespace PixelBrush

/-!
# How evaluation ends

An expression fails because one of its operands fails, or at its own node.
`Moment.EvaluationFails` lists the ways, and evaluation fails in no other.  The
strings that evaluation gives are names of colors, as long as the variables hold
no others.
-/

namespace Node

/-- The expressions whose values an expression is made from. -/
def operands : Node → List Node
  | .call _ arguments _ => arguments
  | .arithmetic _ left right _ | .boolean _ left right _ => [left, right]
  | _ => []

/-- An operand is smaller than the node it belongs to. -/
theorem sizeOf_lt_of_mem_operands
    {node operand : Node}
    (member : operand ∈ node.operands) :
    sizeOf operand < sizeOf node := by
  cases node with
  | call function arguments location =>
      have smaller :=
        List.sizeOf_lt_of_mem (show operand ∈ arguments from member)
      simp only [call.sizeOf_spec]
      omega
  | arithmetic operator left right location =>
      simp only [operands, List.mem_cons, List.not_mem_nil, or_false] at member
      rcases member with
        rfl | rfl <;> simp only [arithmetic.sizeOf_spec] <;> omega
  | boolean operator left right location =>
      simp only [operands, List.mem_cons, List.not_mem_nil, or_false] at member
      rcases member with rfl | rfl <;> simp only [boolean.sizeOf_spec] <;> omega
  | _ =>
      cases member

/--
What passes from the operands of an expression to the expression holds of all.
-/
theorem operandInduction
    {Motive : Node → Prop}
    (step :
      ∀ node,
        (∀ operand ∈ node.operands, Motive operand) →
        Motive node)
    (node : Node) :
    Motive node :=
  step node fun operand member =>
    have := sizeOf_lt_of_mem_operands member
    operandInduction step operand
termination_by sizeOf node

/-- The nodes that are performed; all others are evaluated. -/
def isInstruction : Node → Bool
  | .spawn .. | .setColor .. | .setSize .. | .draw .. | .fill .. | .assign ..
  | .label .. | .goTo .. => true
  | .call .. | .arithmetic .. | .boolean .. | .read .. | .number ..
  | .text .. => false

end Node

/-- A chain of computations fails at its first part or after it. -/
theorem bind_eq_error
    {first : Except Failure Middle}
    {rest : Middle → Except Failure Result}
    {failure : Failure}
    (fails : (first >>= rest) = .error failure) :
    first = .error failure ∨
      ∃ middle, first = .ok middle ∧ rest middle = .error failure := by
  cases first with
  | error other =>
      cases fails
      exact .inl rfl
  | ok middle =>
      exact .inr ⟨middle, rfl, fails⟩

/-- Two steps succeed exactly if both of them do. -/
theorem bind_eq_ok
    {first : Except Failure Middle}
    {rest : Middle → Except Failure Result}
    {result : Result}
    (done : (first >>= rest) = .ok result) :
    ∃ middle, first = .ok middle ∧ rest middle = .ok result := by
  cases first with
  | error other =>
      cases done
  | ok middle =>
      exact ⟨middle, rfl, done⟩

namespace Moment

variable
  {moment : Moment}
  {error : RunError}

/-- The ways in which an expression fails. -/
inductive EvaluationFails (moment : Moment) : Node → RunError → Prop where
  | operand
      {node operand : Node}
      {error : RunError}
      (member : operand ∈ node.operands)
      (fails : moment.evaluate operand = .error error) :
      EvaluationFails moment node error
  | text
      {name : String}
      {location : Location}
      (unnamed : Color.ofName? name = none) :
      EvaluationFails moment (.text name location)
        ⟨.invalidColor name, location⟩
  | read
      {name : String}
      {location : Location}
      (unbound : moment.bindings.get? name = none) :
      EvaluationFails moment (.read name location)
        ⟨.undefinedVariable name, location⟩
  | label
      {name : String}
      {location : Location} :
      EvaluationFails moment (.label name location)
        ⟨.undefinedVariable name, location⟩
  | instruction
      {node : Node}
      (performed : node.isInstruction = true) :
      EvaluationFails moment node ⟨.kindMismatch .instruction, node.location⟩
  | arity
      {function : Builtin}
      {arguments : List Node}
      {location : Location}
      (wrong : arguments.length ≠ function.parameters.length) :
      EvaluationFails moment (.call function arguments location)
        ⟨.badArgument (.callArity function arguments.length), location⟩
  | argument
      {function : Builtin}
      {arguments : List Node}
      {location : Location}
      {expected : ValueKind}
      {argument : Node}
      {value : Value}
      (listed : (expected, argument) ∈ function.parameters.zip arguments)
      (evaluated : moment.evaluate argument = .ok value)
      (wrong : value.kind ≠ expected) :
      EvaluationFails moment (.call function arguments location)
        ⟨.kindMismatch (.argument function expected value.kind),
          argument.location⟩
  | color
      {function : Builtin}
      {arguments : List Node}
      {location : Location}
      {argument : Node}
      {name : String}
      (member : argument ∈ arguments)
      (evaluated : moment.evaluate argument = .ok (.string name))
      (unnamed : Color.ofAnyCase? name = none) :
      EvaluationFails moment (.call function arguments location)
        ⟨.invalidColor name, argument.location⟩
  | operands
      {operator : ArithmeticOperator}
      {left right : Node}
      {location : Location}
      {first second : Value}
      (evaluatedLeft : moment.evaluate left = .ok first)
      (evaluatedRight : moment.evaluate right = .ok second)
      (wrong : first.kind ≠ .int ∨ second.kind ≠ .int) :
      EvaluationFails moment (.arithmetic operator left right location)
        ⟨.kindMismatch (.operands operator first.kind second.kind), location⟩
  | calculation
      {operator : ArithmeticOperator}
      {left right : Node}
      {location : Location}
      {first second : Number}
      {cause : RunCause}
      (evaluatedLeft : moment.evaluate left = .ok (.int first))
      (evaluatedRight : moment.evaluate right = .ok (.int second))
      (fails : operator.calculate first second = .error cause) :
      EvaluationFails moment (.arithmetic operator left right location)
        ⟨cause, location⟩
  | comparison
      {operator : BooleanOperator}
      {left right : Node}
      {location : Location}
      {first second : Value}
      {cause : RunCause}
      (evaluatedLeft : moment.evaluate left = .ok first)
      (evaluatedRight : moment.evaluate right = .ok second)
      (relational : operator.isLogical = false)
      (fails : operator.compare first second = .error cause) :
      EvaluationFails moment (.boolean operator left right location)
        ⟨cause, location⟩

section Calls

variable
  {function : Builtin}
  {arguments : List Node}
  {location : Location}
  {argument : Node}

/-- What is refused as a number is of another kind, and is named so. -/
theorem intArgument_eq_error
    {value : Value}
    (refused : intArgument function value location = .error error) :
    value.kind ≠ .int ∧
      error =
        ⟨.kindMismatch (.argument function .int value.kind), location⟩ := by
  cases value with
  | int number =>
      cases refused
  | string | bool =>
      cases refused
      exact ⟨nofun, rfl⟩

/-- What is refused as a string is of another kind, and is named so. -/
theorem stringArgument_eq_error
    {value : Value}
    (refused : stringArgument function value location = .error error) :
    value.kind ≠ .string ∧
      error =
        ⟨.kindMismatch (.argument function .string value.kind), location⟩ := by
  cases value with
  | string text =>
      cases refused
  | int | bool =>
      cases refused
      exact ⟨nofun, rfl⟩

/-- What is accepted as a string is this string. -/
theorem stringArgument_eq_ok
    {value : Value}
    {text : String}
    (accepted : stringArgument function value location = .ok text) :
    value = .string text := by
  cases value with
  | string other =>
      cases accepted
      rfl
  | int | bool =>
      cases accepted

/-- A call fails at one of its arguments or after it. -/
theorem callFails_argument
    {expected : ValueKind}
    {part : Value → Except RunError Accepted}
    {rest : Accepted → Except RunError Value}
    (listed : (expected, argument) ∈ function.parameters.zip arguments)
    (refuses :
      ∀ {value : Value} {refusal : RunError},
        part value = .error refusal →
        value.kind ≠ expected ∧
          refusal =
            ⟨.kindMismatch (.argument function expected value.kind),
              argument.location⟩)
    (fails :
      (do
        let value ← moment.evaluate argument
        let accepted ← part value
        rest accepted) = .error error)
    (continues :
      ∀ value accepted,
        moment.evaluate argument = .ok value →
        part value = .ok accepted →
        rest accepted = .error error →
        EvaluationFails moment (.call function arguments location) error) :
    EvaluationFails moment (.call function arguments location) error := by
  rcases bind_eq_error fails with inside | ⟨value, evaluated, afterValue⟩
  · exact .operand (List.of_mem_zip listed).2 inside
  · rcases bind_eq_error afterValue with refused | ⟨accepted, isPart, afterPart⟩
    · obtain ⟨wrong, rfl⟩ := refuses refused
      exact .argument listed evaluated wrong
    · exact continues value accepted evaluated isPart afterPart

/-- A call that only lacks a color fails because its text names none. -/
theorem callFails_color
    {value : Value}
    {name : String}
    {answer : Color → Value}
    (member : argument ∈ arguments)
    (evaluated : moment.evaluate argument = .ok value)
    (isText : stringArgument function value argument.location = .ok name)
    (fails :
      (do
        let color ← namedColor name argument.location
        return answer color) = (.error error : Except RunError Value)) :
    EvaluationFails moment (.call function arguments location) error := by
  rw [stringArgument_eq_ok isText] at evaluated
  cases named : Color.ofAnyCase? name with
  | none =>
      simp only [namedColor, named] at fails
      cases fails
      exact .color member evaluated named
  | some color =>
      simp only [namedColor, named] at fails
      cases fails

/-- A call with the wrong number of arguments is refused as such. -/
theorem evaluate_call_of_arity
    (wrong : arguments.length ≠ function.parameters.length) :
    moment.evaluate (.call function arguments location) =
      .error
        ⟨.badArgument (.callArity function arguments.length), location⟩ := by
  unfold evaluate
  split
  iterate 7 exact absurd rfl wrong
  rfl

/-- A call fails in one of the listed ways. -/
theorem evaluate_call_error
    (fails :
      moment.evaluate (.call function arguments location) = .error error) :
    EvaluationFails moment (.call function arguments location) error := by
  by_cases arity : arguments.length = function.parameters.length
  · cases function with
    | actualX | actualY | canvasSize =>
        rw [List.eq_nil_of_length_eq_zero arity] at fails
        cases fails
    | colorCount =>
        match arguments, arity with
        | [color, x₁, y₁, x₂, y₂], _ =>
            rw [evaluate] at fails
            apply callFails_argument (by simp [Builtin.parameters])
              stringArgument_eq_error fails
            intro value name evaluated isText afterName
            apply callFails_argument (by simp [Builtin.parameters])
              intArgument_eq_error afterName
            intro _ left _ _ afterLeft
            apply callFails_argument (by simp [Builtin.parameters])
              intArgument_eq_error afterLeft
            intro _ top _ _ afterTop
            apply callFails_argument (by simp [Builtin.parameters])
              intArgument_eq_error afterTop
            intro _ right _ _ afterRight
            apply callFails_argument (by simp [Builtin.parameters])
              intArgument_eq_error afterRight
            intro _ bottom _ _ afterBottom
            exact callFails_color (by simp) evaluated isText afterBottom
    | isBrushColor =>
        match arguments, arity with
        | [color], _ =>
            rw [evaluate] at fails
            apply callFails_argument (by simp [Builtin.parameters])
              stringArgument_eq_error fails
            intro value name evaluated isText afterName
            exact callFails_color (by simp) evaluated isText afterName
    | isBrushSize =>
        match arguments, arity with
        | [size], _ =>
            rw [evaluate] at fails
            apply callFails_argument (by simp [Builtin.parameters])
              intArgument_eq_error fails
            intro _ number _ _ afterSize
            cases afterSize
    | isCanvasColor =>
        match arguments, arity with
        | [color, offsetX, offsetY], _ =>
            rw [evaluate] at fails
            apply callFails_argument (by simp [Builtin.parameters])
              stringArgument_eq_error fails
            intro value name evaluated isText afterName
            apply callFails_argument (by simp [Builtin.parameters])
              intArgument_eq_error afterName
            intro _ right _ _ afterRight
            apply callFails_argument (by simp [Builtin.parameters])
              intArgument_eq_error afterRight
            intro _ down _ _ afterDown
            exact callFails_color (by simp) evaluated isText afterDown
  · rw [evaluate_call_of_arity arity] at fails
    cases fails
    exact .arity arity

end Calls

section Operators

variable
  {left right : Node}
  {location : Location}

/--
An arithmetic operator fails at an operand, on a kind or in the calculation.
-/
theorem evaluate_arithmetic_error
    {operator : ArithmeticOperator}
    (fails :
      moment.evaluate (.arithmetic operator left right location) =
        .error error) :
    EvaluationFails moment
      (.arithmetic operator left right location) error := by
  rw [evaluate] at fails
  rcases bind_eq_error fails with inLeft | ⟨first, evaluatedLeft, afterLeft⟩
  · exact .operand (by simp [Node.operands]) inLeft
  · rcases bind_eq_error afterLeft with
      inRight | ⟨second, evaluatedRight, afterRight⟩
    · exact .operand (by simp [Node.operands]) inRight
    · split at afterRight
      · rename_i a b
        cases result : operator.calculate a b with
        | ok number =>
            rw [result] at afterRight
            cases afterRight
        | error cause =>
            rw [result] at afterRight
            cases afterRight
            exact .calculation evaluatedLeft evaluatedRight result
      · rename_i notInts
        cases afterRight
        apply EvaluationFails.operands evaluatedLeft evaluatedRight
        cases first with
        | int a =>
            cases second with
            | int b =>
                exact absurd rfl (notInts a b rfl)
            | string | bool =>
                exact .inr nofun
        | string | bool =>
            exact .inl nofun

/-- A boolean operator fails at an operand or in the comparison. -/
theorem evaluate_boolean_error
    {operator : BooleanOperator}
    (fails :
      moment.evaluate (.boolean operator left right location) = .error error) :
    EvaluationFails moment (.boolean operator left right location) error := by
  unfold evaluate at fails
  split at fails
  · rcases bind_eq_error fails with inLeft | ⟨first, evaluatedLeft, afterLeft⟩
    · exact .operand (by simp [Node.operands]) inLeft
    · split at afterLeft
      · rcases bind_eq_error afterLeft with inRight | ⟨second, _, afterRight⟩
        · exact .operand (by simp [Node.operands]) inRight
        · cases afterRight
      · cases afterLeft
  · rcases bind_eq_error fails with inLeft | ⟨first, evaluatedLeft, afterLeft⟩
    · exact .operand (by simp [Node.operands]) inLeft
    · split at afterLeft
      · cases afterLeft
      · rcases bind_eq_error afterLeft with inRight | ⟨second, _, afterRight⟩
        · exact .operand (by simp [Node.operands]) inRight
        · cases afterRight
  · rename_i notAnd notOr
    rcases bind_eq_error fails with inLeft | ⟨first, evaluatedLeft, afterLeft⟩
    · exact .operand (by simp [Node.operands]) inLeft
    · rcases bind_eq_error afterLeft with
        inRight | ⟨second, evaluatedRight, afterRight⟩
      · exact .operand (by simp [Node.operands]) inRight
      · cases result : operator.compare first second with
        | ok truth =>
            rw [result] at afterRight
            cases afterRight
        | error cause =>
            rw [result] at afterRight
            cases afterRight
            have relational : operator.isLogical = false := by
              cases operator with
              | and => exact (notAnd rfl).elim
              | or => exact (notOr rfl).elim
              | _ => rfl
            exact .comparison evaluatedLeft evaluatedRight relational result

end Operators

/-- Evaluation fails in one of the listed ways. -/
theorem evaluate_error
    {node : Node}
    (fails : moment.evaluate node = .error error) :
    EvaluationFails moment node error := by
  cases node with
  | number value location =>
      cases fails
  | text value location =>
      unfold evaluate at fails
      split at fails
      · cases fails
      · rename_i unnamed
        cases fails
        exact .text (Option.not_isSome_iff_eq_none.mp unnamed)
  | read name location =>
      unfold evaluate at fails
      split at fails
      · cases fails
      · rename_i unbound
        cases fails
        exact .read unbound
  | label name location =>
      cases fails
      exact .label
  | call function arguments location =>
      exact evaluate_call_error fails
  | arithmetic operator left right location =>
      exact evaluate_arithmetic_error fails
  | boolean operator left right location =>
      exact evaluate_boolean_error fails
  | spawn | setColor | setSize | draw | fill | assign | goTo =>
      cases fails
      exact .instruction rfl

end Moment

/-- A string is the exact name of a color. -/
def Value.IsNamed (value : Value) : Prop :=
  ∀ text,
    value.string? = some text →
    (Color.ofName? text).isSome

/-- Numbers and truth values are no strings. -/
theorem Value.IsNamed.of_kind
    {value : Value}
    (other : value.kind ≠ .string) :
    value.IsNamed := by
  intro text isText
  cases value with
  | string =>
      exact absurd rfl other
  | int | bool =>
      cases isText

namespace Moment

/-- The strings among the variables are names of colors. -/
def Named (moment : Moment) : Prop :=
  ∀ name value,
    moment.bindings.get? name = some value →
    value.IsNamed

variable
  {moment : Moment}
  {value : Value}

/-- Before the first instruction there are no variables, so no strings. -/
theorem named_initial (size : Nat) :
    (initial size).Named := by
  intro name value bound
  cases bound

/--
Giving a variable a color name, a number or a truth value keeps the names.
-/
theorem Named.set
    (named : moment.Named)
    (isNamed : value.IsNamed)
    (name : String) :
    Named { moment with bindings := moment.bindings.set name value } := by
  intro other found bound
  dsimp only at bound
  rw [Table.get?_set] at bound
  split at bound
  · cases bound
    exact isNamed
  · exact named other found bound

/-- A query answers with a value of its kind. -/
theorem kind_of_evaluate_call
    {function : Builtin}
    {arguments : List Node}
    {location : Location}
    (evaluated :
      moment.evaluate (.call function arguments location) = .ok value) :
    value.kind = function.result := by
  unfold evaluate at evaluated
  split at evaluated
  iterate 3
    · cases evaluated
      rfl
  · iterate 11 obtain ⟨_, _, evaluated⟩ := bind_eq_ok evaluated
    cases evaluated
    rfl
  · iterate 3 obtain ⟨_, _, evaluated⟩ := bind_eq_ok evaluated
    cases evaluated
    rfl
  · iterate 2 obtain ⟨_, _, evaluated⟩ := bind_eq_ok evaluated
    cases evaluated
    rfl
  · iterate 7 obtain ⟨_, _, evaluated⟩ := bind_eq_ok evaluated
    cases evaluated
    rfl
  · cases evaluated

/-- Arithmetic gives numbers. -/
theorem kind_of_evaluate_arithmetic
    {operator : ArithmeticOperator}
    {left right : Node}
    {location : Location}
    (evaluated :
      moment.evaluate (.arithmetic operator left right location) = .ok value) :
    value.kind = .int := by
  rw [evaluate] at evaluated
  iterate 2 obtain ⟨_, _, evaluated⟩ := bind_eq_ok evaluated
  split at evaluated
  · obtain ⟨_, _, evaluated⟩ := bind_eq_ok evaluated
    cases evaluated
    rfl
  · cases evaluated

/-- Comparisons and logical operators give truth values. -/
theorem kind_of_evaluate_boolean
    {operator : BooleanOperator}
    {left right : Node}
    {location : Location}
    (evaluated :
      moment.evaluate (.boolean operator left right location) = .ok value) :
    value.kind = .bool := by
  unfold evaluate at evaluated
  split at evaluated
  · obtain ⟨_, _, evaluated⟩ := bind_eq_ok evaluated
    split at evaluated
    · obtain ⟨_, _, evaluated⟩ := bind_eq_ok evaluated
      cases evaluated
      rfl
    · cases evaluated
      rfl
  · obtain ⟨_, _, evaluated⟩ := bind_eq_ok evaluated
    split at evaluated
    · cases evaluated
      rfl
    · obtain ⟨_, _, evaluated⟩ := bind_eq_ok evaluated
      cases evaluated
      rfl
  · iterate 3 obtain ⟨_, _, evaluated⟩ := bind_eq_ok evaluated
    cases evaluated
    rfl

/-- Evaluation gives no strings but names of colors. -/
theorem isNamed_of_evaluate
    (named : moment.Named)
    {node : Node}
    (evaluated : moment.evaluate node = .ok value) :
    value.IsNamed := by
  cases node with
  | number number location =>
      cases evaluated
      exact .of_kind nofun
  | text name location =>
      unfold evaluate at evaluated
      split at evaluated
      · rename_i isName
        cases evaluated
        intro text isText
        cases isText
        exact isName
      · cases evaluated
  | read name location =>
      unfold evaluate at evaluated
      split at evaluated
      · rename_i found bound
        cases evaluated
        exact named name value bound
      · cases evaluated
  | call function arguments location =>
      apply Value.IsNamed.of_kind
      rw [kind_of_evaluate_call evaluated]
      cases function <;> exact nofun
  | arithmetic operator left right location =>
      apply Value.IsNamed.of_kind
      rw [kind_of_evaluate_arithmetic evaluated]
      exact nofun
  | boolean operator left right location =>
      apply Value.IsNamed.of_kind
      rw [kind_of_evaluate_boolean evaluated]
      exact nofun
  | spawn | setColor | setSize | draw | fill | assign | label | goTo =>
      cases evaluated

end Moment

end PixelBrush
