import PixelBrush.Proofs.Kinds
import PixelBrush.Session.Config

namespace PixelBrush

/-!
# Programs that draw with literals

Without labels and jumps, and with literals as the arguments of all drawing
commands, validation knows the brush before every instruction but the first,
which is the spawn.  It has then seen every direction, distance, extent and
destination, and every flood, so that instructions which move the brush or paint
never fail in a run.  What can still fail is calculating: in an assignment or in
a call that stands alone.
-/

/-- Instructions that do the same to the brush in every run. -/
def Node.isFixed : Node → Bool
  | .label _ _ | .goTo _ _ _ => false
  | .draw _ arguments _ => arguments.all (·.literal?.isSome)
  | _ => true

/-- Assignments and calls. -/
def Node.calculates : Node → Bool
  | .assign _ _ _ | .call _ _ _ => true
  | _ => false

/--
A name without a value, a division by zero or a result that is out of range.
-/
def RunCause.isOfCalculation : RunCause → Bool
  | .undefinedVariable _ | .zeroDivision _ | .overflow _ => true
  | _ => false

/--
Values fail to be calculated for the kinds of their parts or for their numbers.
-/
theorem RunCause.isOfCalculation_of_isOfValues
    {cause : RunCause}
    (ofValues : cause.isOfValues = true)
    (notKind : ∀ mismatch, cause ≠ .kindMismatch mismatch) :
    cause.isOfCalculation = true := by
  cases cause with
  | undefinedVariable | zeroDivision | overflow =>
      rfl
  | kindMismatch mismatch =>
      exact absurd rfl (notKind mismatch)
  | _ =>
      cases ofValues

/-- Jumps are not among the fixed instructions. -/
theorem Node.not_isJump_of_isFixed
    {node : Node}
    (fixed : node.isFixed = true) :
    node.isJump = false := by
  cases node with
  | goTo =>
      cases fixed
  | _ =>
      rfl

/-- A literal has a value in every moment. -/
theorem evaluateInt_ne_error_of_literal
    {node : Node}
    (isLiteral : node.literal?.isSome = true)
    (moment : Moment)
    (error : RunError) :
    moment.evaluateInt node ≠ .error error := by
  intro fails
  cases node with
  | number =>
      cases fails
  | _ =>
      cases isLiteral

/-- Among literals there is nothing that is not a literal. -/
theorem not_any_isNone
    {nodes chosen : List Node}
    (literals : ∀ node ∈ nodes, node.literal?.isSome = true)
    (among : chosen ⊆ nodes) :
    ¬ chosen.any (·.literal?.isNone) = true := by
  intro found
  obtain ⟨node, member, notLiteral⟩ := List.any_eq_true.mp found
  have isLiteral := literals node (among member)
  rw [Option.isNone_iff_eq_none.mp notLiteral] at isLiteral
  cases isLiteral

namespace Outlook

/-- Position and color of the brush are known. -/
structure KnowsBrush (outlook : Outlook) : Prop where
  position : outlook.brush.position.isSome = true
  color : outlook.brush.color.isSome = true

variable
  {outlook : Outlook}
  {program : Program}
  {size index : Nat}
  {node : Node}

/-- A checked direction that is a literal is a direction. -/
theorem isDirection_of_clean
    {command : DrawCommand}
    {location : Location}
    {component : Number}
    (clean : Clean (checkDirection command node location))
    (isLiteral : node.literal? = some component) :
    Number.isDirection component = true := by
  by_contra undirected
  simp [checkDirection, isLiteral, undirected] at clean

/--
A checked drawing command with literals takes a known brush to a known cell.
-/
theorem inSquare_of_checkDraw
    {command : DrawCommand}
    {nodeY nodeX nodeDistance : Node}
    {extents : List Node}
    {location : Location}
    {x y down right steps : Number}
    (clean :
      Clean
        (outlook.checkDraw command (nodeY :: nodeX :: nodeDistance :: extents)
          location).findings)
    (position : outlook.brush.position = some (x, y))
    (literalY : nodeY.literal? = some down)
    (literalX : nodeX.literal? = some right)
    (literalDistance : nodeDistance.literal? = some steps) :
    InSquare outlook.size (x.toInt + right.toInt * steps.toInt)
        (y.toInt + down.toInt * steps.toInt) ∧
      (outlook.checkDraw command (nodeY :: nodeX :: nodeDistance :: extents)
        location).brush.position.isSome = true := by
  have checked := drawChecked clean
  have directedY :=
    isDirection_of_clean (checked.directions nodeY (by simp)) literalY
  have directedX :=
    isDirection_of_clean (checked.directions nodeX (by simp)) literalX
  obtain ⟨_, _, _, _, shape, isMove⟩ :=
    checkDraw_of_arity outlook location checked.arity
  cases shape
  rw [isMove] at clean ⊢
  simp only [checkMove, report, place, clean_append_iff] at clean ⊢
  have arrives := clean.2.2
  simp only [arrival, position, literalY, literalX, literalDistance, directedY,
    directedX, Bool.and_self, if_true] at arrives ⊢
  split at arrives
  · rename_i inside
    have within := signedSide_le outlook
    rw [if_pos inside]
    simp only [InSquare]
    exact ⟨by omega, rfl⟩
  · exact absurd arrives (not_clean_error _ _)

/--
The first three arguments of a checked drawing command, where all are literals.
-/
theorem exists_literals
    {command : DrawCommand}
    {nodes : List Node}
    {location : Location}
    (clean : Clean (outlook.checkDraw command nodes location).findings)
    (literals : ∀ node ∈ nodes, node.literal?.isSome = true) :
    ∃ nodeY nodeX nodeDistance extents down right steps,
      nodes = nodeY :: nodeX :: nodeDistance :: extents ∧
        nodeY.literal? = some down ∧
        nodeX.literal? = some right ∧
        nodeDistance.literal? = some steps := by
  obtain ⟨nodeY, nodeX, nodeDistance, extents, rfl, _⟩ :=
    checkDraw_of_arity outlook location (drawChecked clean).arity
  obtain ⟨down, literalY⟩ :=
    Option.isSome_iff_exists.mp (literals nodeY (by simp))
  obtain ⟨right, literalX⟩ :=
    Option.isSome_iff_exists.mp (literals nodeX (by simp))
  obtain ⟨steps, literalDistance⟩ :=
    Option.isSome_iff_exists.mp (literals nodeDistance (by simp))
  exact ⟨nodeY, nodeX, nodeDistance, extents, down, right, steps, rfl,
    literalY, literalX, literalDistance⟩

/-- Checking a draw command leaves the color alone. -/
theorem color_checkDraw
    (outlook : Outlook)
    (command : DrawCommand)
    (nodes : List Node)
    (location : Location) :
    (outlook.checkDraw command nodes location).brush.color =
      outlook.brush.color := by
  unfold checkDraw
  split <;> rfl

/-! ## The brush is known -/

/-- After a checked spawn the position is known. -/
theorem position_checkSpawn
    {x y : Number}
    {location : Location}
    (clean : Clean (outlook.checkSpawn x y location).findings) :
    outlook.checkSpawn x y location = outlook.place (some (x, y)) := by
  by_cases inside : InSquare outlook.size x.toInt y.toInt
  · exact if_pos inside
  · simp [checkSpawn, inside, place, report] at clean

/-- A fixed instruction without errors leaves a known brush known. -/
theorem KnowsBrush.check
    (known : outlook.KnowsBrush)
    (fixed : node.isFixed = true)
    (clean : Clean (outlook.check program index node).findings) :
    (outlook.check program index node).KnowsBrush := by
  cases node with
  | spawn x y location =>
      have placed := position_checkSpawn clean
      rw [Outlook.check, placed]
      exact ⟨rfl, known.color⟩
  | setColor name location =>
      cases named : Color.ofName? name with
      | none =>
          simp [Outlook.check, checkColor, named, dye, report] at clean
      | some color =>
          simp only [Outlook.check, checkColor, named]
          exact ⟨known.position, rfl⟩
  | setSize size location =>
      simp only [Outlook.check, checkSize]
      split
      · exact ⟨known.position, known.color⟩
      · split
        · exact known
        · exact ⟨known.position, known.color⟩
  | draw command nodes location =>
      obtain ⟨⟨x, y⟩, position⟩ := Option.isSome_iff_exists.mp known.position
      obtain ⟨_, _, _, _, _, _, _, rfl, literalY, literalX, literalDistance⟩ :=
        exists_literals clean (List.all_eq_true.mp fixed)
      refine ⟨?_, ?_⟩
      · exact (inSquare_of_checkDraw clean position literalY literalX
          literalDistance).2
      · rw [Outlook.check, color_checkDraw]
        exact known.color
  | fill location =>
      simp only [Outlook.check]
      split
      · exact ⟨known.position, known.color⟩
      · exact known
  | label | goTo =>
      cases fixed
  | assign | call | arithmetic | boolean | read | number | text =>
      exact ⟨known.position, known.color⟩

/-- A program without errors starts with a spawn. -/
theorem exists_spawn_of_valid
    (valid : (program.validate size).errors = []) :
    ∃ x y location, program[0]? = some (.spawn x y location) := by
  have shaped : Clean program.checkShape :=
    (clean_of_errors_nil valid).of_isPrefix
      (before_extends_validate program size 0).findings
  unfold Program.checkShape at shaped
  rw [clean_append_iff] at shaped
  cases program with
  | nil =>
      exact absurd shaped.1 (not_clean_error _ _)
  | cons first rest =>
      cases first with
      | spawn x y location =>
          exact ⟨x, y, location, rfl⟩
      | _ =>
          exact absurd shaped.1 (not_clean_error _ _)

/-- After its first instruction the brush of a fixed program is known. -/
theorem knowsBrush_before
    (valid : (program.validate size).errors = [])
    (fixed : ∀ node ∈ program, node.isFixed = true)
    (within : index < program.length) :
    (before program size (index + 1)).KnowsBrush := by
  induction index with
  | zero =>
      obtain ⟨x, y, location, first⟩ := exists_spawn_of_valid valid
      rw [before_succ first, check,
        position_checkSpawn (clean_check valid first)]
      exact ⟨rfl, rfl⟩
  | succ index inductionHypothesis =>
      have found : program[index + 1]? = some program[index + 1] :=
        List.getElem?_eq_getElem within
      rw [before_succ found]
      exact
        (inductionHypothesis (Nat.lt_of_succ_lt within)).check
          (fixed _ (List.mem_of_getElem? found)) (clean_check valid found)

/--
Each instruction of a valid program spawns the brush or is checked with a brush
that is known.
-/
theorem spawns_or_knowsBrush
    (valid : (program.validate size).errors = [])
    (fixed : ∀ node ∈ program, node.isFixed = true)
    (found : program[index]? = some node) :
    (∃ x y location, node = .spawn x y location) ∨
      (before program size index).KnowsBrush := by
  cases index with
  | zero =>
      obtain ⟨x, y, location, first⟩ := exists_spawn_of_valid valid
      rw [found, Option.some.injEq] at first
      exact .inl ⟨x, y, location, first⟩
  | succ index =>
      have within := (List.getElem?_eq_some_iff.mp found).1
      exact .inr (knowsBrush_before valid fixed (Nat.lt_of_succ_lt within))

/-! ## What can fail -/

/--
A checked drawing command with literals stays on a canvas of a size that is
allowed.
-/
theorem inRange_of_checkDraw
    {moment : Moment}
    {command : DrawCommand}
    {nodes : List Node}
    {location : Location}
    (clean : Clean (outlook.checkDraw command nodes location).findings)
    (literals : ∀ node ∈ nodes, node.literal?.isSome = true)
    (small : outlook.size ≤ Config.largestCanvas)
    (known : outlook.KnowsBrush)
    (describes : outlook.brush.Describes moment.canvas.size moment.brush)
    {directionY directionX distance : Number}
    {extents : List Number}
    (arguments :
      Action.Arguments moment command nodes directionY directionX
        distance extents) :
    Number.InRange (moment.brush.x.toInt + directionX.toInt * distance.toInt) ∧
      Number.InRange
        (moment.brush.y.toInt + directionY.toInt * distance.toInt) := by
  obtain ⟨⟨x, y⟩, position⟩ := Option.isSome_iff_exists.mp known.position
  obtain ⟨sameX, sameY, _⟩ := describes.position x y position
  obtain ⟨_, _, _, _, _, _, _, rfl, literalY, literalX, literalDistance⟩ :=
    exists_literals clean literals
  obtain ⟨_, _, _, _, shape, evaluatedY, evaluatedX, evaluatedDistance, _⟩ :=
    arguments.first_three
  cases shape
  have inside :=
    (inSquare_of_checkDraw clean position literalY literalX literalDistance).1
  rw [sameX, sameY, evaluateInt_of_literal literalY evaluatedY,
    evaluateInt_of_literal literalX evaluatedX,
    evaluateInt_of_literal literalDistance evaluatedDistance]
  simp only [InSquare] at inside
  simp only [Config.largestCanvas] at small
  simp only [Number.InRange]
  omega

/-- A fixed instruction without errors fails only where it calculates. -/
theorem calculates_of_fails
    {moment : Moment}
    {error : RunError}
    (fails : Action.Fails program moment node error)
    (side : outlook.size = moment.canvas.size)
    (small : outlook.size ≤ Config.largestCanvas)
    (named : moment.Named)
    (followed : outlook.brush.Describes moment.canvas.size moment.brush)
    (inScope : outlook.scope.Describes moment.bindings)
    (known : (∃ x y location, node = .spawn x y location) ∨ outlook.KnowsBrush)
    (fixed : node.isFixed = true)
    (spelled : node.IsSpelled)
    (clean : Clean (outlook.check program index node).findings) :
    node.calculates = true ∧ error.cause.isOfCalculation = true := by
  have allowed := mayFailWith_of_fails clean side named fails
  have notKind := (isAnnounced_of_fails fails inScope spelled clean).kinds
  cases fails with
  | spawn | setColor | setSize | drawArity =>
      cases allowed
  | drawArgument member inside =>
      exact absurd inside
        (evaluateInt_ne_error_of_literal
          (List.all_eq_true.mp fixed _ member) _ _)
  | direction =>
      exact absurd allowed
        (not_any_isNone (List.all_eq_true.mp fixed) (List.take_subset _ _))
  | distance =>
      exact absurd allowed
        (not_any_isNone (List.all_eq_true.mp fixed)
          (List.Subset.trans (List.take_subset _ _) (List.drop_subset _ _)))
  | extent =>
      exact absurd allowed
        (not_any_isNone (List.all_eq_true.mp fixed) (List.drop_subset _ _))
  | movement arguments outOfRange =>
      rcases known with ⟨_, _, _, isSpawn⟩ | known
      · cases isSpawn
      · have inRange :=
          inRange_of_checkDraw clean (List.all_eq_true.mp fixed) small known
            followed arguments
        rcases outOfRange with outX | outY
        · exact absurd inRange.1 outX
        · exact absurd inRange.2 outY
  | transparentFill invisible =>
      rcases known with ⟨_, _, _, isSpawn⟩ | known
      · cases isSpawn
      · obtain ⟨color, isColor⟩ := Option.isSome_iff_exists.mp known.color
        rw [← followed.color color isColor, invisible] at isColor
        simp [check, isColor, report] at clean
  | fillOutside visible outside =>
      rcases known with ⟨_, _, _, isSpawn⟩ | known
      · cases isSpawn
      · obtain ⟨⟨x, y⟩, position⟩ := Option.isSome_iff_exists.mp known.position
        obtain ⟨sameX, sameY, inside⟩ := followed.position x y position
        rw [sameX, sameY] at outside
        exact absurd inside outside
  | assign inside =>
      simp only [check, report, clean_append_iff] at clean
      have ofValues := Scope.isOfValues_of_evaluate named clean.2 inside
      exact ⟨rfl, RunCause.isOfCalculation_of_isOfValues ofValues notKind⟩
  | condition | undeclared =>
      cases fixed
  | expression bare inside =>
      obtain ⟨function, arguments, location, rfl⟩ := spelled.alone bare
      simp only [check, report, clean_append_iff] at clean
      have ofValues := Scope.isOfValues_of_evaluate named clean.2 inside
      exact ⟨rfl, RunCause.isOfCalculation_of_isOfValues ofValues notKind⟩

end Outlook

namespace Machine

/--
A run of a source that compiled, on a canvas of a size that is allowed, with
neither labels nor jumps and with literals in all drawing commands, fails only
in an assignment or a call and for want of a value, or at the step limit.
-/
theorem calculates_of_run
    {size stepLimit : Nat}
    {budget : Option Nat}
    {source : String}
    {compiled : Compiled}
    {error : RunError}
    (small : size ≤ Config.largestCanvas)
    (compiles : compile size source = .ok compiled)
    (fixed : ∀ node ∈ compiled.program, node.isFixed = true)
    (fails :
      (load compiled.program size stepLimit budget).run.2 = .error error) :
    ∃ index node,
      (load compiled.program size stepLimit budget).run.1.failed = some index ∧
        compiled.program[index]? = some node ∧
        ((∃ limit, error.cause = .stepLimit limit) ∨
          node.calculates = true ∧ error.cause.isOfCalculation = true) := by
  obtain ⟨spelled, valid, _⟩ := isSound_of_compile compiles
  obtain ⟨last, node, passed, isLast, found, exhausted | failure⟩ :=
    exists_fails_of_run fails
  · exact ⟨last.moment.next, node, isLast, found, .inl exhausted⟩
  · have followed := passed.preserves followed_turn (followed_load ..)
    have inScope :=
      passed.preserves
        (inScope_turn fun node member =>
          Node.not_isJump_of_isFixed (fixed node member))
        (inScope_load ..)
    have sameSize := Outlook.size_before compiled.program size last.moment.next
    have member := List.mem_of_getElem? found
    have calculates :=
      Outlook.calculates_of_fails failure (sameSize.trans followed.side.symm)
        (sameSize.symm ▸ small) followed.named
          (followed.side.symm ▸ followed.describes)
        inScope.describes (Outlook.spawns_or_knowsBrush valid fixed found)
        (fixed node member) (spelled node member)
          (Outlook.clean_check valid found)
    exact ⟨last.moment.next, node, isLast, found, .inr calculates⟩

/-- A line to the edge, a flood, and then a sum that is too large. -/
theorem calculates_of_run_overflow :
    let source :=
      "Spawn(0, 1)\nColor(\"Red\")\nDrawLine(0, 1, 2)\nFill()\n" ++
        "x <- 2147483647 + 1\n"
    let error : RunError := ⟨.overflow (.arithmetic .add 2147483647 1), ⟨5, 17⟩⟩
    ∃ compiled,
      compile 3 source = .ok compiled ∧
        (∀ node ∈ compiled.program, node.isFixed = true) ∧
        (load compiled.program 3 10 none).run.2 = .error error ∧
        ∃ index node,
          (load compiled.program 3 10 none).run.1.failed = some index ∧
            compiled.program[index]? = some node ∧
            ((∃ limit, error.cause = .stepLimit limit) ∨
              node.calculates = true ∧ error.cause.isOfCalculation = true) := by
  intro source error
  have settled :
      (compile 3 source).toOption.any (fun compiled =>
        compiled.program.all (·.isFixed) &&
          (load compiled.program 3 10 none).run.2 = .error error) = true := by
    decide +kernel
  obtain ⟨compiled, compiles, known⟩ := exists_eq_ok_of_any settled
  simp only [Bool.and_eq_true, List.all_eq_true, decide_eq_true_eq] at known
  obtain ⟨fixed, fails⟩ := known
  exact ⟨compiled, compiles, fixed, fails,
    calculates_of_run (by decide) compiles fixed fails⟩

end Machine

end PixelBrush
