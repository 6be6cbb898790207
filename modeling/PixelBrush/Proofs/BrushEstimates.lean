import PixelBrush.Proofs.Instructions
import PixelBrush.Proofs.Turns
import PixelBrush.Proofs.ValidationPass

namespace PixelBrush

/-!
# The estimated brush is the brush

Validation follows the brush as far as literals allow, once, in program order.
A run may arrive at an instruction in two ways only: from the instruction before
it, where the estimate was brought up to date, or by a jump past a label, where
the estimate was forgotten.  So whatever is known about the brush before an
instruction is true of the brush whenever a run arrives there.
-/

/--
What is known about a brush is true of it, and a known position is on the
canvas.
-/
structure BrushEstimate.Describes
    (estimate : BrushEstimate)
    (size : Nat)
    (brush : Brush) :
    Prop where
  position :
    ∀ x y,
      estimate.position = some (x, y) →
      brush.x = x ∧ brush.y = y ∧ InSquare size x.toInt y.toInt
  color :
    ∀ color,
      estimate.color = some color →
      brush.color = color

namespace BrushEstimate.Describes

variable
  {estimate : BrushEstimate}
  {size : Nat}
  {brush : Brush}

/-- Where nothing is known, nothing is wrong. -/
theorem unknown
    (size : Nat)
    (brush : Brush) :
    BrushEstimate.unknown.Describes size brush where
  position := by
    intro x y known
    cases known
  color := by
    intro color known
    cases known

/-- A position may be replaced by one that describes the moved brush. -/
theorem place
    (describes : estimate.Describes size brush)
    {position : Option (Number × Number)}
    {x y : Number}
    (same :
      ∀ column row,
        position = some (column, row) →
        x = column ∧ y = row ∧ InSquare size column.toInt row.toInt) :
    BrushEstimate.Describes { estimate with position } size
      (brush.moveTo x y) where
  position := same
  color := describes.color

end BrushEstimate.Describes

/-- A literal evaluates to its value. -/
theorem evaluateInt_of_literal
    {moment : Moment}
    {node : Node}
    {literal value : Number}
    (isLiteral : node.literal? = some literal)
    (evaluated : moment.evaluateInt node = .ok value) :
    value = literal := by
  cases node with
  | number number location =>
      simp only [Node.literal?, Option.some.injEq] at isLiteral
      subst isLiteral
      cases evaluated
      rfl
  | _ =>
      cases isLiteral

namespace Outlook

/-- The side as a 64-bit integer is never more than the side. -/
theorem signedSide_le (outlook : Outlook) :
    outlook.signedSide ≤ outlook.size := by
  unfold signedSide Int.bmod UInt64.size
  dsimp only
  split <;> omega

/--
A move that is known entirely ends where the run moves the brush, on the canvas.
-/
theorem arrival_describes
    {outlook : Outlook}
    {size : Nat}
    {brush : Brush}
    {moment : Moment}
    (side : outlook.size = size)
    (describes : outlook.brush.Describes size brush)
    {command : DrawCommand}
    {nodeY nodeX nodeDistance : Node}
    {location : Location}
    {directionY directionX distance x y : Number}
    (evaluatedY : moment.evaluateInt nodeY = .ok directionY)
    (evaluatedX : moment.evaluateInt nodeX = .ok directionX)
    (evaluatedDistance : moment.evaluateInt nodeDistance = .ok distance)
    (column : x.toInt = brush.x.toInt + directionX.toInt * distance.toInt)
    (row : y.toInt = brush.y.toInt + directionY.toInt * distance.toInt)
    {knownX knownY : Number}
    (known :
      (outlook.arrival command nodeY nodeX nodeDistance location).1 =
        some (knownX, knownY)) :
    x = knownX ∧ y = knownY ∧ InSquare size knownX.toInt knownY.toInt := by
  unfold arrival at known
  split at known
  · rename_i fromX fromY down right steps position literalY literalX
      literalDistance
    obtain ⟨sameX, sameY, _⟩ := describes.position fromX fromY position
    have downShape := evaluateInt_of_literal literalY evaluatedY
    have rightShape := evaluateInt_of_literal literalX evaluatedX
    have stepsShape := evaluateInt_of_literal literalDistance evaluatedDistance
    subst sameX sameY downShape rightShape stepsShape
    split at known
    · dsimp only at known
      rw [← column, ← row] at known
      split at known
      · rename_i inside
        simp only [Int32.ofInt_toInt, Option.some.injEq, Prod.mk.injEq] at known
        obtain ⟨rfl, rfl⟩ := known
        have within := signedSide_le outlook
        refine ⟨rfl, rfl, ?_⟩
        simp only [InSquare]
        omega
      · cases known
    · cases known
  · cases known

/--
Checking an instruction updates the estimate as performing it updates the brush.
-/
theorem check_describes
    {outlook : Outlook}
    {program : Program}
    (index : Nat)
    {node : Node}
    {moment after : Moment}
    (succeeds : Action.Succeeds program moment node .next after)
    (side : outlook.size = moment.canvas.size)
    (describes : outlook.brush.Describes moment.canvas.size moment.brush) :
    (outlook.check program index node).brush.Describes moment.canvas.size
      after.brush := by
  cases succeeds with
  | @spawn x y location inside =>
      simp only [check, checkSpawn, side, if_pos inside]
      apply describes.place
      intro column row known
      cases known
      exact ⟨rfl, rfl, inside⟩
  | @setColor name color location named =>
      simp only [check, checkColor, named]
      exact
        { position := describes.position
          color := fun other known => Option.some.inj known }
  | @setSize requested size location adjusted =>
      simp only [check, checkSize, adjusted]
      split
      · exact ⟨describes.position, describes.color⟩
      · exact ⟨describes.position, describes.color⟩
  | @draw command nodes location directionY directionX distance x y extents
    arguments directed long column row positive =>
      obtain ⟨nodeY, nodeX, nodeDistance, rest, rfl, checked⟩ :=
        checkDraw_of_arity outlook location arguments.arity
      obtain ⟨_, _, _, _, shape, evaluatedY, evaluatedX, evaluatedDistance,
        _⟩ :=
        arguments.first_three
      cases shape
      simp only [check, checked, checkMove]
      apply describes.place
      intro knownX knownY known
      exact arrival_describes side describes evaluatedY evaluatedX
        evaluatedDistance column row known
  | fill visible inside =>
      simp only [check]
      split
      · exact ⟨describes.position, describes.color⟩
      · exact describes
  | assign evaluated =>
      exact ⟨describes.position, describes.color⟩
  | label =>
      exact .unknown ..
  | stay evaluated untrue =>
      exact ⟨describes.position, describes.color⟩
  | expression bare evaluated =>
      cases node with
      | call | arithmetic | boolean | read | number | text =>
          exact ⟨describes.position, describes.color⟩
      | _ =>
          cases bare

end Outlook

/-- A declared label is a label instruction. -/
theorem exists_label_of_labelIndex?
    {program : Program}
    {name : String}
    {index : Nat}
    (declared : program.labelIndex? name = some index) :
    ∃ location, program[index]? = some (.label name location) := by
  unfold Program.labelIndex? at declared
  obtain ⟨within, declares, _⟩ := List.findIdx?_eq_some_iff_getElem.mp declared
  rw [List.getElem?_eq_getElem within]
  cases shape : program[index] with
  | label other location =>
      rw [shape] at declares
      rw [eq_of_beq declares]
      exact ⟨location, rfl⟩
  | _ =>
      rw [shape] at declares
      cases declares

namespace Machine

/-- A machine that runs a program on a canvas of a size. -/
structure Running
    (program : Program)
    (size : Nat)
    (machine : Machine) :
    Prop where
  sameProgram : machine.program = program
  side : machine.moment.canvas.size = size
  named : machine.moment.Named

/-- A run starts with its initial moment recorded. -/
theorem running_load
    (program : Program)
    (size stepLimit : Nat)
    (budget : Option Nat) :
    Running program size (load program size stepLimit budget).record := by
  refine ⟨record_program _, ?_, ?_⟩
  · rw [record_moment]
    rfl
  · rw [record_moment]
    exact Moment.named_initial size

/--
A turn that goes on keeps a machine among those that a run passes through.
-/
theorem running_turn
    {program : Program}
    {size : Nat}
    {machine after : Machine}
    (goesOn : machine.turn = (after, none))
    (running : Running program size machine) :
    Running program size after := by
  obtain ⟨rfl, rfl, named⟩ := running
  have spec := turn_spec machine
  rw [goesOn] at spec
  cases spec with
  | @advanced node flow committed found below succeeds =>
      obtain ⟨performed, effect, rfl⟩ := Action.execute_ok succeeds
      obtain ⟨_, _, sameSide⟩ := effect.frame
      refine ⟨record_program _, ?_, ?_⟩
      · rw [record_moment]
        exact sameSide
      · rw [record_moment]
        exact effect.named named

/--
The estimate before the next instruction describes the brush of a machine.
-/
structure Followed
    (program : Program)
    (size : Nat)
    (machine : Machine) :
    Prop extends Running program size machine where
  describes :
    (Outlook.before program size machine.moment.next).brush.Describes size
      machine.moment.brush

/-- Both ways to the next instruction keep the estimate true. -/
theorem followed_turn
    {program : Program}
    {size : Nat}
    {machine after : Machine}
    (goesOn : machine.turn = (after, none))
    (followed : Followed program size machine) :
    Followed program size after := by
  refine ⟨running_turn goesOn followed.toRunning, ?_⟩
  obtain ⟨⟨rfl, rfl, _⟩, describes⟩ := followed
  have spec := turn_spec machine
  rw [goesOn] at spec
  cases spec with
  | @advanced node flow committed found below succeeds =>
      obtain ⟨performed, effect, rfl⟩ := Action.execute_ok succeeds
      obtain ⟨sameNext, _, _⟩ := effect.frame
      rw [record_moment]
      show
        (Outlook.before machine.program machine.moment.canvas.size
          (flow.target performed.next)).brush.Describes
            machine.moment.canvas.size performed.brush
      rw [sameNext]
      cases flow with
      | next =>
          have side := Outlook.size_before machine.program
            machine.moment.canvas.size machine.moment.next
          show
            (Outlook.before machine.program machine.moment.canvas.size
              (machine.moment.next + 1)).brush.Describes _ _
          rw [Outlook.before_succ found]
          have checked :=
            Outlook.check_describes machine.moment.next effect side describes
          exact checked
      | jump label =>
          cases effect with
          | jump evaluated isTrue declared =>
              -- A jump goes past its label, and there the estimate was
              -- forgotten.
              obtain ⟨location, labelled⟩ :=
                exists_label_of_labelIndex? declared
              show
                (Outlook.before machine.program machine.moment.canvas.size
                  (label + 1)).brush.Describes _ _
              rw [Outlook.before_succ labelled]
              exact .unknown ..

/-- The estimate holds before the first instruction. -/
theorem followed_load
    (program : Program)
    (size stepLimit : Nat)
    (budget : Option Nat) :
    Followed program size (load program size stepLimit budget).record := by
  refine ⟨running_load program size stepLimit budget, ?_⟩
  rw [record_moment]
  exact
    { position := by
        intro x y known
        cases known
      color := by
        intro color known
        cases known
        rfl }

/--
Wherever a run is, what validation knew about the brush before the instruction
that comes next is true: a known position is where the brush stands and on the
canvas, and a known color is the color of the brush.
-/
theorem describes_brush
    {program : Program}
    {size stepLimit : Nat}
    {budget : Option Nat}
    {machine : Machine}
    (visited : Visits (load program size stepLimit budget) machine) :
    (Outlook.before program size machine.moment.next).brush.Describes size
      machine.moment.brush := by
  have start := followed_load program size stepLimit budget
  cases visited with
  | passes passed =>
      exact (passed.preserves followed_turn start).describes
  | @ends last final result passed ended =>
      have followed := passed.preserves followed_turn start
      have spec := turn_spec last
      rw [ended] at spec
      cases spec with
      | finished =>
          exact followed.describes
      | exhausted =>
          exact followed.describes
      | failed found below fails =>
          obtain ⟨_, rfl⟩ := Action.execute_error fails
          exact followed.describes

/-- A line of two steps after a spawn: the brush is known, and is there. -/
theorem describes_brush_after_line :
    let line : Program :=
      [.spawn 1 2 ⟨1, 1⟩,
        .draw .line
          [.number 0 ⟨2, 10⟩, .number 1 ⟨2, 13⟩, .number 2 ⟨2, 16⟩] ⟨2, 1⟩]
    let machine := (load line 5 10 none).run.1
    (line.validate 5).errors = [] ∧
      (Outlook.before line 5 machine.moment.next).brush =
        ⟨some (3, 2), some .transparent⟩ ∧
      machine.moment.brush.x = 3 ∧ machine.moment.brush.y = 2 := by
  intro line machine
  have known :
      (Outlook.before line 5 machine.moment.next).brush =
        ⟨some (3, 2), some .transparent⟩ := by
    decide +kernel
  have describes := describes_brush (visits_run (load line 5 10 none))
  rw [known] at describes
  obtain ⟨column, row, _⟩ := describes.position 3 2 rfl
  exact ⟨by decide, known, column, row⟩

end Machine

end PixelBrush
