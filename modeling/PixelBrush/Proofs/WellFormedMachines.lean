import PixelBrush.Proofs.FailedRuns
import PixelBrush.Proofs.ValidatedRuns

namespace PixelBrush

/-!
# What every machine keeps in order

Any program may be run, validated or not, and the machine may be run and moved
in any order.  Its canvas keeps its cells and none of them turns transparent, no
journal stays open, the brush keeps an odd side, the next instruction is in the
program or right after it, and the only strings in variables are names of
colors.  The same is true of every recorded moment.  So a query function that
asks for a color is always given the name of one.
-/

namespace Canvas

/-- No cell is transparent. -/
def Covered (canvas : Canvas) : Prop :=
  ∀ cell ∈ canvas.cells, cell ≠ .transparent

/-- A blank canvas has no transparent cell. -/
theorem covered_blank (size : Nat) :
    (blank size).Covered := by
  intro cell member
  have white : cell = .white := (Array.mem_replicate.mp member).2
  rw [white]
  decide

/-- Writing a visible color leaves no transparent cell. -/
theorem Covered.write
    {canvas : Canvas}
    (covered : canvas.Covered)
    (index : Nat)
    {color : Color}
    (visible : color ≠ .transparent) :
    (canvas.write index color).Covered := by
  unfold Canvas.write
  split
  · exact covered
  · split
    · exact covered
    · intro cell member
      rcases Array.mem_or_eq_of_mem_setIfInBounds member with old | rfl
      · exact covered cell old
      · exact visible

/-- Painting in a visible color leaves no transparent cell. -/
theorem Covered.paint
    {canvas : Canvas}
    (covered : canvas.Covered)
    (x y : Int)
    {color : Color}
    (visible : color ≠ .transparent) :
    (canvas.paint x y color).Covered := by
  unfold Canvas.paint
  split
  · exact covered
  · exact covered.write _ visible

/-- Painting with a visible color leaves no cell transparent. -/
theorem Painted.covered
    {before after : Canvas}
    {color : Color}
    (painted : Painted color before after)
    (visible : color ≠ .transparent)
    (covered : before.Covered) :
    after.Covered :=
  painted.preserves (fun _ x y holds => holds.paint x y visible) covered

end Canvas

/-- A side with a center cell. -/
def Brush.HasCenter (brush : Brush) : Prop :=
  1 ≤ brush.size.toInt ∧ brush.size.toInt % 2 = 1

/-- The brush of a start has a center. -/
theorem Brush.hasCenter_initial : initial.HasCenter :=
  ⟨by decide, by decide⟩

/-- An adjusted side is positive and odd. -/
theorem Brush.odd_of_adjustedSize?
    {requested size : Number}
    (adjusted : adjustedSize? requested = some size) :
    1 ≤ size.toInt ∧ size.toInt % 2 = 1 := by
  have largest := Int32.toInt_lt requested
  unfold adjustedSize? at adjusted
  split at adjusted
  · cases adjusted
  · split at adjusted
    · cases adjusted
      -- An even positive number is at least two, so one less is a number again.
      have less : (requested - 1).toInt = requested.toInt - 1 := by
        rw [Int32.toInt_sub, Int32.toInt_one]
        apply Int.bmod_eq_of_le <;> omega
      omega
    · cases adjusted
      omega

namespace Action.Succeeds

variable
  {program : Program}
  {moment after : Moment}
  {node : Node}
  {flow : Flow}

/-- An instruction only paints, and never with the transparent color. -/
theorem painted
    (succeeds : Succeeds program moment node flow after) :
    ∃ color,
      color ≠ .transparent ∧
        Canvas.Painted color moment.canvas after.canvas := by
  cases succeeds with
  | @draw command nodes location directionY directionX distance x y extents =>
      unfold Moment.painted
      split
      · exact ⟨.white, by decide, .refl⟩
      · rename_i visible
        exact ⟨moment.brush.color, visible, command.painted_stroke ..⟩
  | fill visible inside =>
      exact ⟨moment.brush.color, visible, Canvas.Painted.flood ..⟩
  | spawn | setColor | setSize | assign | label | stay | jump | expression =>
      exact ⟨.white, by decide, .refl⟩

/-- An instruction that succeeds leaves a brush with a center. -/
theorem hasCenter
    (succeeds : Succeeds program moment node flow after)
    (centered : moment.brush.HasCenter) :
    after.brush.HasCenter := by
  cases succeeds with
  | setSize adjusted =>
      exact Brush.odd_of_adjustedSize? adjusted
  | spawn | setColor | draw | fill | assign | label | stay | jump
  | expression =>
      exact centered

/--
Execution goes on at an instruction of the program or right after the last one.
-/
theorem target_le
    (succeeds : Succeeds program moment node flow after)
    (within : moment.next < program.length) :
    flow.target moment.next ≤ program.length := by
  cases succeeds with
  | jump evaluated isTrue declared =>
      obtain ⟨location, labelled⟩ := exists_label_of_labelIndex? declared
      exact (List.getElem?_eq_some_iff.mp labelled).1
  | spawn | setColor | setSize | draw | fill | assign | label | stay
  | expression =>
      exact within

end Action.Succeeds

/-- The exact names are those of the colors of the palette. -/
theorem Color.isSome_ofName?_iff
    {text : String} :
    (ofName? text).isSome ↔ ∃ color : Color, text = color.name := by
  constructor
  · intro named
    obtain ⟨color, found⟩ := Option.isSome_iff_exists.mp named
    have same := List.find?_some found
    exact ⟨color, (eq_of_beq same).symm⟩
  · rintro ⟨color, rfl⟩
    cases color <;> decide

namespace Moment

/-- The strings among the variables are the names of colors of the palette. -/
theorem named_iff
    {moment : Moment} :
    moment.Named ↔
      ∀ name text,
        moment.bindings.get? name = some (.string text) →
        ∃ color : Color, text = color.name := by
  constructor
  · intro named name text bound
    exact Color.isSome_ofName?_iff.mp (named name _ bound text rfl)
  · intro names name value bound text isText
    cases value with
    | string =>
        cases isText
        exact Color.isSome_ofName?_iff.mpr (names name text bound)
    | int | bool =>
        cases isText

/-- What holds between two instructions of a program on a canvas of a size. -/
structure WellFormed
    (program : Program)
    (size : Nat)
    (moment : Moment) :
    Prop where
  side : moment.canvas.size = size
  cells : moment.canvas.cells.size = size * size
  closed : moment.Closed
  covered : moment.canvas.Covered
  centered : moment.brush.HasCenter
  next : moment.next ≤ program.length
  names :
    ∀ name text,
      moment.bindings.get? name = some (.string text) →
      ∃ color : Color, text = color.name

/-- Execution starts at a well-formed moment. -/
theorem wellFormed_initial
    (program : Program)
    (size : Nat) :
    WellFormed program size (initial size) where
  side := rfl
  cells := Array.size_replicate
  closed := rfl
  covered := Canvas.covered_blank size
  centered := Brush.hasCenter_initial
  next := Nat.zero_le _
  names := named_iff.mp (named_initial size)

/--
Executing an instruction keeps moments well formed, whether it succeeds or
fails.
-/
theorem stable_wellFormed
    (program : Program)
    (size : Nat) :
    Stable program (WellFormed program size) where
  follows := by
    rintro moment later ⟨node, flow, after, found, succeeds, rfl, _⟩ wellFormed
    obtain ⟨performed, effect, rfl⟩ := Action.execute_ok succeeds
    obtain ⟨color, visible, painted⟩ := effect.painted
    have side : performed.canvas.size = size :=
      effect.frame.2.2.trans wellFormed.side
    have within : moment.next < program.length :=
      (List.getElem?_eq_some_iff.mp found).1
    exact
      { side
        cells := side ▸ performed.canvas.cells_size
        closed := rfl
        covered := painted.covered visible wellFormed.covered
        centered := effect.hasCenter wellFormed.centered
        next := effect.target_le within
        names := named_iff.mp (effect.named (named_iff.mpr wellFormed.names)) }
  breaks := by
    rintro moment after error ⟨node, _, fails⟩ wellFormed
    obtain ⟨_, rfl⟩ := Action.execute_error fails
    exact { wellFormed with closed := rfl }

/--
Where all strings among the variables are names of colors, a call fails on an
unknown color only by the failure of one of its arguments.
-/
theorem Named.argument_of_invalidColor
    {moment : Moment}
    (named : moment.Named)
    {function : Builtin}
    {arguments : List Node}
    {location place : Location}
    {text : String}
    (fails :
      moment.evaluate (.call function arguments location) =
        .error ⟨.invalidColor text, place⟩) :
    ∃ argument ∈ arguments,
      moment.evaluate argument = .error ⟨.invalidColor text, place⟩ := by
  cases evaluate_error fails with
  | operand member inside =>
      exact ⟨_, member, inside⟩
  | color member evaluated unnamed =>
      have isName := isNamed_of_evaluate named evaluated _ rfl
      have found := Color.ofAnyCase?_of_ofName? isName
      rw [unnamed] at found
      cases found

end Moment

namespace Machine

/-- A turn, whether it ends the run or not, stays within the step limit. -/
theorem steps_le_of_turn
    {machine after : Machine}
    {result : Option (Except RunError Unit)}
    (turned : machine.turn = (after, result))
    (bounded : machine.steps ≤ machine.stepLimit) :
    after.steps ≤ after.stepLimit := by
  have spec := turn_spec machine
  rw [turned] at spec
  cases spec with
  | finished | exhausted =>
      exact bounded
  | failed found below fails =>
      exact below
  | advanced found below succeeds =>
      rw [(record_steps _).1, (record_steps _).2]
      exact below

/-- No machine that a run visits has taken more steps than its limit. -/
theorem steps_le_of_visits
    {machine later : Machine}
    (visited : Visits machine later)
    (bounded : machine.steps ≤ machine.stepLimit) :
    later.steps ≤ later.stepLimit := by
  have start : machine.record.steps ≤ machine.record.stepLimit := by
    rw [(record_steps machine).1, (record_steps machine).2]
    exact bounded
  cases visited with
  | passes passed =>
      exact passed.preserves steps_le_of_turn start
  | ends passed ended =>
      have last :=
        steps_le_of_turn ended (passed.preserves steps_le_of_turn start)
      exact last

/--
Runs and moves, in any order, never take more steps than the limit allows.
-/
theorem Reached.steps_le
    {program : Program}
    {size : Nat}
    {machine : Machine}
    (reached : Reached program size machine) :
    machine.steps ≤ machine.stepLimit := by
  induction reached with
  | load stepLimit budget =>
      exact Nat.zero_le stepLimit
  | run _ visited inductionHypothesis =>
      exact steps_le_of_visits visited inductionHypothesis
  | @move machine _ move inductionHypothesis =>
      rcases move_spec machine move with same | ⟨_, _, _, _, _, moved⟩
      · rw [same]
        exact inductionHypothesis
      · rw [moved]
        exact inductionHypothesis

/--
On every machine that runs and moves lead to, the current moment and all
recorded ones are well formed and the step limit is kept.  With the variables of
such a machine, a call never fails because a text that was evaluated names no
color: only an argument that fails itself makes it fail in this way.
-/
theorem wellFormed_of_reached
    {program : Program}
    {size : Nat}
    {machine : Machine}
    (reached : Reached program size machine) :
    Holds (Moment.WellFormed program size) machine ∧
      machine.steps ≤ machine.stepLimit ∧
      ∀ (moment : Moment) (function : Builtin) (arguments : List Node)
        (location place : Location) (text : String),
        moment.bindings = machine.moment.bindings →
        moment.evaluate (.call function arguments location) =
          .error ⟨.invalidColor text, place⟩ →
        ∃ argument ∈ arguments,
          moment.evaluate argument = .error ⟨.invalidColor text, place⟩ := by
  have holds :=
    (reached.keeps (Moment.stable_wellFormed program size)
      (Moment.wellFormed_initial program size)).holds
  refine ⟨holds, reached.steps_le, ?_⟩
  intro moment function arguments location place text same fails
  have named : moment.Named := by
    rw [Moment.named_iff, same]
    exact holds.current.names
  exact named.argument_of_invalidColor fails

/--
A brush of side four is lowered to three, a color name is kept in a variable and
asked for, and a fill outside the canvas fails.  The machine is then moved back
and run once more.  Asking it for pink fails, by the failure of the literal.
-/
theorem wellFormed_of_reached_failed_fill :
    let program : Program :=
      [.spawn 0 0 ⟨1, 1⟩,
        .setSize 4 ⟨2, 1⟩,
        .assign "c" (.text "Red" ⟨3, 6⟩) ⟨3, 1⟩,
        .setColor "Red" ⟨4, 1⟩,
        .draw .line
          [.number 0 ⟨5, 10⟩, .number 1 ⟨5, 13⟩, .number 5 ⟨5, 16⟩] ⟨5, 1⟩,
        .assign "b" (.call .isBrushColor [.read "c" ⟨6, 19⟩] ⟨6, 6⟩) ⟨6, 1⟩,
        .fill ⟨7, 1⟩]
    let machine :=
      (((load program 3 20 (some 2000)).run.1.move .backward).run).1
    let pink : Node := .text "Pink" ⟨8, 14⟩
    let unknown : RunError := ⟨.invalidColor "Pink", ⟨8, 14⟩⟩
    machine.moment.brush.size = 3 ∧
      machine.recorded = 8 ∧
      machine.failed = some 6 ∧
      Holds (Moment.WellFormed program 3) machine ∧
      machine.steps ≤ machine.stepLimit ∧
      machine.moment.evaluate (.call .isBrushColor [pink] ⟨8, 1⟩) =
        .error unknown ∧
      ∃ argument ∈ [pink],
        machine.moment.evaluate argument = .error unknown := by
  intro program machine pink unknown
  have reached : Reached program 3 machine :=
    .run (.move (.run (.load 20 (some 2000)) (visits_run _)) .backward)
      (visits_run _)
  obtain ⟨holds, bounded, argumentFails⟩ := wellFormed_of_reached reached
  have asked :
      machine.moment.evaluate (.call .isBrushColor [pink] ⟨8, 1⟩) =
        .error unknown :=
    rfl
  exact ⟨by decide +kernel, by decide +kernel, by decide +kernel, holds,
    bounded, asked,
    argumentFails machine.moment .isBrushColor [pink] ⟨8, 1⟩ ⟨8, 14⟩
      "Pink" rfl asked⟩

end Machine

end PixelBrush
