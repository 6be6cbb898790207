import PixelBrush.Proofs.Instructions
import PixelBrush.Proofs.StraightSegments

namespace PixelBrush.Action

/-!
# Drawing a line, from its arguments to its cells

The arguments of a line are the direction downwards, the direction to the right
and the distance.  As long as the position that they lead to is one that the
brush can have, a line succeeds: it moves the brush there and colors the cells
within reach of the points on the way.  A transparent brush makes the same move
and colors nothing.
-/

/--
Opening a journal and marking the place change the value of no expression.
-/
theorem evaluate_opened
    (moment : Moment)
    (performed node : Node) :
    (opened moment performed).evaluate node = moment.evaluate node := by
  induction node using Node.operandInduction with
  | step node inductionHypothesis =>
      cases node with
      | call function arguments location =>
          have same :
              ∀ argument ∈ arguments,
                (opened moment performed).evaluate argument =
                  moment.evaluate argument :=
            inductionHypothesis
          unfold Moment.evaluate
          split
          · rfl
          · rfl
          · rfl
          · simp (disch := simp) only [same]
            rfl
          · simp (disch := simp) only [same]
            rfl
          · simp (disch := simp) only [same]
            rfl
          · simp (disch := simp) only [same]
            rfl
          · rfl
      | arithmetic operator left right location =>
          simp only [Moment.evaluate,
            inductionHypothesis left (by simp [Node.operands]),
            inductionHypothesis right (by simp [Node.operands])]
      | boolean operator left right location =>
          simp only [Moment.evaluate,
            inductionHypothesis left (by simp [Node.operands]),
            inductionHypothesis right (by simp [Node.operands])]
      | _ =>
          rfl

/-- An argument of an instruction has the same value while it is performed. -/
theorem evaluateInt_opened
    {moment : Moment}
    (performed : Node)
    {node : Node}
    {number : Number}
    (evaluated : moment.evaluate node = .ok (.int number)) :
    (opened moment performed).evaluateInt node = .ok number := by
  rw [Moment.evaluateInt, evaluate_opened, evaluated]
  rfl

/--
What performing an instruction leaves is what executing it leaves, with no
journal open.
-/
theorem execute_of_perform
    {program : Program}
    {node : Node}
    {moment after : Moment}
    {flow : Flow}
    (performed : perform program node (opened moment node) = .ok flow after) :
    execute program node moment =
      .ok flow (changeCanvas after Canvas.commit) := by
  unfold execute
  rw [opened] at performed
  dsimp only
  rw [performed]

/--
A direction, a distance that is not too short and a target in range lead there.
-/
theorem exists_destination
    (moment : Moment)
    (command : DrawCommand)
    {directionY directionX distance : Number}
    (location : Location)
    (directed :
      Number.isDirection directionX = true ∧
        Number.isDirection directionY = true)
    (long : (leastDistance command).toInt ≤ distance.toInt)
    (column :
      Number.InRange (moment.brush.x.toInt + directionX.toInt * distance.toInt))
    (row :
      Number.InRange
        (moment.brush.y.toInt + directionY.toInt * distance.toInt)) :
    ∃ x y : Number,
      destination command directionY directionX distance location moment =
          .ok (x, y) moment ∧
        x.toInt = moment.brush.x.toInt + directionX.toInt * distance.toInt ∧
        y.toInt = moment.brush.y.toInt + directionY.toInt * distance.toInt := by
  have spec :=
    destination_spec command directionY directionX distance location moment
  generalize destination command directionY directionX distance location
    moment = result at *
  cases spec with
  | @reached x y _ _ isColumn isRow =>
      exact ⟨x, y, rfl, isColumn, isRow⟩
  | undirected wrong =>
      rw [directed.1, directed.2, or_self] at wrong
      cases wrong
  | short below =>
      exact absurd long (Int.not_le.mpr below)
  | overflow outOfRange =>
      rcases outOfRange with wrong | wrong
      · exact absurd column wrong
      · exact absurd row wrong

/--
Once its arguments are evaluated and its end is found, a line paints and moves.
-/
theorem perform_line
    (program : Program)
    {moment : Moment}
    {nodeY nodeX nodeDistance : Node}
    {directionY directionX distance x y : Number}
    {location : Location}
    (evaluatedY : moment.evaluateInt nodeY = .ok directionY)
    (evaluatedX : moment.evaluateInt nodeX = .ok directionX)
    (evaluatedDistance : moment.evaluateInt nodeDistance = .ok distance)
    (found :
      destination .line directionY directionX distance location moment =
        .ok (x, y) moment) :
    perform program (.draw .line [nodeY, nodeX, nodeDistance] location) moment =
      .ok .next
        { moment.painted (DrawCommand.line.stroke x y distance []) with
          brush := moment.brush.moveTo x y } := by
  have drawn :
      draw .line [nodeY, nodeX, nodeDistance] location moment =
        .ok ()
          { moment.painted (DrawCommand.line.stroke x y distance []) with
            brush := moment.brush.moveTo x y } := by
    rw [draw, bind_of_ok (int_of_ok evaluatedY),
      bind_of_ok (int_of_ok evaluatedX),
      bind_of_ok (int_of_ok evaluatedDistance), bind_of_ok found]
    exact paint_then_move _ x y moment
  exact bind_of_ok drawn _

/--
The cells within reach of a point that at most so many equal steps lead to.
-/
def NearLine
    (brush : Brush)
    (directionX directionY distance : Number)
    (x y : Int) :
    Prop :=
  ∃ k : Nat,
    k ≤ distance.toInt ∧
      Point.distance ⟨x, y⟩
          ⟨brush.x.toInt + directionX.toInt * k,
            brush.y.toInt + directionY.toInt * k⟩ ≤
        brush.size.toInt.tdiv 2

/--
The stroke of a line colors the cells within reach of the points on the way.
-/
theorem colors_line
    (canvas : Canvas)
    (brush : Brush)
    {directionY directionX distance x y : Number}
    (isDown : Segment.IsUnit directionY.toInt)
    (isRight : Segment.IsUnit directionX.toInt)
    (forward : 0 ≤ distance.toInt)
    (column : x.toInt = brush.x.toInt + directionX.toInt * distance.toInt)
    (row : y.toInt = brush.y.toInt + directionY.toInt * distance.toInt) :
    Canvas.Colors brush.color
      (NearLine brush directionX directionY distance) canvas
      (DrawCommand.line.stroke x y distance [] brush canvas) := by
  have length : (distance.toInt.toNat : Int) = distance.toInt :=
    Int.toNat_of_nonneg forward
  have shape :
      (⟨⟨brush.x.toInt, brush.y.toInt⟩, ⟨x.toInt, y.toInt⟩⟩ : Segment) =
        .along ⟨brush.x.toInt, brush.y.toInt⟩ directionX.toInt directionY.toInt
          distance.toInt.toNat := by
    rw [Segment.along, length, column, row]
  unfold DrawCommand.stroke
  rw [shape]
  apply (Canvas.colors_drawSegment canvas _ brush.color brush.size.toInt).congr
  intro u v _
  constructor
  · rintro ⟨point, contains, near⟩
    obtain ⟨k, inside, rfl⟩ :=
      (Segment.contains_along_iff isRight isDown).mp contains
    exact ⟨k, by omega, near⟩
  · rintro ⟨k, inside, near⟩
    exact ⟨_,
      (Segment.contains_along_iff isRight isDown).mpr ⟨k, by omega, rfl⟩, near⟩

/-- The components of a unit step are accepted as a direction. -/
theorem isDirection_of_isUnit
    {number : Number}
    (isUnit : Segment.IsUnit number.toInt) :
    Number.isDirection number = true := by
  unfold Number.isDirection
  rcases isUnit with back | still | ahead
  · rw [back]
    rfl
  · rw [still]
    rfl
  · rw [ahead]
    rfl

/--
A line whose arguments are the components of a direction and a distance succeeds
if the position it leads to is in range.  It moves the brush there, keeps
everything else about the brush and all variables, and gives the color of the
brush to the cells within reach of the points on the way and to no others.  A
transparent brush leaves all cells as they are.
-/
theorem execute_line
    (program : Program)
    (moment : Moment)
    {nodeY nodeX nodeDistance : Node}
    {directionY directionX distance : Number}
    (location : Location)
    (evaluatedY : moment.evaluate nodeY = .ok (.int directionY))
    (evaluatedX : moment.evaluate nodeX = .ok (.int directionX))
    (evaluatedDistance : moment.evaluate nodeDistance = .ok (.int distance))
    (isDown : Segment.IsUnit directionY.toInt)
    (isRight : Segment.IsUnit directionX.toInt)
    (forward : 0 ≤ distance.toInt)
    (column :
      Number.InRange (moment.brush.x.toInt + directionX.toInt * distance.toInt))
    (row :
      Number.InRange
        (moment.brush.y.toInt + directionY.toInt * distance.toInt)) :
    ∃ after,
      execute program
        (.draw .line [nodeY, nodeX, nodeDistance] location) moment =
          .ok .next after ∧
        after.brush.x.toInt =
          moment.brush.x.toInt + directionX.toInt * distance.toInt ∧
        after.brush.y.toInt =
          moment.brush.y.toInt + directionY.toInt * distance.toInt ∧
        after.brush.color = moment.brush.color ∧
        after.brush.size = moment.brush.size ∧
        after.bindings = moment.bindings ∧
        (moment.brush.color ≠ .transparent →
          Canvas.Colors moment.brush.color
            (NearLine moment.brush directionX directionY distance)
            moment.canvas after.canvas) ∧
        (moment.brush.color = .transparent →
          after.canvas.size = moment.canvas.size ∧
            after.canvas.cells = moment.canvas.cells) := by
  let node : Node := .draw .line [nodeY, nodeX, nodeDistance] location
  obtain ⟨x, y, found, isColumn, isRow⟩ :=
    exists_destination (opened moment node) .line location
      ⟨isDirection_of_isUnit isRight, isDirection_of_isUnit isDown⟩
        forward column row
  have performed :=
    perform_line program (evaluateInt_opened node evaluatedY)
      (evaluateInt_opened node evaluatedX)
        (evaluateInt_opened node evaluatedDistance) found
  refine ⟨_, execute_of_perform performed, isColumn, isRow, rfl, rfl, ?_, ?_,
    ?_⟩
  · unfold Moment.painted
    split <;> rfl
  · intro visible
    have colors :=
      colors_line (opened moment node).canvas moment.brush isDown isRight
        forward isColumn isRow
    have painted :
        (opened moment node).painted (DrawCommand.line.stroke x y distance []) =
          _ :=
      if_neg visible
    rw [painted]
    -- Sizes and colors of cells do not depend on the journal.
    exact ⟨colors.size, colors.colored, colors.kept⟩
  · intro invisible
    have untouched :
        (opened moment node).painted (DrawCommand.line.stroke x y distance []) =
          _ :=
      if_pos invisible
    rw [untouched]
    exact ⟨rfl, rfl⟩

/--
The brush stands left of the canvas and below it, and the line leads through the
canvas along a diagonal to the largest distance there is.
-/
theorem execute_line_across :
    let moment : Moment := { Moment.initial 3 with brush := ⟨-2, 4, .red, 1⟩ }
    let node : Node :=
      .draw .line
        [.number (-1) ⟨1, 10⟩, .number 1 ⟨1, 14⟩, .number 2147483647 ⟨1, 17⟩]
          ⟨1, 1⟩
    ∃ after,
      execute [] node moment = .ok .next after ∧
        after.brush.x.toInt = 2147483645 ∧
        after.brush.y.toInt = -2147483643 ∧
        after.canvas.get? 0 2 = some .red ∧
        after.canvas.get? 1 1 = some .red ∧
        after.canvas.get? 2 0 = some .red ∧
        after.canvas.get? 2 2 = some .white := by
  intro moment node
  have up : moment.evaluate (.number (-1) ⟨1, 10⟩) = .ok (.int (-1)) := rfl
  have right : moment.evaluate (.number 1 ⟨1, 14⟩) = .ok (.int 1) := rfl
  have far :
      moment.evaluate (.number 2147483647 ⟨1, 17⟩) = .ok (.int 2147483647) :=
    rfl
  obtain ⟨after, done, column, row, _, _, _, colors, _⟩ :=
    execute_line [] moment ⟨1, 1⟩ up right far (.inl rfl)
      (.inr (.inr rfl)) (by decide)
      (by decide) (by decide)
  have painted := colors (by decide)
  have offTheLine : ¬ NearLine moment.brush 1 (-1) 2147483647 2 2 := by
    rintro ⟨k, _, near⟩
    have column : moment.brush.x.toInt = -2 := by decide
    have row : moment.brush.y.toInt = 4 := by decide
    have half : moment.brush.size.toInt.tdiv 2 = 0 := by decide
    have right : Int32.toInt 1 = 1 := by decide
    have up : Int32.toInt (-1) = -1 := by decide
    rw [column, row, half, right, up, Point.distance] at near
    dsimp only at near
    omega
  refine ⟨after, done, column.trans (by decide), row.trans (by decide), ?_, ?_,
    ?_, ?_⟩
  · exact painted.colored 0 2 (by decide) ⟨2, by decide, by decide⟩
  · exact painted.colored 1 1 (by decide) ⟨3, by decide, by decide⟩
  · exact painted.colored 2 0 (by decide) ⟨4, by decide, by decide⟩
  · exact (painted.kept 2 2 (by decide) offTheLine).trans (by decide)

end PixelBrush.Action
