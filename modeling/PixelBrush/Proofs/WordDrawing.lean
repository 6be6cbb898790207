import PixelBrush.Proofs.Instructions
import PixelBrush.Proofs.WordRings
import PixelBrush.Proofs.WordSegments

namespace PixelBrush.Words

open Checked

/-!
# Drawing in words

A drawing instruction evaluates its arguments, finds the position that the brush
moves to and paints a figure.  In words the figure is painted by calculations
that stop at the first value which a word cannot hold.  On a canvas of at most
512 cells a side this never happens, wherever the brush is and whatever figure
is admitted, so the instruction ends as it does on exact integers: no value
overflows and no narrowing loses anything.
-/

/--
The figure that a drawing command paints when it moves the brush to a position.
-/
def stroke
    (command : DrawCommand)
    (x y distance : Number)
    (extents : List Number)
    (brush : Brush)
    (canvas : Canvas) :
    Checked Canvas :=
  match command, extents with
  | .line, _ =>
      drawSegment canvas ⟨⟨brush.x.toInt, brush.y.toInt⟩, ⟨x.toInt, y.toInt⟩⟩
        brush.color brush.size.toInt
  | .circle, _ =>
      drawRing canvas ⟨⟨x.toInt, y.toInt⟩, distance.toInt⟩ brush.color
        brush.size.toInt
  | .rectangle, [width, height] =>
      drawBox canvas ⟨x.toInt, y.toInt⟩ width.toInt height.toInt brush.color
        brush.size.toInt
  | .rectangle, _ => return canvas

/-- Wherever a brush is, it is near. -/
theorem near_numbers (x y : Number) :
    Near ⟨x.toInt, y.toInt⟩ := by
  have column := Number.inRange_toInt x
  have row := Number.inRange_toInt y
  simp only [Number.InRange] at column row
  simp only [Near]
  omega

/--
A figure that is long enough is painted in words as it is on exact integers.
-/
theorem stroke_eq
    {command : DrawCommand}
    {distance : Number}
    (long : (PixelBrush.Action.leastDistance command).toInt ≤ distance.toInt)
    (x y : Number)
    (extents : List Number)
    (brush : Brush)
    {canvas : Canvas}
    (side : canvas.size ≤ 512) :
    stroke command x y distance extents brush canvas =
      some (command.stroke x y distance extents brush canvas) := by
  have inRange := Number.inRange_toInt
  cases command with
  | line =>
      exact drawSegment_eq (near_numbers _ _) (near_numbers x y) _
        side (inRange _)
  | circle =>
      have admitted : Admitted ⟨⟨x.toInt, y.toInt⟩, distance.toInt⟩ :=
        ⟨inRange x, inRange y, long, (inRange distance).2⟩
      exact drawRing_eq _ side admitted (inRange _)
  | rectangle =>
      match extents with
      | [width, height] =>
          exact drawBox_eq _ side (inRange _) (inRange x) (inRange y)
            (inRange width)
            (inRange height)
      | [] | [_] | _ :: _ :: _ :: _ =>
          rfl

/--
What acts on a moment in words: it has no result when a value could not be held.
-/
def Action (Result : Type) : Type :=
  Moment → Checked (EStateM.Result RunError Moment Result)

namespace Action

instance : Monad Action where
  pure value := fun moment => some (.ok value moment)
  bind first rest := fun moment => do
    match ← first moment with
    | .ok value after => rest value after
    | .error error after => return .error error after

/-- What calculates nothing in words acts as it does on exact integers. -/
def ofExact (action : PixelBrush.Action Result) : Action Result :=
  fun moment => some (action moment)

/-- Paints with the brush; a transparent brush leaves the canvas alone. -/
def paint (stroke : Brush → Canvas → Checked Canvas) : Action Unit :=
  fun moment =>
    if moment.brush.color = .transparent then
      return .ok () moment
    else do
      let canvas ← stroke moment.brush moment.canvas
      return .ok () { moment with canvas }

/--
Draws a figure without extents and moves the brush to the end of it or into its
center.
-/
def drawFigure
    (command : DrawCommand)
    (directionY directionX distance : Node)
    (location : Location) :
    Action Unit := do
  let directionY ← ofExact (.int directionY)
  let directionX ← ofExact (.int directionX)
  let distance ← ofExact (.int distance)
  let (x, y) ← ofExact
    (.destination command directionY directionX distance location)
  paint (stroke command x y distance [])
  ofExact (.changeBrush (·.moveTo x y))

/-- Draws and moves the brush to the end of a line or the center of a figure. -/
def draw
    (command : DrawCommand)
    (arguments : List Node)
    (location : Location) :
    Action Unit :=
  match command, arguments with
  | .line, [directionY, directionX, distance] =>
      drawFigure .line directionY directionX distance location
  | .circle, [directionY, directionX, radius] =>
      drawFigure .circle directionY directionX radius location
  | .rectangle, [directionY, directionX, distance, width, height] => do
      let directionY ← ofExact (.int directionY)
      let directionX ← ofExact (.int directionX)
      let distance ← ofExact (.int distance)
      let width ← ofExact (.int width)
      let height ← ofExact (.int height)
      let (x, y) ← ofExact
        (.destination .rectangle directionY directionX distance location)
      if width.toInt ≤ 0 || height.toInt ≤ 0 then
        ofExact (throw ⟨.badArgument (.extent width height), location⟩)
      else
        paint (stroke .rectangle x y distance [width, height])
        ofExact (.changeBrush (·.moveTo x y))
  | _, _ =>
      ofExact
        (throw ⟨.badArgument (.drawArity command arguments.length), location⟩)

/-- An action in words that ends as an exact one does. -/
def Agrees
    (action : Action Result)
    (exactly : PixelBrush.Action Result)
    (moment : Moment) :
    Prop :=
  action moment = some (exactly moment)

section Agreement

variable
  {moment : Moment}

/-- An action without calculations is the same in words. -/
theorem agrees_ofExact (exactly : PixelBrush.Action Result) :
    (ofExact exactly).Agrees exactly moment :=
  rfl

/-- Two parts that end as they should do so one after the other. -/
theorem Agrees.bind
    {first : Action Middle}
    {exactFirst : PixelBrush.Action Middle}
    {rest : Middle → Action Result}
    {exactRest : Middle → PixelBrush.Action Result}
    (agrees : first.Agrees exactFirst moment)
    (goesOn :
      ∀ value after,
        exactFirst moment = .ok value after →
        (rest value).Agrees (exactRest value) after) :
    (first >>= rest).Agrees (exactFirst >>= exactRest) moment := by
  unfold Agrees at agrees ⊢
  cases done : exactFirst moment with
  | ok value after =>
      rw [done] at agrees
      rw [PixelBrush.Action.bind_of_ok done, ← goesOn value after done]
      exact bind_of_some agrees _
  | error error after =>
      rw [done] at agrees
      rw [PixelBrush.Action.bind_of_error done]
      exact bind_of_some agrees _

/-- After an argument was evaluated, the rest of the action decides. -/
theorem agrees_int
    {argument : Node}
    {rest : Number → Action Result}
    {exactRest : Number → PixelBrush.Action Result}
    (goesOn : ∀ number, (rest number).Agrees (exactRest number) moment) :
    (ofExact (.int argument) >>= rest).Agrees
      (.int argument >>= exactRest) moment := by
  apply (agrees_ofExact _).bind
  intro number after done
  cases evaluated : moment.evaluateInt argument with
  | error error =>
      rw [PixelBrush.Action.int_of_error evaluated] at done
      cases done
  | ok value =>
      rw [PixelBrush.Action.int_of_ok evaluated] at done
      cases done
      exact goesOn number

/-- After the brush found its new position, the rest of the action decides. -/
theorem agrees_destination
    {command : DrawCommand}
    {directionY directionX distance : Number}
    {location : Location}
    {rest : Number × Number → Action Result}
    {exactRest : Number × Number → PixelBrush.Action Result}
    (goesOn :
      ∀ x y : Number,
        (PixelBrush.Action.leastDistance command).toInt ≤ distance.toInt →
        (rest (x, y)).Agrees (exactRest (x, y)) moment) :
    (ofExact (.destination command directionY directionX distance location) >>=
      rest).Agrees
      (.destination command directionY directionX distance location >>=
        exactRest) moment := by
  apply (agrees_ofExact _).bind
  intro position after done
  have spec :=
    PixelBrush.Action.destination_spec command directionY directionX distance
      location moment
  rw [done] at spec
  cases spec with
  | @reached x y _ long _ _ =>
      exact goesOn x y long

/-- Painting and then moving, when the figure is painted as it should be. -/
theorem agrees_paint_then_move
    {strokes : Brush → Canvas → Checked Canvas}
    {exactly : Brush → Canvas → Canvas}
    (fits :
      strokes moment.brush moment.canvas =
        some (exactly moment.brush moment.canvas))
    (x y : Number) :
    Agrees
      (do
        paint strokes
        ofExact (.changeBrush (·.moveTo x y)))
      (do
        .paint exactly
        .changeBrush (·.moveTo x y))
      moment := by
  have painted : (paint strokes).Agrees (.paint exactly) moment := by
    unfold Agrees paint
    rw [PixelBrush.Action.paint_eq, Moment.painted]
    split
    · rfl
    · rw [bind_of_some fits]
      rfl
  exact painted.bind fun _ _ _ => agrees_ofExact _

/-- A figure without extents has three arguments. -/
theorem agrees_figure
    (side : moment.canvas.size ≤ 512)
    (command : DrawCommand)
    (first second third : Node)
    (location : Location) :
    (drawFigure command first second third location).Agrees
      (do
        let directionY ← .int first
        let directionX ← .int second
        let distance ← .int third
        let (x, y) ← .destination command directionY directionX
          distance location
        .paint (command.stroke x y distance [])
        .changeBrush (·.moveTo x y))
      moment := by
  apply agrees_int
  intro directionY
  apply agrees_int
  intro directionX
  apply agrees_int
  intro distance
  apply agrees_destination
  intro x y long
  exact agrees_paint_then_move (stroke_eq long x y [] _ side) x y

end Agreement

/--
On a canvas of at most 512 cells a side, a drawing instruction in words ends as
it does on exact integers, whatever the brush and the arguments are.  So every
value that it calculates on the way is held by its word, also where a word is
narrowed.
-/
theorem drawing_never_overflows
    {moment : Moment}
    (side : moment.canvas.size ≤ 512)
    (command : DrawCommand)
    (arguments : List Node)
    (location : Location) :
    draw command arguments location moment =
      some (PixelBrush.Action.draw command arguments location moment) := by
  change (draw command arguments location).Agrees
    (PixelBrush.Action.draw command arguments location) moment
  unfold draw
  split
  · exact agrees_figure side .line _ _ _ location
  · exact agrees_figure side .circle _ _ _ location
  · rw [PixelBrush.Action.draw]
    apply agrees_int
    intro directionY
    apply agrees_int
    intro directionX
    apply agrees_int
    intro distance
    apply agrees_int
    intro width
    apply agrees_int
    intro height
    apply agrees_destination
    intro x y long
    dsimp only
    split
    · exact agrees_ofExact _
    · exact agrees_paint_then_move
        (stroke_eq long x y [width, height] _ side) x y
  · rename_i notLine notCircle notRectangle
    rw [PixelBrush.Action.draw]
    · exact agrees_ofExact _
    · exact notLine
    · exact notCircle
    · exact notRectangle

/--
The largest brush at the last position draws the largest ring around itself.
-/
theorem drawing_never_overflows_largest_ring :
    let moment : Moment :=
      { Moment.initial 512 with
        brush := ⟨2147483647, 2147483647, .red, 2147483647⟩ }
    let arguments : List Node :=
      [.number 0 .start, .number 0 .start, .number 2147483647 .start]
    moment.canvas.size ≤ 512 ∧
      draw .circle arguments .start moment =
        some (PixelBrush.Action.draw .circle arguments .start moment) :=
  ⟨Nat.le_refl 512, drawing_never_overflows (Nat.le_refl 512) _ _ _⟩

end Action

end PixelBrush.Words
