import Mathlib.Data.List.Forall2
import PixelBrush.Machine.Action
import PixelBrush.Proofs.Evaluation
import PixelBrush.Proofs.Painting

namespace PixelBrush

/-!
# What instructions do

Performing an instruction has a short list of outcomes.  `Action.Succeeds` lists
the ways to succeed, with the moment and the flow that follow, and
`Action.Fails` lists the ways to fail.  A failing instruction has not yet
changed anything.  Later modules argue about these lists and leave the
definition of `perform` closed.
-/

/--
The figure that a drawing command paints when it moves the brush to a position.
-/
def DrawCommand.stroke
    (command : DrawCommand)
    (x y distance : Number)
    (extents : List Number)
    (brush : Brush)
    (canvas : Canvas) :
    Canvas :=
  match command, extents with
  | .line, _ =>
      canvas.drawSegment ⟨⟨brush.x.toInt, brush.y.toInt⟩, ⟨x.toInt, y.toInt⟩⟩
        brush.color brush.size.toInt
  | .circle, _ =>
      canvas.drawRing ⟨⟨x.toInt, y.toInt⟩, distance.toInt⟩ brush.color
        brush.size.toInt
  | .rectangle, [width, height] =>
      canvas.drawBox ⟨x.toInt, y.toInt⟩ width.toInt height.toInt brush.color
        brush.size.toInt
  | .rectangle, _ => canvas

/-- A drawing command only paints with the color of the brush. -/
theorem DrawCommand.painted_stroke
    (command : DrawCommand)
    (x y distance : Number)
    (extents : List Number)
    (brush : Brush)
    (canvas : Canvas) :
    Canvas.Painted brush.color canvas
      (command.stroke x y distance extents brush canvas) := by
  unfold stroke
  split
  · exact Canvas.Painted.drawSegment ..
  · exact Canvas.Painted.drawRing ..
  · exact Canvas.Painted.drawBox ..
  · exact .refl

namespace Moment

/-- Expressions that give numbers, one each. -/
def Evaluates (moment : Moment) : List Node → List Number → Prop :=
  List.Forall₂ fun node number => moment.evaluateInt node = .ok number

/--
The moment after painting with the brush; transparent brushes leave no trace.
-/
def painted (moment : Moment) (stroke : Brush → Canvas → Canvas) : Moment :=
  if moment.brush.color = .transparent then
    moment
  else
    { moment with canvas := stroke moment.brush moment.canvas }

end Moment

namespace Action

/-- The arguments of a drawing command, with their values. -/
structure Arguments
    (moment : Moment)
    (command : DrawCommand)
    (nodes : List Node)
    (directionY directionX distance : Number)
    (extents : List Number) :
    Prop where
  arity : nodes.length = command.arity
  values :
    moment.Evaluates nodes (directionY :: directionX :: distance :: extents)

/-- The first three arguments are the directions and the distance. -/
theorem Arguments.first_three
    {moment : Moment}
    {command : DrawCommand}
    {nodes : List Node}
    {directionY directionX distance : Number}
    {extents : List Number}
    (arguments :
      Arguments moment command nodes directionY directionX distance extents) :
    ∃ nodeY nodeX nodeDistance rest,
      nodes = nodeY :: nodeX :: nodeDistance :: rest ∧
        moment.evaluateInt nodeY = .ok directionY ∧
        moment.evaluateInt nodeX = .ok directionX ∧
        moment.evaluateInt nodeDistance = .ok distance ∧
        moment.Evaluates rest extents := by
  cases arguments.values with
  | @cons nodeY _ _ _ evaluatedY afterY =>
      cases afterY with
      | @cons nodeX _ _ _ evaluatedX afterX =>
          cases afterX with
          | @cons nodeDistance _ rest _ evaluatedDistance evaluatedRest =>
              exact ⟨nodeY, nodeX, nodeDistance, rest, rfl,
                evaluatedY, evaluatedX, evaluatedDistance, evaluatedRest⟩

/-- The ways to succeed. -/
inductive Succeeds (program : Program) (moment : Moment) :
    Node → Flow → Moment → Prop where
  | spawn
      {x y : Number}
      {location : Location}
      (inside : InSquare moment.canvas.size x.toInt y.toInt) :
      Succeeds program moment (.spawn x y location) .next
        { moment with brush := moment.brush.moveTo x y }
  | setColor
      {name : String}
      {color : Color}
      {location : Location}
      (named : Color.ofName? name = some color) :
      Succeeds program moment (.setColor name location) .next
        { moment with brush := { moment.brush with color } }
  | setSize
      {requested size : Number}
      {location : Location}
      (adjusted : Brush.adjustedSize? requested = some size) :
      Succeeds program moment (.setSize requested location) .next
        { moment with brush := { moment.brush with size } }
  | draw
      {command : DrawCommand}
      {nodes : List Node}
      {location : Location}
      {directionY directionX distance x y : Number}
      {extents : List Number}
      (arguments :
        Arguments moment command nodes directionY directionX distance extents)
      (directed :
        Number.isDirection directionX = true ∧
          Number.isDirection directionY = true)
      (long : (leastDistance command).toInt ≤ distance.toInt)
      (column :
        x.toInt = moment.brush.x.toInt + directionX.toInt * distance.toInt)
      (row : y.toInt = moment.brush.y.toInt + directionY.toInt * distance.toInt)
      (positive : ∀ extent ∈ extents, 0 < extent.toInt) :
      Succeeds program moment (.draw command nodes location) .next
        { moment.painted (command.stroke x y distance extents) with
          brush := moment.brush.moveTo x y }
  | fill
      {location : Location}
      (visible : moment.brush.color ≠ .transparent)
      (inside :
        InSquare moment.canvas.size moment.brush.x.toInt moment.brush.y.toInt) :
      Succeeds program moment (.fill location) .next
        { moment with
          canvas :=
            (moment.canvas.flood moment.brush.x.toInt moment.brush.y.toInt
              moment.brush.color).canvas }
  | assign
      {name : String}
      {node : Node}
      {location : Location}
      {value : Value}
      (evaluated : moment.evaluate node = .ok value) :
      Succeeds program moment (.assign name node location) .next
        { moment with bindings := moment.bindings.set name value }
  | label
      {name : String}
      {location : Location} :
      Succeeds program moment (.label name location) .next moment
  | stay
      {target : String}
      {condition : Node}
      {location : Location}
      {value : Value}
      (evaluated : moment.evaluate condition = .ok value)
      (untrue : value.isTrue = false) :
      Succeeds program moment (.goTo target condition location) .next moment
  | jump
      {target : String}
      {condition : Node}
      {location : Location}
      {value : Value}
      {label : Nat}
      (evaluated : moment.evaluate condition = .ok value)
      (isTrue : value.isTrue = true)
      (declared : program.labelIndex? target = some label) :
      Succeeds program moment (.goTo target condition location)
        (.jump label) moment
  | expression
      {node : Node}
      {value : Value}
      (bare : node.isInstruction = false)
      (evaluated : moment.evaluate node = .ok value) :
      Succeeds program moment node .next moment

/-- The ways to fail. -/
inductive Fails (program : Program) (moment : Moment) :
    Node → RunError → Prop where
  | spawn
      {x y : Number}
      {location : Location}
      (outside : ¬ InSquare moment.canvas.size x.toInt y.toInt) :
      Fails program moment (.spawn x y location)
        ⟨.outOfBounds x y moment.canvas.size, location⟩
  | setColor
      {name : String}
      {location : Location}
      (unnamed : Color.ofName? name = none) :
      Fails program moment (.setColor name location)
        ⟨.invalidColor name, location⟩
  | setSize
      {requested : Number}
      {location : Location}
      (refused : Brush.adjustedSize? requested = none) :
      Fails program moment (.setSize requested location)
        ⟨.invalidBrushSize requested, location⟩
  | drawArity
      {command : DrawCommand}
      {nodes : List Node}
      {location : Location}
      (wrong : nodes.length ≠ command.arity) :
      Fails program moment (.draw command nodes location)
        ⟨.badArgument (.drawArity command nodes.length), location⟩
  | drawArgument
      {command : DrawCommand}
      {nodes : List Node}
      {location : Location}
      {node : Node}
      {error : RunError}
      (member : node ∈ nodes)
      (fails : moment.evaluateInt node = .error error) :
      Fails program moment (.draw command nodes location) error
  | direction
      {command : DrawCommand}
      {nodes : List Node}
      {location : Location}
      {directionY directionX distance : Number}
      {extents : List Number}
      (arguments :
        Arguments moment command nodes directionY directionX distance extents)
      (undirected :
        Number.isDirection directionX = false ∨
          Number.isDirection directionY = false) :
      Fails program moment (.draw command nodes location)
        ⟨.invalidDirection directionX directionY, location⟩
  | distance
      {command : DrawCommand}
      {nodes : List Node}
      {location : Location}
      {directionY directionX distance : Number}
      {extents : List Number}
      (arguments :
        Arguments moment command nodes directionY directionX distance extents)
      (short : distance.toInt < (leastDistance command).toInt) :
      Fails program moment (.draw command nodes location)
        ⟨.badArgument (.distance command (leastDistance command)), location⟩
  | movement
      {command : DrawCommand}
      {nodes : List Node}
      {location : Location}
      {directionY directionX distance : Number}
      {extents : List Number}
      (arguments :
        Arguments moment command nodes directionY directionX distance extents)
      (outOfRange :
        ¬ Number.InRange
          (moment.brush.x.toInt + directionX.toInt * distance.toInt) ∨
          ¬ Number.InRange
            (moment.brush.y.toInt + directionY.toInt * distance.toInt)) :
      Fails program moment (.draw command nodes location)
        ⟨.overflow
          (.movement moment.brush.x moment.brush.y distance
            directionX directionY),
          location⟩
  | extent
      {nodes : List Node}
      {location : Location}
      {directionY directionX distance width height : Number}
      (arguments :
        Arguments moment .rectangle nodes directionY directionX distance
          [width, height])
      (flat : width.toInt ≤ 0 ∨ height.toInt ≤ 0) :
      Fails program moment (.draw .rectangle nodes location)
        ⟨.badArgument (.extent width height), location⟩
  | transparentFill
      {location : Location}
      (invisible : moment.brush.color = .transparent) :
      Fails program moment (.fill location) ⟨.transparentFill, location⟩
  | fillOutside
      {location : Location}
      (visible : moment.brush.color ≠ .transparent)
      (outside :
        ¬ InSquare moment.canvas.size moment.brush.x.toInt
          moment.brush.y.toInt) :
      Fails program moment (.fill location)
        ⟨.outOfBounds moment.brush.x moment.brush.y moment.canvas.size,
          location⟩
  | assign
      {name : String}
      {node : Node}
      {location : Location}
      {error : RunError}
      (fails : moment.evaluate node = .error error) :
      Fails program moment (.assign name node location) error
  | condition
      {target : String}
      {condition : Node}
      {location : Location}
      {error : RunError}
      (fails : moment.evaluate condition = .error error) :
      Fails program moment (.goTo target condition location) error
  | undeclared
      {target : String}
      {condition : Node}
      {location : Location}
      {value : Value}
      (evaluated : moment.evaluate condition = .ok value)
      (isTrue : value.isTrue = true)
      (missing : program.labelIndex? target = none) :
      Fails program moment (.goTo target condition location)
        ⟨.unknownLabel target, location⟩
  | expression
      {node : Node}
      {error : RunError}
      (bare : node.isInstruction = false)
      (fails : moment.evaluate node = .error error) :
      Fails program moment node error

/--
An action that succeeds or fails in one of the listed ways; a failure changes
nothing.
-/
def Outcome
    (program : Program)
    (moment : Moment)
    (node : Node)
    (flow : Result → Flow) :
    EStateM.Result RunError Moment Result → Prop
  | .ok result after => Succeeds program moment node (flow result) after
  | .error error after => Fails program moment node error ∧ after = moment

/-- An action goes on with the value of a first one that succeeds. -/
theorem bind_of_ok
    {first : Action Middle}
    {moment after : Moment}
    {value : Middle}
    (done : first moment = .ok value after)
    (rest : Middle → Action Result) :
    (first >>= rest) moment = rest value after := by
  simp only [bind, EStateM.bind, done]

/-- An action ends where a first one fails. -/
theorem bind_of_error
    {first : Action Middle}
    {moment after : Moment}
    {error : RunError}
    (done : first moment = .error error after)
    (rest : Middle → Action Result) :
    (first >>= rest) moment = .error error after := by
  simp only [bind, EStateM.bind, done]

/-- An action may look at the moment, which stays as it is. -/
theorem get_eq (moment : Moment) :
    (get : Action Moment) moment = .ok moment moment :=
  rfl

/-- Painting succeeds, and changes the canvas by the stroke. -/
theorem paint_eq
    (stroke : Brush → Canvas → Canvas)
    (moment : Moment) :
    paint stroke moment = .ok () (moment.painted stroke) :=
  rfl

/-- An argument that has a number is read as this number. -/
theorem int_of_ok
    {node : Node}
    {moment : Moment}
    {number : Number}
    (evaluated : moment.evaluateInt node = .ok number) :
    int node moment = .ok number moment := by
  simp only [int, reading, evaluated]

/-- An argument without a number fails as its evaluation does. -/
theorem int_of_error
    {node : Node}
    {moment : Moment}
    {error : RunError}
    (fails : moment.evaluateInt node = .error error) :
    int node moment = .error error moment := by
  simp only [int, reading, fails]

/-- What is not found as a number is out of range. -/
theorem not_inRange_of_ofInt?_none
    {value : Int}
    (missing : Number.ofInt? value = none) :
    ¬ Number.InRange value := by
  intro inRange
  simp [Number.ofInt?, inRange] at missing

/-- How the search for the position that a command moves to ends. -/
inductive Destination
    (moment : Moment)
    (command : DrawCommand)
    (directionY directionX distance : Number)
    (location : Location) :
    EStateM.Result RunError Moment (Number × Number) → Prop where
  | reached
      {x y : Number}
      (directed :
        Number.isDirection directionX = true ∧
          Number.isDirection directionY = true)
      (long : (leastDistance command).toInt ≤ distance.toInt)
      (column :
        x.toInt = moment.brush.x.toInt + directionX.toInt * distance.toInt)
      (row :
        y.toInt = moment.brush.y.toInt + directionY.toInt * distance.toInt) :
      Destination moment command directionY directionX distance location
        (.ok (x, y) moment)
  | undirected
      (wrong :
        Number.isDirection directionX = false ∨
          Number.isDirection directionY = false) :
      Destination moment command directionY directionX distance location
        (.error ⟨.invalidDirection directionX directionY, location⟩ moment)
  | short
      (below : distance.toInt < (leastDistance command).toInt) :
      Destination moment command directionY directionX distance location
        (.error
          ⟨.badArgument (.distance command (leastDistance command)), location⟩
          moment)
  | overflow
      (outOfRange :
        ¬ Number.InRange
          (moment.brush.x.toInt + directionX.toInt * distance.toInt) ∨
          ¬ Number.InRange
            (moment.brush.y.toInt + directionY.toInt * distance.toInt)) :
      Destination moment command directionY directionX distance location
        (.error
          ⟨.overflow
            (.movement moment.brush.x moment.brush.y distance
              directionX directionY),
            location⟩
          moment)

/--
A command finds the position it moves to, or fails for one of the listed
reasons.
-/
theorem destination_spec
    (command : DrawCommand)
    (directionY directionX distance : Number)
    (location : Location)
    (moment : Moment) :
    Destination moment command directionY directionX distance location
      (destination command directionY directionX distance location moment) := by
  unfold destination
  split
  · rename_i wrong
    rw [Bool.or_eq_true, Bool.not_eq_true', Bool.not_eq_true'] at wrong
    exact .undirected wrong
  · rename_i right
    rw [Bool.or_eq_true, Bool.not_eq_true', Bool.not_eq_true', not_or,
      Bool.not_eq_false, Bool.not_eq_false] at right
    split
    · rename_i below
      exact .short below
    · rename_i long
      dsimp only
      rw [bind_of_ok (get_eq moment)]
      cases column :
          Number.ofInt?
            (moment.brush.x.toInt + directionX.toInt * distance.toInt) with
      | none =>
          dsimp only
          exact .overflow (.inl (not_inRange_of_ofInt?_none column))
      | some x =>
          cases row :
              Number.ofInt?
                (moment.brush.y.toInt + directionY.toInt * distance.toInt) with
          | none =>
              dsimp only
              exact .overflow (.inr (not_inRange_of_ofInt?_none row))
          | some y =>
              dsimp only
              exact .reached right (Int.not_lt.mp long)
                (Number.ofInt?_eq_some_iff.mp column)
                (Number.ofInt?_eq_some_iff.mp row)

section Outcomes

variable
  {program : Program}
  {moment : Moment}
  {node : Node}

/-- After an argument was evaluated, the rest of the action decides. -/
theorem outcome_int
    {argument : Node}
    {flow : Result → Flow}
    {rest : Number → Action Result}
    (fails :
      ∀ error,
        moment.evaluateInt argument = .error error →
        Fails program moment node error)
    (continues :
      ∀ number,
        moment.evaluateInt argument = .ok number →
        Outcome program moment node flow (rest number moment)) :
    Outcome program moment node flow ((int argument >>= rest) moment) := by
  cases evaluated : moment.evaluateInt argument with
  | error error =>
      rw [bind_of_error (int_of_error evaluated)]
      exact ⟨fails error evaluated, rfl⟩
  | ok number =>
      rw [bind_of_ok (int_of_ok evaluated)]
      exact continues number evaluated

/-- After the brush found its new position, the rest of the action decides. -/
theorem outcome_destination
    {command : DrawCommand}
    {nodes : List Node}
    {location : Location}
    {directionY directionX distance : Number}
    {extents : List Number}
    (arguments :
      Arguments moment command nodes directionY directionX distance extents)
    {rest : Number × Number → Action Unit}
    (continues :
      ∀ x y : Number,
        Number.isDirection directionX = true ∧
          Number.isDirection directionY = true →
        (leastDistance command).toInt ≤ distance.toInt →
        x.toInt = moment.brush.x.toInt + directionX.toInt * distance.toInt →
        y.toInt = moment.brush.y.toInt + directionY.toInt * distance.toInt →
        Outcome program moment (.draw command nodes location) (fun _ => .next)
          (rest (x, y) moment)) :
    Outcome program moment (.draw command nodes location) (fun _ => .next)
      ((destination command directionY directionX distance location >>= rest)
        moment) := by
  have spec :=
    destination_spec command directionY directionX distance location moment
  generalize ended :
    destination command directionY directionX distance location moment = result
    at spec
  cases spec with
  | @reached x y directed long column row =>
      rw [bind_of_ok ended]
      exact continues x y directed long column row
  | undirected wrong =>
      rw [bind_of_error ended]
      exact ⟨.direction arguments wrong, rfl⟩
  | short below =>
      rw [bind_of_error ended]
      exact ⟨.distance arguments below, rfl⟩
  | overflow outOfRange =>
      rw [bind_of_error ended]
      exact ⟨.movement arguments outOfRange, rfl⟩

/-- Painting and then moving, as one change of the moment. -/
theorem paint_then_move
    (stroke : Brush → Canvas → Canvas)
    (x y : Number)
    (moment : Moment) :
    (do
      paint stroke
      changeBrush (·.moveTo x y) : Action Unit) moment =
      .ok ()
        { moment.painted stroke with brush := moment.brush.moveTo x y } := by
  have sameBrush : (moment.painted stroke).brush = moment.brush := by
    unfold Moment.painted
    split <;> rfl
  show
    EStateM.Result.ok ()
        { moment.painted stroke with
          brush := (moment.painted stroke).brush.moveTo x y } = _
  rw [sameBrush]

/-- A figure without extents has three arguments. -/
theorem outcome_figure
    (program : Program)
    (command : DrawCommand)
    (arity : command.arity = 3)
    (first second third : Node)
    (location : Location)
    (moment : Moment) :
    Outcome program moment (.draw command [first, second, third] location)
      (fun _ => .next)
      ((do
        let directionY ← int first
        let directionX ← int second
        let distance ← int third
        let (x, y) ← destination command directionY directionX distance location
        paint (command.stroke x y distance [])
        changeBrush (·.moveTo x y) : Action Unit) moment) := by
  apply outcome_int (fun error fails => .drawArgument (by simp) fails)
  intro directionY evaluatedY
  apply outcome_int (fun error fails => .drawArgument (by simp) fails)
  intro directionX evaluatedX
  apply outcome_int (fun error fails => .drawArgument (by simp) fails)
  intro distance evaluatedDistance
  have arguments :
      Arguments moment command [first, second, third]
        directionY directionX distance [] :=
    ⟨arity.symm,
      .cons evaluatedY (.cons evaluatedX (.cons evaluatedDistance .nil))⟩
  apply outcome_destination arguments
  intro x y directed long column row
  dsimp only
  rw [paint_then_move]
  exact .draw arguments directed long column row (by simp)

/--
Drawing evaluates its arguments, finds the new position, paints and moves.
-/
theorem draw_spec
    (program : Program)
    (command : DrawCommand)
    (nodes : List Node)
    (location : Location)
    (moment : Moment) :
    Outcome program moment (.draw command nodes location) (fun _ => .next)
      (draw command nodes location moment) := by
  unfold draw
  split
  · exact outcome_figure program .line rfl _ _ _ location moment
  · exact outcome_figure program .circle rfl _ _ _ location moment
  · rename_i first second third fourth fifth
    apply outcome_int (fun error fails => .drawArgument (by simp) fails)
    intro directionY evaluatedY
    apply outcome_int (fun error fails => .drawArgument (by simp) fails)
    intro directionX evaluatedX
    apply outcome_int (fun error fails => .drawArgument (by simp) fails)
    intro distance evaluatedDistance
    apply outcome_int (fun error fails => .drawArgument (by simp) fails)
    intro width evaluatedWidth
    apply outcome_int (fun error fails => .drawArgument (by simp) fails)
    intro height evaluatedHeight
    have arguments :
        Arguments moment .rectangle [first, second, third, fourth, fifth]
          directionY directionX distance [width, height] :=
      ⟨rfl, .cons evaluatedY (.cons evaluatedX (.cons evaluatedDistance
        (.cons evaluatedWidth (.cons evaluatedHeight .nil))))⟩
    apply outcome_destination arguments
    intro x y directed long column row
    simp only
    split
    · rename_i flat
      rw [Bool.or_eq_true, decide_eq_true_iff, decide_eq_true_iff] at flat
      exact ⟨.extent arguments flat, rfl⟩
    · rename_i solid
      rw [Bool.or_eq_true, decide_eq_true_iff, decide_eq_true_iff, not_or,
        Int.not_le, Int.not_le] at solid
      rw [paint_then_move]
      exact .draw arguments directed long column row (by simpa using solid)
  · rename_i notLine notCircle notRectangle
    have wrong : nodes.length ≠ command.arity := by
      intro right
      cases command with
      | line =>
          obtain ⟨first, second, third, rfl⟩ := List.length_eq_three.mp right
          exact notLine first second third rfl rfl
      | circle =>
          obtain ⟨first, second, third, rfl⟩ := List.length_eq_three.mp right
          exact notCircle first second third rfl rfl
      | rectangle =>
          match nodes, right with
          | [first, second, third, fourth, fifth], _ =>
              exact notRectangle first second third fourth fifth rfl rfl
    exact ⟨.drawArity wrong, rfl⟩

/-- A position on the canvas is accepted. -/
theorem requireOnCanvas_inside
    {x y : Number}
    (location : Location)
    (inside : InSquare moment.canvas.size x.toInt y.toInt) :
    requireOnCanvas x y location moment = .ok () moment := by
  unfold requireOnCanvas
  rw [bind_of_ok (get_eq moment), if_pos inside]
  rfl

/-- A position off the canvas is refused, with the size of the canvas. -/
theorem requireOnCanvas_outside
    {x y : Number}
    (location : Location)
    (outside : ¬ InSquare moment.canvas.size x.toInt y.toInt) :
    requireOnCanvas x y location moment =
      .error ⟨.outOfBounds x y moment.canvas.size, location⟩ moment := by
  unfold requireOnCanvas
  rw [bind_of_ok (get_eq moment), if_neg outside]
  rfl

/-- Spawning ends in one of the listed ways. -/
theorem spawn_spec
    (program : Program)
    (x y : Number)
    (location : Location)
    (moment : Moment) :
    Outcome program moment (.spawn x y location) (fun _ => .next)
      (spawn x y location moment) := by
  unfold spawn
  by_cases inside : InSquare moment.canvas.size x.toInt y.toInt
  · rw [bind_of_ok (requireOnCanvas_inside location inside)]
    exact .spawn inside
  · rw [bind_of_error (requireOnCanvas_outside location inside)]
    exact ⟨.spawn inside, rfl⟩

/-- Changing the color ends in one of the listed ways. -/
theorem setColor_spec
    (program : Program)
    (name : String)
    (location : Location)
    (moment : Moment) :
    Outcome program moment (.setColor name location) (fun _ => .next)
      (setColor name location moment) := by
  unfold setColor
  cases named : Color.ofName? name with
  | some color =>
      exact .setColor named
  | none =>
      exact ⟨.setColor named, rfl⟩

/-- Changing the size ends in one of the listed ways. -/
theorem setSize_spec
    (program : Program)
    (requested : Number)
    (location : Location)
    (moment : Moment) :
    Outcome program moment (.setSize requested location) (fun _ => .next)
      (setSize requested location moment) := by
  unfold setSize
  cases adjusted : Brush.adjustedSize? requested with
  | some size =>
      exact .setSize adjusted
  | none =>
      exact ⟨.setSize adjusted, rfl⟩

/-- A flood ends in one of the listed ways. -/
theorem fill_spec
    (program : Program)
    (location : Location)
    (moment : Moment) :
    Outcome program moment (.fill location) (fun _ => .next)
      (fill location moment) := by
  unfold fill
  rw [bind_of_ok (get_eq moment)]
  dsimp only
  split
  · rename_i invisible
    exact ⟨.transparentFill invisible, rfl⟩
  · rename_i visible
    by_cases inside :
        InSquare moment.canvas.size moment.brush.x.toInt moment.brush.y.toInt
    · rw [bind_of_ok (requireOnCanvas_inside location inside)]
      rw [paint_eq, Moment.painted, if_neg visible]
      exact .fill visible inside
    · rw [bind_of_error (requireOnCanvas_outside location inside)]
      exact ⟨.fillOutside visible inside, rfl⟩

/-- An action that only reads the moment gives the result that is read. -/
theorem reading_of_ok
    {read : Moment → Except RunError Result}
    {result : Result}
    (done : read moment = .ok result) :
    reading read moment = .ok result moment := by
  simp only [reading, done]

/-- An action that only reads the moment fails as the reading does. -/
theorem reading_of_error
    {read : Moment → Except RunError Result}
    {error : RunError}
    (done : read moment = .error error) :
    reading read moment = .error error moment := by
  simp only [reading, done]

/-- An assignment ends in one of the listed ways. -/
theorem assign_spec
    (program : Program)
    (name : String)
    (value : Node)
    (location : Location)
    (moment : Moment) :
    Outcome program moment (.assign name value location) (fun _ => .next)
      (assign name value moment) := by
  unfold assign
  cases evaluated : moment.evaluate value with
  | error error =>
      rw [bind_of_error (reading_of_error evaluated)]
      exact ⟨.assign evaluated, rfl⟩
  | ok result =>
      rw [bind_of_ok (reading_of_ok evaluated)]
      exact .assign evaluated

/-- A jump ends in one of the listed ways. -/
theorem goTo_spec
    (program : Program)
    (target : String)
    (condition : Node)
    (location : Location)
    (moment : Moment) :
    Outcome program moment (.goTo target condition location) id
      (goTo program target condition location moment) := by
  unfold goTo
  cases evaluated : moment.evaluate condition with
  | error error =>
      rw [bind_of_error (reading_of_error evaluated)]
      exact ⟨.condition evaluated, rfl⟩
  | ok value =>
      rw [bind_of_ok (reading_of_ok evaluated)]
      split
      · rename_i isTrue
        cases declared : program.labelIndex? target with
        | some label =>
            exact .jump evaluated isTrue declared
        | none =>
            exact ⟨.undeclared evaluated isTrue declared, rfl⟩
      · rename_i untrue
        exact .stay evaluated (Bool.not_eq_true _ ▸ untrue)

/-- An instruction that gives no flow of its own goes on with the next one. -/
theorem outcome_next
    {first : Action Unit}
    (spec : Outcome program moment node (fun _ => .next) (first moment)) :
    Outcome program moment node id
      ((do
        first
        return .next : Action Flow) moment) := by
  cases ended : first moment with
  | ok result after =>
      rw [ended] at spec
      rw [bind_of_ok ended]
      exact spec
  | error error after =>
      rw [ended] at spec
      rw [bind_of_error ended]
      exact spec

/-- Evaluating a bare expression has no effect but its errors. -/
theorem expression_spec
    (program : Program)
    (bare : node.isInstruction = false)
    (moment : Moment) :
    Outcome program moment node id
      ((do
        let _ ← reading (·.evaluate node)
        return .next : Action Flow) moment) := by
  cases evaluated : moment.evaluate node with
  | error error =>
      rw [bind_of_error (reading_of_error evaluated)]
      exact ⟨.expression bare evaluated, rfl⟩
  | ok value =>
      rw [bind_of_ok (reading_of_ok evaluated)]
      exact .expression bare evaluated

end Outcomes

/-- Every instruction succeeds or fails in one of the listed ways. -/
theorem perform_spec
    (program : Program)
    (node : Node)
    (moment : Moment) :
    Outcome program moment node id (perform program node moment) := by
  cases node with
  | spawn x y location =>
      exact outcome_next (spawn_spec program x y location moment)
  | setColor name location =>
      exact outcome_next (setColor_spec program name location moment)
  | setSize size location =>
      exact outcome_next (setSize_spec program size location moment)
  | draw command nodes location =>
      exact outcome_next (draw_spec program command nodes location moment)
  | fill location =>
      exact outcome_next (fill_spec program location moment)
  | assign name value location =>
      exact outcome_next (assign_spec program name value location moment)
  | label name location =>
      exact .label
  | goTo target condition location =>
      exact goTo_spec program target condition location moment
  | call | arithmetic | boolean | read | number | text =>
      exact expression_spec program rfl moment

/--
No instruction moves on by itself, changes the place or resizes the canvas.
-/
theorem Succeeds.frame
    {program : Program}
    {moment after : Moment}
    {node : Node}
    {flow : Flow}
    (succeeds : Succeeds program moment node flow after) :
    after.next = moment.next ∧
      after.location = moment.location ∧
      after.canvas.size = moment.canvas.size := by
  cases succeeds with
  | @draw command nodes location directionY directionX distance x y extents =>
      have painted :=
        command.painted_stroke x y distance extents moment.brush moment.canvas
      unfold Moment.painted
      split
      · exact ⟨rfl, rfl, rfl⟩
      · exact ⟨rfl, rfl, painted.size_eq⟩
  | fill =>
      exact ⟨rfl, rfl, (Canvas.Painted.flood ..).size_eq⟩
  | spawn | setColor | setSize | assign | label | stay | jump | expression =>
      exact ⟨rfl, rfl, rfl⟩

/-- Instructions put no strings into variables but names of colors. -/
theorem Succeeds.named
    {program : Program}
    {moment after : Moment}
    {node : Node}
    {flow : Flow}
    (succeeds : Succeeds program moment node flow after)
    (named : moment.Named) :
    after.Named := by
  cases succeeds with
  | @assign name value location result evaluated =>
      exact named.set (Moment.isNamed_of_evaluate named evaluated) name
  | draw =>
      unfold Moment.painted
      split
      · exact named
      · exact named
  | spawn | setColor | setSize | fill | label | stay | jump | expression =>
      exact named

/-- The moment in which an instruction is performed. -/
def opened (moment : Moment) (node : Node) : Moment :=
  changeCanvas { moment with location := node.location } Canvas.openJournal

/--
An execution that succeeds keeps what the instruction did and closes the
journal.
-/
theorem execute_ok
    {program : Program}
    {node : Node}
    {moment after : Moment}
    {flow : Flow}
    (succeeds : execute program node moment = .ok flow after) :
    ∃ performed,
      Succeeds program (opened moment node) node flow performed ∧
        after = changeCanvas performed Canvas.commit := by
  have spec := perform_spec program node (opened moment node)
  unfold execute at succeeds
  dsimp only at succeeds
  split at succeeds
  · rename_i done performed ended
    cases succeeds
    rw [opened, ended] at spec
    exact ⟨performed, spec, rfl⟩
  · cases succeeds

/-- An execution that fails only marks its place and closes the journal. -/
theorem execute_error
    {program : Program}
    {node : Node}
    {moment after : Moment}
    {error : RunError}
    (fails : execute program node moment = .error error after) :
    Fails program (opened moment node) node error ∧
      after =
        changeCanvas { moment with location := node.location }
          Canvas.commit := by
  have spec := perform_spec program node (opened moment node)
  unfold execute at fails
  dsimp only at fails
  split at fails
  · cases fails
  · rename_i cause performed ended
    cases fails
    rw [opened, ended] at spec
    refine ⟨spec.1, ?_⟩
    rw [spec.2]
    rfl

end Action

end PixelBrush
