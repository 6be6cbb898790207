import PixelBrush.Canvas.Flood
import PixelBrush.Canvas.Ring
import PixelBrush.Canvas.Segment
import PixelBrush.Machine.Evaluate

namespace PixelBrush

/-!
# Performing instructions

An instruction acts on the moment and may fail on the way.  A failed action
leaves the moment as it was when it failed, so the canvas is journaled around
each instruction: the changes of a failed instruction are rolled back.
-/

/-- What acts on a moment and may fail. -/
abbrev Action := EStateM RunError Moment

/-- Where a run goes on after an instruction. -/
inductive Flow where
  | next
  | jump (label : Nat)
  deriving Repr, DecidableEq

/-- The index of the instruction after this one; a jump goes past its label. -/
def Flow.target (current : Nat) : Flow → Nat
  | .next => current + 1
  | .jump label => label + 1

namespace Action

/-- Reads the moment without changing it. -/
def reading (read : Moment → Except RunError Result) : Action Result :=
  fun moment =>
    match read moment with
    | .ok result => .ok result moment
    | .error error => .error error moment

/-- The number that an expression has to give. -/
def int (node : Node) : Action Number :=
  reading (·.evaluateInt node)

/-- Changes the brush. -/
def changeBrush (change : Brush → Brush) : Action Unit :=
  modify fun moment => { moment with brush := change moment.brush }

/-- Paints with the brush; a transparent brush leaves the canvas alone. -/
def paint (stroke : Brush → Canvas → Canvas) : Action Unit :=
  modify fun moment =>
    if moment.brush.color = .transparent then
      moment
    else
      { moment with canvas := stroke moment.brush moment.canvas }

/-- Fails unless a position is on the canvas. -/
def requireOnCanvas (x y : Number) (location : Location) : Action Unit := do
  let size := (← get).canvas.size
  if InSquare size x.toInt y.toInt then
    return
  else
    throw ⟨.outOfBounds x y size, location⟩

/-- Puts the brush on a cell of the canvas. -/
def spawn (x y : Number) (location : Location) : Action Unit := do
  requireOnCanvas x y location
  changeBrush (·.moveTo x y)

/-- Gives the brush a color of the palette. -/
def setColor (name : String) (location : Location) : Action Unit :=
  match Color.ofName? name with
  | some color => changeBrush ({ · with color })
  | none => throw ⟨.invalidColor name, location⟩

/-- Gives the brush an odd side. -/
def setSize (requested : Number) (location : Location) : Action Unit :=
  match Brush.adjustedSize? requested with
  | some size => changeBrush ({ · with size })
  | none => throw ⟨.invalidBrushSize requested, location⟩

/-- The least distance of a drawing command. -/
def leastDistance : DrawCommand → Number
  | .circle => 1
  | .line | .rectangle => 0

/-- The position that lies a distance away from the brush in a direction. -/
def destination
    (command : DrawCommand)
    (directionY directionX distance : Number)
    (location : Location) :
    Action (Number × Number) := do
  if !Number.isDirection directionX || !Number.isDirection directionY then
    throw ⟨.invalidDirection directionX directionY, location⟩
  if distance.toInt < (leastDistance command).toInt then
    throw ⟨.badArgument (.distance command (leastDistance command)), location⟩
  let brush := (← get).brush
  let x? := Number.ofInt? (brush.x.toInt + directionX.toInt * distance.toInt)
  let y? := Number.ofInt? (brush.y.toInt + directionY.toInt * distance.toInt)
  match x?, y? with
  | some x, some y => return (x, y)
  | _, _ =>
      throw
        ⟨.overflow (.movement brush.x brush.y distance directionX directionY),
          location⟩

/-- Draws and moves the brush to the end of a line or the center of a figure. -/
def draw
    (command : DrawCommand)
    (arguments : List Node)
    (location : Location) :
    Action Unit :=
  match command, arguments with
  | .line, [directionY, directionX, distance] => do
      let directionY ← int directionY
      let directionX ← int directionX
      let distance ← int distance
      let (x, y) ← destination .line directionY directionX distance location
      paint fun brush canvas =>
        canvas.drawSegment ⟨⟨brush.x.toInt, brush.y.toInt⟩, ⟨x.toInt, y.toInt⟩⟩
          brush.color brush.size.toInt
      changeBrush (·.moveTo x y)
  | .circle, [directionY, directionX, radius] => do
      let directionY ← int directionY
      let directionX ← int directionX
      let radius ← int radius
      let (x, y) ← destination .circle directionY directionX radius location
      paint fun brush canvas =>
        canvas.drawRing ⟨⟨x.toInt, y.toInt⟩, radius.toInt⟩ brush.color
          brush.size.toInt
      changeBrush (·.moveTo x y)
  | .rectangle, [directionY, directionX, distance, width, height] => do
      let directionY ← int directionY
      let directionX ← int directionX
      let distance ← int distance
      let width ← int width
      let height ← int height
      let (x, y) ← destination .rectangle directionY directionX
        distance location
      if width.toInt ≤ 0 || height.toInt ≤ 0 then
        throw ⟨.badArgument (.extent width height), location⟩
      paint fun brush canvas =>
        canvas.drawBox ⟨x.toInt, y.toInt⟩ width.toInt height.toInt brush.color
          brush.size.toInt
      changeBrush (·.moveTo x y)
  | _, _ =>
      throw ⟨.badArgument (.drawArity command arguments.length), location⟩

/-- Floods from the brush. -/
def fill (location : Location) : Action Unit := do
  let brush := (← get).brush
  if brush.color = .transparent then
    throw ⟨.transparentFill, location⟩
  requireOnCanvas brush.x brush.y location
  paint fun brush canvas =>
    (canvas.flood brush.x.toInt brush.y.toInt brush.color).canvas

/-- Remembers the value of an expression under a name. -/
def assign (name : String) (node : Node) : Action Unit := do
  let value ← reading (·.evaluate node)
  modify fun moment =>
    { moment with bindings := moment.bindings.set name value }

/-- Jumps to a label when a condition holds. -/
def goTo
    (program : Program)
    (target : String)
    (condition : Node)
    (location : Location) :
    Action Flow := do
  let value ← reading (·.evaluate condition)
  if value.isTrue then
    match program.labelIndex? target with
    | some label => return .jump label
    | none => throw ⟨.unknownLabel target, location⟩
  else
    return .next

/--
Performs an instruction; a bare expression is evaluated for its errors only.
-/
def perform (program : Program) (node : Node) : Action Flow :=
  match node with
  | .spawn x y location => do
      spawn x y location
      return .next
  | .setColor name location => do
      setColor name location
      return .next
  | .setSize size location => do
      setSize size location
      return .next
  | .draw command arguments location => do
      draw command arguments location
      return .next
  | .fill location => do
      fill location
      return .next
  | .assign name value _ => do
      assign name value
      return .next
  | .label _ _ =>
      return .next
  | .goTo target condition location =>
      goTo program target condition location
  | _ => do
      let _ ← reading (·.evaluate node)
      return .next

/-- Changes the canvas. -/
def changeCanvas (moment : Moment) (change : Canvas → Canvas) : Moment :=
  { moment with canvas := change moment.canvas }

/-- Performs an instruction, undoing what it painted if it fails. -/
def execute (program : Program) (node : Node) : Action Flow :=
  fun moment =>
    let opened :=
      changeCanvas { moment with location := node.location } Canvas.openJournal
    match perform program node opened with
    | .ok flow after => .ok flow (changeCanvas after Canvas.commit)
    | .error error after => .error error (changeCanvas after Canvas.rollback)

end Action

end PixelBrush
