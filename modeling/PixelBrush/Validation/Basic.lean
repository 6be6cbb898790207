import PixelBrush.Brush
import PixelBrush.Point
import PixelBrush.Validation.Expression

namespace PixelBrush

/-!
# Validating programs

Validation walks a program once, in program order, with a brush that is followed
as far as literals allow.  What is known about the brush is forgotten at every
label, since a jump may arrive there from anywhere.
-/

/-- What is known about the brush before it is run. -/
structure BrushEstimate where
  position : Option (Number × Number)
  color : Option Color
  deriving Repr, DecidableEq

namespace BrushEstimate

/-- Before the first instruction the color is known and the position is not. -/
def initial : BrushEstimate :=
  ⟨none, some .transparent⟩

/-- Nothing is known. -/
def unknown : BrushEstimate :=
  ⟨none, none⟩

end BrushEstimate

/-- The state of a validation: what is known so far, and what was found. -/
structure Outlook where
  size : Nat
  brush : BrushEstimate
  scope : Scope
  jumps : Nat
  findings : List Diagnostic
  deriving Repr, DecidableEq

/-- A program with more jumps than this gets a warning. -/
def jumpThreshold : Nat :=
  50

/--
The errors of repeated spawns and labels, given the labels declared before.
-/
def repetitions
    (isFirst : Bool)
    (labels : List String) :
    List Node → List Diagnostic
  | [] => []
  | .spawn _ _ location :: rest =>
      if isFirst then
        repetitions false labels rest
      else
        .error .repeatedSpawn location :: repetitions false labels rest
  | .label name location :: rest =>
      if labels.contains name then
        .error (.repeatedLabel name) location :: repetitions false labels rest
      else
        repetitions false (name :: labels) rest
  | _ :: rest =>
      repetitions false labels rest

/--
The findings on the shape of a program: where it spawns, and which labels it
declares.
-/
def Program.checkShape (program : Program) : List Diagnostic :=
  let opening : List Diagnostic :=
    match program with
    | .spawn _ _ _ :: _ => []
    | first :: _ => [.error .noSpawnFirst first.location]
    | [] => [.error .noSpawnFirst Location.start]
  opening ++ repetitions true [] program

namespace Outlook

/-- The state before the first instruction is checked. -/
def start (program : Program) (size : Nat) : Outlook where
  size := size
  brush := BrushEstimate.initial
  scope := Scope.empty
  jumps := 0
  findings := program.checkShape

/-- Adds findings. -/
def report (outlook : Outlook) (findings : List Diagnostic) : Outlook :=
  { outlook with findings := outlook.findings ++ findings }

/-- Puts the estimated brush at a position, known or not. -/
def place (outlook : Outlook) (position : Option (Number × Number)) : Outlook :=
  { outlook with brush := { outlook.brush with position } }

/-- Gives the estimated brush a color, known or not. -/
def dye (outlook : Outlook) (color : Option Color) : Outlook :=
  { outlook with brush := { outlook.brush with color } }

/-- The side of the canvas as a 64-bit signed integer. -/
def signedSide (outlook : Outlook) : Int :=
  (outlook.size : Int).bmod UInt64.size

/-- Checks where a program spawns. -/
def checkSpawn
    (outlook : Outlook)
    (x y : Number)
    (location : Location) :
    Outlook :=
  if InSquare outlook.size x.toInt y.toInt then
    outlook.place (some (x, y))
  else
    (outlook.report [.error (.spawnOutside x y outlook.size) location]).place
      none

/-- Checks the name of a brush color. -/
def checkColor
    (outlook : Outlook)
    (name : String)
    (location : Location) :
    Outlook :=
  match Color.ofName? name with
  | some color => outlook.dye (some color)
  | none => (outlook.report [.error (.unknownColor name) location]).dye none

/-- Checks the side of the brush. -/
def checkSize
    (outlook : Outlook)
    (size : Number)
    (location : Location) :
    Outlook :=
  match Brush.adjustedSize? size with
  | none => outlook.report [.error (.brushSize size) location]
  | some adjusted =>
      if adjusted = size then
        outlook
      else
        outlook.report [.warning (.sizeAdjusted adjusted) location]

/-- The findings of the arguments of a drawing command, counted from `index`. -/
def checkDrawArguments
    (scope : Scope)
    (command : DrawCommand)
    (index : Nat) :
    List Node → List Diagnostic
  | [] => []
  | argument :: arguments =>
      scope.check argument ++
        (match scope.kindOf? argument with
        | some .int | none => []
        | some got =>
            [.error (.drawArgument command index got) argument.location]) ++
        checkDrawArguments scope command (index + 1) arguments

/-- The error of a literal direction. -/
def checkDirection
    (command : DrawCommand)
    (argument : Node)
    (location : Location) :
    List Diagnostic :=
  match argument.literal? with
  | some component =>
      if Number.isDirection component then
        []
      else
        [.error (.direction command component) location]
  | none => []

/-- The error of a literal distance or radius. -/
def checkDistance (command : DrawCommand) (argument : Node) : List Diagnostic :=
  match command, argument.literal? with
  | .circle, some radius =>
      if radius.toInt ≤ 0 then
        [.error (.radius radius) argument.location]
      else
        []
  | _, some distance =>
      if distance.toInt < 0 then
        [.error (.distance distance) argument.location]
      else
        []
  | _, none => []

/-- The error of a literal width or height. -/
def checkExtent (argument : Node) : List Diagnostic :=
  match argument.literal? with
  | some extent =>
      if extent.toInt ≤ 0 then
        [.error (.extent extent) argument.location]
      else
        []
  | none => []

/--
The position after a move that is known entirely, and the error if it leaves the
canvas.
-/
def arrival
    (outlook : Outlook)
    (command : DrawCommand)
    (directionY directionX distance : Node)
    (location : Location) :
    Option (Number × Number) × List Diagnostic :=
  match outlook.brush.position, directionY.literal?, directionX.literal?,
    distance.literal? with
  | some (x, y), some down, some right, some steps =>
      if Number.isDirection down && Number.isDirection right then
        let column := x.toInt + right.toInt * steps.toInt
        let row := y.toInt + down.toInt * steps.toInt
        let side := outlook.signedSide
        if 0 ≤ column ∧ column < side ∧ 0 ≤ row ∧ row < side then
          (some (Int32.ofInt column, Int32.ofInt row), [])
        else
          (none, [.error (.leavesCanvas command column row side) location])
      else
        (none, [])
  | _, _, _, _ => (none, [])

/-- Checks a drawing command with the right number of arguments. -/
def checkMove
    (outlook : Outlook)
    (command : DrawCommand)
    (directionY directionX distance : Node)
    (extents : List Node)
    (location : Location) :
    Outlook :=
  let arguments := directionY :: directionX :: distance :: extents
  let (position, outside) :=
    outlook.arrival command directionY directionX distance location
  (outlook.report
    (checkDrawArguments outlook.scope command 1 arguments ++
      checkDirection command directionY location ++
      checkDirection command directionX location ++
      checkDistance command distance ++
      extents.flatMap checkExtent ++
      outside)).place position

/-- Checks a drawing command. -/
def checkDraw
    (outlook : Outlook)
    (command : DrawCommand)
    (arguments : List Node)
    (location : Location) :
    Outlook :=
  match command, arguments with
  | .line, [directionY, directionX, distance] =>
      outlook.checkMove .line directionY directionX distance [] location
  | .circle, [directionY, directionX, radius] =>
      outlook.checkMove .circle directionY directionX radius [] location
  | .rectangle, [directionY, directionX, distance, width, height] =>
      outlook.checkMove .rectangle directionY directionX distance
        [width, height] location
  | _, _ =>
      (outlook.report
        [.error (.drawArity command arguments.length) location]).place none

/-- Checks a jump from the instruction at `index`. -/
def checkGoTo
    (outlook : Outlook)
    (program : Program)
    (index : Nat)
    (label : String)
    (condition : Node)
    (location : Location) :
    Outlook :=
  let target := program.labelIndex? label
  let undefined : List Diagnostic :=
    if target.isNone then [.error (.undefinedLabel label) location] else []
  let kind : List Diagnostic :=
    if outlook.scope.isCondition condition then
      []
    else
      [.error .conditionKind condition.location]
  let many : List Diagnostic :=
    if outlook.jumps = jumpThreshold then
      [.warning (.manyJumps jumpThreshold) location]
    else
      []
  let endless : List Diagnostic :=
    if target.any (· < index) && !condition.isDynamic then
      [.warning (.endlessJump label) location]
    else
      []
  { outlook.report
    (undefined ++ outlook.scope.check condition ++ kind ++ many ++ endless) with
    jumps := outlook.jumps + 1 }

/-- Checks the instruction at `index`. -/
def check
    (outlook : Outlook)
    (program : Program)
    (index : Nat)
    (node : Node) :
    Outlook :=
  match node with
  | .spawn x y location => outlook.checkSpawn x y location
  | .setColor name location => outlook.checkColor name location
  | .setSize size location => outlook.checkSize size location
  | .draw command arguments location =>
      outlook.checkDraw command arguments location
  | .fill location =>
      if outlook.brush.color = some .transparent then
        outlook.report [.error .transparentFill location]
      else
        outlook
  | .assign name value _ =>
      { outlook.report (outlook.scope.check value) with
        scope := outlook.scope.assign name value }
  | .label _ _ => { outlook with brush := BrushEstimate.unknown }
  | .goTo label condition location =>
      outlook.checkGoTo program index label condition location
  | _ => outlook.report (outlook.scope.check node)

/-- Checks instructions, the first of which is at `index`. -/
def checkAll
    (outlook : Outlook)
    (program : Program)
    (index : Nat) :
    List Node → Outlook
  | [] => outlook
  | node :: rest =>
      (outlook.check program index node).checkAll program (index + 1) rest

/-- The errors, in the order found. -/
def errors (outlook : Outlook) : List Diagnostic :=
  outlook.findings.filter (·.isError)

/-- The warnings, in the order found. -/
def warnings (outlook : Outlook) : List Diagnostic :=
  outlook.findings.filter (!·.isError)

/--
Errors and warnings in source order; errors come first where places are equal.
-/
def diagnostics (outlook : Outlook) : List Diagnostic :=
  (outlook.errors ++ outlook.warnings).mergeSort fun first second =>
    first.location.notAfter second.location

end Outlook

/-- Validates a program for a canvas of the given side. -/
def Program.validate (program : Program) (size : Nat) : Outlook :=
  (Outlook.start program size).checkAll program 0 program

end PixelBrush
