import PixelBrush.Machine.Basic
import PixelBrush.Viewer.CanvasPane
import PixelBrush.Viewer.DiagnosticsPane
import PixelBrush.Viewer.Screen
import PixelBrush.Viewer.SourcePane
import PixelBrush.Viewer.StatusBar
import PixelBrush.Viewer.VariablesPane

namespace PixelBrush

/-!
# The viewer

The viewer moves through the recorded moments of a finished run.  A key press
gives the next state of the viewer, and a frame shows the state on a screen;
drawing also settles how far the panes are scrolled.
-/

/--
The keys of a keyboard; the function keys and others are told apart by a code.
-/
inductive Key where
  | character (character : Char)
  | left
  | right
  | up
  | down
  | enter
  | end
  | backspace
  | home
  | tab
  | escape
  | delete
  | other (code : Nat)
  deriving Repr, DecidableEq

/-- The pane that the scrolling keys work on. -/
inductive Focus where
  | source
  | bindings
  | diagnostics
  deriving Repr, DecidableEq

/-- The pane after this one. -/
def Focus.next : Focus → Focus
  | .source => .bindings
  | .bindings => .diagnostics
  | .diagnostics => .source

/-- A run under view, and the state of the screen. -/
structure Viewer where
  machine : Machine
  source : String
  diagnostics : List String
  focus : Focus
  sourceScroll : SourceScroll
  bindingsScroll : Nat
  diagnosticsScroll : Nat
  status : String
  playing : Bool
  quit : Bool
  deriving Repr

namespace Viewer

/-- A viewer of a run that has not been drawn yet. -/
def start
    (machine : Machine)
    (source : String)
    (diagnostics : List String) :
    Viewer where
  machine := machine
  source := source
  diagnostics := diagnostics
  focus := .source
  sourceScroll := SourceScroll.initial
  bindingsScroll := 0
  diagnosticsScroll := 0
  status := "Ready!"
  playing := false
  quit := false

/-- The viewer stands at the last recorded moment. -/
def atEnd (viewer : Viewer) : Bool :=
  viewer.machine.recorded ≤ viewer.machine.position + 1

/--
The line of the instruction that failed, once the viewer stands at the end.
-/
def failedLine? (viewer : Viewer) : Option Nat :=
  if viewer.atEnd then
    viewer.machine.failed.bind fun index =>
      (viewer.machine.program[index]?).map (·.location.line)
  else
    none

/-- The line of the current moment. -/
def currentLine (viewer : Viewer) : Nat :=
  viewer.machine.moment.location.line

/--
Moves through the history; a message tells what was done or why it cannot be.
-/
def move
    (viewer : Viewer)
    (navigation : Machine.Navigation Unit)
    (done attempt : String) :
    Viewer :=
  match navigation viewer.machine with
  | .ok _ machine =>
      { viewer with machine, status := done }
  | .error ⟨.noMoment reason, _⟩ machine =>
      { viewer with machine, status := s!"Cannot {attempt}: {reason.message}" }
  | .error error machine =>
      { viewer with machine, status := s!"Error: {error.message}" }

/-- Steps forward at most so many times, and how many steps there were. -/
def advance (machine : Machine) : Nat → Machine × Nat
  | 0 => (machine, 0)
  | count + 1 =>
      match Machine.stepForward machine with
      | .ok _ next =>
          let (last, taken) := advance next count
          (last, taken + 1)
      | .error _ left => (left, 0)

/-- Steps forward several times. -/
def stepMany (viewer : Viewer) (count : Nat) : Viewer :=
  let (machine, taken) := advance viewer.machine count
  { viewer with
    machine := machine
    playing := false
    status := s!"Stepped forward {taken} step(s)" }

/-- Scrolls the focused pane up by one line. -/
def scrollUp (viewer : Viewer) : Viewer :=
  match viewer.focus with
  | .source =>
      { viewer with
        sourceScroll :=
          { viewer.sourceScroll with
            row := viewer.sourceScroll.row.map (· + 1) } }
  | .bindings =>
      { viewer with bindingsScroll := viewer.bindingsScroll - 1 }
  | .diagnostics =>
      { viewer with diagnosticsScroll := viewer.diagnosticsScroll - 1 }

/-- Scrolls the focused pane down by one line. -/
def scrollDown (viewer : Viewer) : Viewer :=
  match viewer.focus with
  | .source =>
      { viewer with
        sourceScroll :=
          { viewer.sourceScroll with
            row := viewer.sourceScroll.row.map (· - 1) } }
  | .bindings =>
      { viewer with bindingsScroll := viewer.bindingsScroll + 1 }
  | .diagnostics =>
      { viewer with diagnosticsScroll := viewer.diagnosticsScroll + 1 }

/-- Starts or pauses playing. -/
def togglePlaying (viewer : Viewer) : Viewer :=
  if viewer.playing then
    { viewer with playing := false, status := "Paused" }
  else
    { viewer with playing := true, status := "Playing..." }

/-- What a character key does. -/
def pressCharacter (viewer : Viewer) (character : Char) : Viewer :=
  if character = 'q' ∨ character = 'Q' then
    { viewer with quit := true }
  else if character = ' ' then
    viewer.togglePlaying
  else if '1' ≤ character ∧ character ≤ '9' then
    viewer.stepMany (character.toNat - '0'.toNat)
  else
    viewer

/-- What a key does. -/
def press (viewer : Viewer) : Key → Viewer
  | .character character => viewer.pressCharacter character
  | .escape => { viewer with quit := true }
  | .tab => { viewer with focus := viewer.focus.next }
  | .left =>
      { viewer with playing := false }.move Machine.stepBackward
        "Stepped backward" "step backward"
  | .right =>
      { viewer with playing := false }.move Machine.stepForward
        "Stepped forward" "step forward"
  | .enter | .end =>
      { viewer with playing := false }.move Machine.jumpToEnd
        "Jumped to end" "jump to end"
  | .backspace | .home =>
      { viewer with playing := false }.move Machine.rewind
        "Jumped to start" "jump to start"
  | .up => viewer.scrollUp
  | .down => viewer.scrollDown
  | .delete | .other _ => viewer

/-- What the status bar tells about the viewer. -/
def statusLine (viewer : Viewer) : Status where
  message := viewer.status
  current := viewer.machine.position
  total := viewer.machine.recorded
  failed := viewer.machine.failed.isSome
  playing := viewer.playing
  truncated := viewer.machine.recordingStopped

/-- The picture on a screen, and the viewer with its panes scrolled as shown. -/
def frame (viewer : Viewer) (screen : Screen) : Picture × Viewer :=
  let main := screen.height - 1
  let middle := edgeAt screen.width 60
  let side := screen.width - middle
  let upper := edgeAt main 50
  let lower := edgeAt main 75
  let moment := viewer.machine.moment
  let canvas := CanvasPane.draw middle main moment.canvas moment.brush
  let (source, sourceScroll) :=
    SourcePane.draw side upper viewer.source viewer.currentLine
    viewer.failedLine? viewer.sourceScroll (viewer.focus = .source)
  let (bindings, bindingsScroll) := VariablesPane.draw side (lower - upper)
    moment.bindings viewer.bindingsScroll (viewer.focus = .bindings)
  let (diagnostics, diagnosticsScroll) :=
    DiagnosticsPane.draw side (main - lower)
    viewer.diagnostics viewer.diagnosticsScroll (viewer.focus = .diagnostics)
  (Picture.beside canvas (source ++ bindings ++ diagnostics) ++
      StatusBar.draw screen.width (screen.height - main) viewer.statusLine,
    { viewer with sourceScroll, bindingsScroll, diagnosticsScroll })

end Viewer

end PixelBrush
