import PixelBrush.Machine.Basic
import PixelBrush.Program.Parse
import PixelBrush.Session.Config
import PixelBrush.Validation.Basic

namespace PixelBrush

/-!
# Sessions

A session compiles and runs source texts under one configuration.  Every run
starts on a fresh canvas; the session keeps the canvas of the last run that got
past compilation.
-/

/-- Why a source text does not compile. -/
inductive CompileError where
  | scan (error : ScanError)
  | parse (error : ParseError)
  | validation (diagnostics : List Diagnostic)
  deriving Repr, DecidableEq

namespace CompileError

/-- One report line for each finding. -/
def lines : CompileError → List String
  | .scan error => [errorLine error.location error.cause.message]
  | .parse error => [errorLine error.location error.cause.message]
  | .validation diagnostics => diagnostics.map Diagnostic.describe

/-- The message of the scan or parse error underneath. -/
def source? : CompileError → Option String
  | .scan error => some error.message
  | .parse error => some error.message
  | .validation _ => none

/-- The message of the whole failure. -/
def message : CompileError → String
  | .scan error => error.message
  | .parse error => error.message
  | .validation diagnostics =>
      s!"Validation failed with {diagnostics.countP Diagnostic.isError} error(s)"

end CompileError

/-- A program that may run, and its warnings in the order found. -/
structure Compiled where
  program : Program
  warnings : List Diagnostic
  deriving Repr

/-- Scans, parses and validates a source text for a canvas of the given side. -/
def compile (size : Nat) (source : String) : Except CompileError Compiled :=
  match tokenize source with
  | .error error => .error (.scan error)
  | .ok tokens =>
      match Program.parse tokens with
      | .error error => .error (.parse error)
      | .ok program =>
          let outlook := program.validate size
          if outlook.errors.isEmpty then
            .ok ⟨program, outlook.warnings⟩
          else
            .error (.validation outlook.diagnostics)

/-- How a run ended. -/
inductive Outcome where
  | success
  | successWithWarnings
  | failed
  deriving Repr, DecidableEq

/-- The outcome, the report lines and the machine after a run that compiled. -/
structure RunReport where
  outcome : Outcome
  lines : List String
  machine : Option Machine
  deriving Repr

/-- A run with any outcome but failure. -/
def RunReport.isSuccess (report : RunReport) : Bool :=
  report.outcome ≠ .failed

/-- A configuration and the canvas of the last run. -/
structure Session where
  config : Config
  canvas : Canvas
  deriving Repr

namespace Session

/-- A session with a white canvas. -/
def start (config : Config) : Session :=
  ⟨config, Canvas.blank config.canvasSize⟩

/-- Changes the side of the canvas for the next run. -/
def resize (session : Session) (size : Nat) : Session :=
  { session with config := session.config.withCanvasSize size }

/-- Compiles a source text for the canvas of the next run. -/
def compile
    (session : Session)
    (source : String) :
    Except CompileError Compiled :=
  PixelBrush.compile session.config.canvasSize source

/-- The machine for a program under the session's configuration. -/
def machine (session : Session) (program : Program) : Machine :=
  Machine.load program session.config.canvasSize session.config.stepLimit
    session.config.historyBudget

/-- The report on a finished run of a compiled program. -/
def report
    (warnings : List Diagnostic)
    (machine : Machine)
    (result : Except RunError Unit) :
    RunReport :=
  let lines := warnings.map Diagnostic.describe
  match result with
  | .error error =>
      ⟨.failed, lines ++ [errorLine error.location error.message], some machine⟩
  | .ok () =>
      ⟨if warnings.isEmpty then .success else .successWithWarnings, lines,
        some machine⟩

/-- Compiles and runs a source text. -/
def run (session : Session) (source : String) : Session × RunReport :=
  match session.compile source with
  | .error error => (session, ⟨.failed, error.lines, none⟩)
  | .ok compiled =>
      let (machine, result) := (session.machine compiled.program).run
      ({ session with canvas := machine.moment.canvas },
        report compiled.warnings machine result)

end Session

end PixelBrush
