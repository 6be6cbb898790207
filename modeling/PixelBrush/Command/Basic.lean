import PixelBrush.Command.Options
import PixelBrush.Session.Basic

namespace PixelBrush

/-!
# The command

The command runs one program file and prints its canvas.  What it prints and its
exit status are computed from its words and the contents of the file; reading
the file and printing are left to the caller.
-/

/-- What reading a file gives. -/
inductive FileContents where
  | missing
  | directory
  | unreadable (reason : String)
  | bytes (bytes : ByteArray)

/-- The exit status and the messages for the two output channels. -/
structure CommandReport where
  status : Nat
  errorLines : List String
  lines : List String
  deriving Repr, DecidableEq

namespace CommandReport

/--
Messages one below the other; one that names a file may itself have several
lines.
-/
def printed (messages : List String) : String :=
  String.join (messages.map (· ++ "\n"))

/-- What is printed on the error channel. -/
def errorText (report : CommandReport) : String :=
  printed report.errorLines

/-- What is printed on the output channel. -/
def text (report : CommandReport) : String :=
  printed report.lines

end CommandReport

namespace Command

/-- The name and the version of the command. -/
def versionLine : String :=
  "pixwall 0.1.0"

/-- The help text. -/
def helpLines : List String :=
  ["Usage: pixwall [OPTIONS] <FILE>",
    "",
    "  --size <N>         side of the canvas, from 1 to 512 [default: 32]",
    "  --max-steps <N>    instructions that may run [default: 1000000]",
    "  --view             open the viewer instead of printing the canvas",
    "  --history-mb <N>   memory for the history of the viewer [default: 256]",
    "  -h, --help         print this help",
    "  -V, --version      print the version"]

/-- The report on words that the command does not understand. -/
def usageReport (error : UsageError) : CommandReport :=
  ⟨2, [error.message], []⟩

/-- The message for text that is not valid UTF-8. -/
def notText : String :=
  "Error: Error \x7b kind: InvalidData, message: " ++
    "\"stream did not contain valid UTF-8\" \x7d"

/-- The message for a directory in place of a file. -/
def isDirectory : String :=
  "Error: Os \x7b code: 21, kind: IsADirectory, message: \"Is a directory\" \x7d"

/-- The message of the viewer where no terminal is attached. -/
def noTerminal : String :=
  "Error: Os \x7b code: 6, kind: Uncategorized, message: " ++
    "\"No such device or address\" \x7d"

/-- The line that closes the report of a run. -/
def outcomeLine : Outcome → String
  | .success => "Compiled and ran successfully."
  | .successWithWarnings => "Compiled with warnings and ran successfully."
  | .failed => "Failed."

/-- The memory for the history, as an unsigned 64-bit number. -/
def historyBytes (megabytes : Nat) : Nat :=
  min (megabytes * (1024 * 1024)) (UInt64.size - 1)

/-- The configuration that the options ask for. -/
def config (options : Options) : Config :=
  let config :=
    (Config.standard.withCanvasSize options.size).withStepLimit
      options.stepLimit
  if options.view then
    config.withHistory (historyBytes options.historyMegabytes)
  else
    config

/-- The lines of the viewer, which needs a terminal to go on. -/
def viewLines (machine : Machine) : List String :=
  let total := s!"Total snapshots: {machine.recorded}"
  match Machine.rewind machine with
  | .ok _ _ => [total, noTerminal]
  | .error error _ =>
      [total, s!"Warning: Failed to rewind to start: {error.message}",
        noTerminal]

/-- Runs a source text under the options. -/
def runSource (options : Options) (source : String) : CommandReport :=
  let (session, report) := (Session.start (config options)).run source
  let errorLines :=
    s!"Running {options.file}..." ::
      (report.lines ++ [outcomeLine report.outcome])
  match report.machine, options.view with
  | some machine, true =>
      ⟨1, errorLines ++ viewLines machine, []⟩
  | _, _ =>
      ⟨if report.isSuccess then 0 else 1, errorLines, session.canvas.textLines⟩

/-- The report on a request for the version. -/
def versionReport : CommandReport :=
  ⟨0, [], [versionLine]⟩

/-- The report on a request for help. -/
def helpReport : CommandReport :=
  ⟨0, [], helpLines⟩

/-- Runs a program file under the options. -/
def runFile (options : Options) (contents : FileContents) : CommandReport :=
  match contents with
  | .missing => ⟨1, [s!"Error: File '{options.file}' not found"], []⟩
  | .directory => ⟨1, [isDirectory], []⟩
  | .unreadable reason => ⟨1, [s!"Error: {reason}"], []⟩
  | .bytes bytes =>
      match String.fromUTF8? bytes with
      | none => ⟨1, [notText], []⟩
      | some source => runSource options source

end Command

end PixelBrush
