import PixelBrush.Command.Basic

namespace PixelBrush.Command

/-!
# The program

Reads the program file that the words name, runs the command and prints its
report.
-/

/-- Reads a file, telling missing ones and directories from unreadable ones. -/
def readContents (file : String) : IO FileContents := do
  try
    return .bytes (← IO.FS.readBinFile file)
  catch error =>
    match error with
    | .noFileOrDirectory .. => return .missing
    | .inappropriateType .. => return .directory
    | other => return .unreadable (toString other)

/-- Prints a report and gives its exit status. -/
def printReport (report : CommandReport) : IO UInt32 := do
  IO.eprint report.errorText
  IO.print report.text
  return report.status.toUInt32

/-- Does what the words ask for. -/
def serve (words : List String) : IO UInt32 :=
  match Request.ofWords words with
  | .error error => printReport (usageReport error)
  | .ok .version => printReport versionReport
  | .ok .help => printReport helpReport
  | .ok (.run options) => do
      printReport (runFile options (← readContents options.file))

end PixelBrush.Command

/-- The command line. -/
def main (words : List String) : IO UInt32 :=
  PixelBrush.Command.serve words
