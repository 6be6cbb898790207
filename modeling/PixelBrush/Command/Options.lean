import PixelBrush.Number

namespace PixelBrush

/-!
# Command options

The words after the command's name are read from left to right.  An option's
value is the next word or follows an equals sign; a word that is no option names
the program file; after a bare double hyphen every word does.
-/

/-- What the command is asked to do with a program file. -/
structure Options where
  file : String
  size : Nat
  stepLimit : Nat
  view : Bool
  historyMegabytes : Nat
  deriving Repr, DecidableEq

/-- The options that take a count. -/
inductive CountOption where
  | size
  | maxSteps
  | historyMegabytes
  deriving Repr, DecidableEq

/-- Words that the command does not understand. -/
inductive UsageError where
  | missingFile
  | unexpected (word : String)
  | missingValue (option : CountOption)
  | invalidValue (option : CountOption) (value : String)
  | repeated (option : String)
  deriving Repr, DecidableEq

/-- A request that the words make. -/
inductive Request where
  | run (options : Options)
  | version
  | help
  deriving Repr, DecidableEq

namespace CountOption

/-- Every option that takes a count. -/
def all : List CountOption :=
  [.size, .maxSteps, .historyMegabytes]

/-- The spelling of an option. -/
def flag : CountOption → String
  | .size => "--size"
  | .maxSteps => "--max-steps"
  | .historyMegabytes => "--history-mb"

/-- The option with a spelling. -/
def ofFlag? (word : String) : Option CountOption :=
  all.find? fun option => option.flag == word

end CountOption

/-- The wording of a usage error. -/
def UsageError.message : UsageError → String
  | .missingFile => "error: a program file is required"
  | .unexpected word => s!"error: unexpected argument '{word}'"
  | .missingValue option => s!"error: a value is required for '{option.flag}'"
  | .invalidValue option value =>
      s!"error: invalid value '{value}' for '{option.flag}'"
  | .repeated option => s!"error: '{option}' is given more than once"

/--
Reads a count: an optional plus sign and digits, as an unsigned 64-bit number.
-/
def readCount? (text : String) : Option Nat :=
  let digits :=
    match text.toList with
    | '+' :: digits => digits
    | digits => digits
  (Number.magnitude? digits).filter (· < UInt64.size)

/-- What a word is on its own. -/
inductive Word where
  | endOfOptions
  | version
  | help
  | view
  | count (option : CountOption)
  | joined (option : CountOption) (value : String)
  | unknownOption
  | name
  deriving Repr, DecidableEq

namespace Word

/-- The option and the value that one word joins with an equals sign. -/
def joined? (characters : List Char) : Option Word :=
  let flag := characters.takeWhile (· != '=')
  match characters.drop flag.length with
  | '=' :: value =>
      (CountOption.ofFlag? (String.ofList flag)).map
        (.joined · (String.ofList value))
  | _ => none

/-- A word by its first letters, where it is no full option. -/
def ofLetters : List Char → Word
  | '-' :: 'V' :: _ => .version
  | '-' :: 'h' :: _ => .help
  | '-' :: _ :: _ => .unknownOption
  | _ => .name

/-- The class of a word. -/
def ofString (word : String) : Word :=
  match word with
  | "--" => .endOfOptions
  | "--version" => .version
  | "--help" => .help
  | "--view" => .view
  | _ =>
      match CountOption.ofFlag? word with
      | some option => .count option
      | none => (joined? word.toList).getD (ofLetters word.toList)

end Word

/-- The options read so far. -/
structure Draft where
  file : Option String
  size : Option Nat
  stepLimit : Option Nat
  view : Bool
  historyMegabytes : Option Nat
  deriving Repr, DecidableEq

namespace Draft

/-- Nothing is read at first. -/
def empty : Draft :=
  ⟨none, none, none, false, none⟩

/-- The count that an option has been given. -/
def count? (draft : Draft) : CountOption → Option Nat
  | .size => draft.size
  | .maxSteps => draft.stepLimit
  | .historyMegabytes => draft.historyMegabytes

/-- Gives an option its value. -/
def setCount
    (draft : Draft)
    (option : CountOption)
    (text : String) :
    Except UsageError Draft :=
  if (draft.count? option).isSome then
    .error (.repeated option.flag)
  else
    match readCount? text with
    | none => .error (.invalidValue option text)
    | some value =>
        match option with
        | .size => .ok { draft with size := some value }
        | .maxSteps => .ok { draft with stepLimit := some value }
        | .historyMegabytes => .ok { draft with historyMegabytes := some value }

/--
Takes a word as the program file; there is only one, and its name is not empty.
-/
def setFile (draft : Draft) (word : String) : Except UsageError Draft :=
  if draft.file.isSome || word.isEmpty then
    .error (.unexpected word)
  else
    .ok { draft with file := some word }

/-- Asks for the viewer. -/
def setView (draft : Draft) : Except UsageError Draft :=
  if draft.view then
    .error (.repeated "--view")
  else
    .ok { draft with view := true }

/-- The request that the words make once all are read. -/
def finish (draft : Draft) : Except UsageError Request :=
  match draft.file with
  | none => .error .missingFile
  | some file =>
      .ok (.run
        { file := file
          size := draft.size.getD 32
          stepLimit := draft.stepLimit.getD 1000000
          view := draft.view
          historyMegabytes := draft.historyMegabytes.getD 256 })

/-- Reads words that can only name the file. -/
def readFiles (draft : Draft) : List String → Except UsageError Request
  | [] => draft.finish
  | word :: rest => do
      let draft ← draft.setFile word
      draft.readFiles rest

/-- Reads the words from left to right. -/
def read (draft : Draft) : List String → Except UsageError Request
  | [] => draft.finish
  | word :: rest =>
      match Word.ofString word with
      | .endOfOptions => draft.readFiles rest
      | .version => .ok .version
      | .help => .ok .help
      | .unknownOption => .error (.unexpected word)
      | .view => do
          let draft ← draft.setView
          draft.read rest
      | .joined option value => do
          let draft ← draft.setCount option value
          draft.read rest
      | .name => do
          let draft ← draft.setFile word
          draft.read rest
      | .count option =>
          match rest with
          | [] => .error (.missingValue option)
          | value :: rest =>
              if Word.ofString value = .name then do
                let draft ← draft.setCount option value
                draft.read rest
              else
                .error (.missingValue option)

end Draft

/-- The request that a list of words makes. -/
def Request.ofWords (words : List String) : Except UsageError Request :=
  Draft.empty.read words

end PixelBrush
