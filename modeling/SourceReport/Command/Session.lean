import SourceReport.Command.Console
import SourceReport.Command.Grammar
import SourceReport.Command.Help
import SourceReport.Command.Status
import SourceReport.Log.Record

/-!
# Sessions

What a run of the program works on: its console, its log and the files. An `Action` changes the
session and answers, or breaks the run off.

* The first output and files hold only texts that have an encoding; a text with a surrogate breaks
  the run off (`Session.print`).
* `Session.close` says on the second output why a run was broken off.
-/

namespace SourceReport

/-- Why a run breaks down. -/
inductive Breakdown where
  /-- The environment asks for a log level in digits that write no number. -/
  | logLevel (e : LogLevel.NumberError)
  /-- An answer has no encoding. -/
  | encoding
  /-- A color that no terminal knows. -/
  | color (e : Ansi.UnknownColor)
  /-- A name that no file can have. -/
  | fileName (e : Path.NameError)
  /-- What a text holds is refused. -/
  | refused (r : Data.Refusal)
deriving DecidableEq

/-- The breakdown in words. -/
def Breakdown.message : Breakdown → Text
  | .logLevel e => e.message
  | .encoding => EncodingError.reason
  | .color e => e.message
  | .fileName e => e.message
  | .refused r => r.message

/-- Why a run ends before its command is through. -/
inductive Ending where
  /-- A help page was asked for. -/
  | help (page : HelpPage)
  /-- The command line is refused. -/
  | refused (page : HelpPage) (e : UsageError)
  | failed (f : Failure)
  | broken (b : Breakdown)

/-- The state of a run. -/
structure Session where
  console : Console
  /-- The level from which log records are written. -/
  threshold : LogLevel
  /-- The level from which the program talks about its work. -/
  verbosity : LogLevel
  /-- What the user says about colors. -/
  mode : Option ColorMode
  env : Environment
  tree : Tree

/-- A step of a run. -/
abbrev Action (α : Type) := ExceptT Ending (StateM Session) α

namespace Session

/-- Changes the console. -/
def onConsole (f : Console → Console) : Action Unit :=
  modify fun s => { s with console := f s.console }

/-- Writes an answer. -/
def print (t : Text) (newline : Bool) : Action Unit :=
  if t.loneSurrogate?.isSome then throw (.broken .encoding)
  else onConsole (·.print t newline)

/-- Writes an answer on a line of its own. -/
def printLine (t : Text) : Action Unit := print t true

/-- Writes a warning. -/
def warn (t : Text) : Action Unit := onConsole (·.warn t true)

/-- Writes a log record. -/
def log (level : LogLevel) (message : Text) : Action Unit :=
  modify fun s =>
    { s with console := s.console.record (LogRecord.emit s.threshold ⟨level, message⟩) }

/-- Breaks the run off with an error. -/
def fail {α : Type} (status : Status) (message : Text) : Action α :=
  throw (.failed ⟨status, message⟩)

/-- The value of a computation of the library. -/
def ofLibrary {ε α : Type} (error : ε → LibraryError) (x : Except ε α) : Action α :=
  match x with
  | .ok a => return a
  | .error e => throw (.failed (.of (error e)))

/-- A text with attributes. -/
def styled (a : Ansi.Attributes) (t : Text) : Action Text := do
  match (← get).console.styled a t with
  | .ok t => return t
  | .error e => throw (.broken (.color e))

/-- Whether the program talks about what has a level. -/
def talksAt (level : LogLevel) : Action Bool := return (← get).verbosity ≤ level

/-- Reads the words of a command. -/
def readWords {σ : Type} (page : HelpPage) (x : Except Stop σ) : Action σ :=
  match x with
  | .ok s => return s
  | .error .help => throw (.help page)
  | .error (.refused e) => throw (.refused page e)

/-- Breaks the run off unless a path names a file. -/
def requireFile (path : Text) : Action Unit := do
  if !(← get).tree.isFile (.ofText path) then
    fail .missingFile ("No such file: " ++ path)

/-- What the log says of a source that cannot be read. -/
def sourceTrouble (e : ReadError) : Text :=
  "Cannot read source " ++ e.path.toText ++ ": " ++ e.fault.message e.path

/-- Reads a file as a source. -/
def readSource (path : Path) : Action Source := do
  match (← get).tree.readSource? path with
  | .ok s => return s
  | .error e =>
    log .error (sourceTrouble e)
    throw (.failed (.of (.read e)))

end Session

/-- What a run leaves behind. -/
structure Outcome where
  status : Nat
  console : Console
  tree : Tree
  breakdown : Option Breakdown := none

namespace Session

/-- The outcome of a run that was broken off. -/
def close (s : Session) : Ending → Outcome
  | .help page =>
    { status := Status.success.code, console := s.console.print page.text true, tree := s.tree }
  | .refused page e =>
    let usage : Text := page.usage ++ "\n" ++ page.hint ++ "\n\n"
    { status := Status.badCommandLine.code
      console := s.console.note
        ((if e.showsUsage then usage else []) ++ "Error: " ++ e.message) true
      tree := s.tree }
  | .failed f =>
    { status := f.status.code
      console := s.console.note ("Error: " ++ f.message) true
      tree := s.tree }
  | .broken b =>
    { status := brokenStatus, console := s.console, tree := s.tree, breakdown := some b }
where
  /-- The status of a run that breaks down. -/
  brokenStatus : Nat := 1

/-- The outcome of a run. -/
def run (s : Session) (command : Action Status) : Outcome :=
  match StateT.run (ExceptT.run command) s with
  | (.ok status, s) => { status := status.code, console := s.console, tree := s.tree }
  | (.error ending, s) => s.close ending

end Session

end SourceReport
