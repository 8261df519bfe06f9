import SourceReport.Command.Locate
import SourceReport.Command.Render
import SourceReport.Command.Version

/-!
# The program

The program has options of its own and three commands. Its options stand in front of the command;
they are read before anything is done.

* `run` is the whole program: from the words of the command line to the outcome.
-/

namespace SourceReport

/-- What the program as a whole is asked for. -/
structure ProgramOptions where
  /-- How often the user asks to hear more. -/
  verbose : Nat := 0
  /-- How often the user asks to hear less. -/
  quiet : Nat := 0
  mode : Option ColorMode := none
  noColor : Bool := false

namespace ProgramOptions

/-- What the words in front of the command mean. -/
def grammar : Grammar ProgramOptions where
  options := [
    ⟨["-q", "--quiet"], .switch fun o => { o with quiet := o.quiet + 1 }⟩,
    ⟨["-v", "--verbose"], .switch fun o => { o with verbose := o.verbose + 1 }⟩,
    ⟨["--no-color"], .switch fun o => { o with noColor := true }⟩,
    ⟨["--color"], .choice fun m o => { o with mode := some m }⟩,
    .help]
  operands := []
  mixed := false

/-- What the user says about colors. -/
def colorMode (o : ProgramOptions) : Option ColorMode := if o.noColor then some .never else o.mode

/-- The level from which the program talks about its work. -/
def verbosity (verbose quiet : Nat) : Except Failure LogLevel :=
  if 0 < verbose ∧ 0 < quiet then
    .error ⟨.usage, "The '--verbose' and '--quiet' options are mutually exclusive."⟩
  else
    .ok (match verbose with
      | 0 => if quiet = 0 then .warning else .error
      | 1 => .info
      | 2 => .debug
      | _ => .trace)

end ProgramOptions

/-- What a run is started with. -/
structure Request where
  words : List Text
  env : Environment
  tree : Tree
  /-- Whether the first output is a terminal. -/
  isTerminal : Bool := false

namespace Program

/-- What is said to a user who names no command. -/
def greeting : Text := "Hint: use 'spanmark render DOCUMENT' to render diagnostics."

/-- The session before anything is known of it. -/
def start (r : Request) : Session where
  console := { color := false }
  threshold := LogLevel.critical
  verbosity := LogLevel.warning
  mode := none
  env := r.env
  tree := r.tree

/-- Lets the options of the program take effect. -/
def setUp (o : ProgramOptions) (isTerminal : Bool) : Action Unit := do
  let env := (← get).env
  match ProgramOptions.verbosity o.verbose o.quiet with
  | .error f => throw (.failed f)
  | .ok verbosity =>
    match LogLevel.ofEnvironment env with
    | .error e => throw (.broken (.logLevel e))
    | .ok asked =>
      modify fun s => { s with
        console := { s.console with color := ColorMode.resolve o.colorMode none env isTerminal }
        threshold := LogLevel.threshold asked
        verbosity := verbosity
        mode := o.colorMode }

/-- Shows how to use the program. -/
def greet : Action Status := do
  Session.printLine greeting
  Session.printLine []
  Session.printLine HelpPage.program.text
  return .success

/-- Reads the words of a command and runs it. -/
def dispatch {σ : Type} (page : HelpPage) (g : Grammar σ) (initial : σ)
    (command : σ → Action Status) (words : List Text) : Action Status := do
  command (← Session.readWords page (g.readAll (← get).tree words initial))

/-- The command of a name. -/
def command? (name : Text) : Option (List Text → Action Status) :=
  if name = "render" then some (dispatch .render Render.grammar {} Render.command)
  else if name = "locate" then some (dispatch .locate Locate.grammar {} Locate.command)
  else if name = "version" then some (dispatch .version Version.grammar {} Version.command)
  else none

/-- Reads the words in front of the command; answers the rest. -/
def readOptions (words : List Text) : Action (ProgramOptions × List Text) := do
  Session.readWords .program (ProgramOptions.grammar.read (← get).tree words {})

/-- Refuses a word that names no command. It may be an option behind the end of the options. -/
def refuse (name : Text) (words : List Text) : Action Status := do
  let _ ← readOptions words
  throw (.refused .program (.unknownCommand name))

/-- The program as an action. -/
def action (r : Request) : Action Status := do
  let (o, rest) ← readOptions r.words
  match rest with
  | [] =>
    setUp o r.isTerminal
    greet
  | name :: words =>
    match command? name with
    | none => refuse name rest
    | some command =>
      setUp o r.isTerminal
      command words

/-- Runs the program. -/
def run (r : Request) : Outcome := (start r).run (action r)

end Program

end SourceReport
