import SourceReport.Command.Similar
import SourceReport.Files.Tree

/-!
# Command lines

The words of a command line are options, the values of options, and operands. A `Grammar` lists the
options and operands of a command; `σ` holds what they set.

* An option is called by a long name, `--name`, or by a letter, `-n`. Its value is the next word,
  or follows the long name after `=`, or follows the letter. Letters can share one word.
* `--` ends the options. If operands are not mixed with options, so does the first operand.
* `Grammar.scan` tells the words apart. `Grammar.read` then lets them take effect: the help page
  wins over everything, then options are read in the order in which they first occur, then the
  operands.
* An option that occurs again replaces its earlier value before that is read.
-/

namespace SourceReport

/-- What an option does. -/
inductive Effect (σ : Type) where
  /-- It takes no value. -/
  | switch (set : σ → σ)
  /-- It takes a value, which is read or refused with a reason. -/
  | value (read : Tree → Text → Except Text (σ → σ))
  /-- It shows the help page. -/
  | help

/-- An option. -/
structure Opt (σ : Type) where
  /-- The names by which it is called: `-` and a letter, or `--` and a word. -/
  names : List Text
  effect : Effect σ

/-- An operand. -/
structure Operand (σ : Type) where
  /-- The operand in messages. -/
  name : Text
  required : Bool
  read : Tree → Text → Except Text (σ → σ)

/-- The options and operands of a command. -/
structure Grammar (σ : Type) where
  options : List (Opt σ)
  operands : List (Operand σ)
  /-- Whether options may follow operands. -/
  mixed : Bool

/-- Why a command line is refused. -/
inductive UsageError where
  /-- No option has the name; some have similar ones. -/
  | unknownOption (name : Text) (similar : List Text)
  /-- The value of an option is missing. -/
  | missingValue (name : Text)
  /-- The option takes no value. -/
  | unwantedValue (name : Text)
  /-- The value of an option or an operand is refused. -/
  | badValue (place reason : Text)
  | missingOperand (name : Text)
  | extraOperands (words : List Text)
  | unknownCommand (name : Text)
deriving DecidableEq

namespace UsageError

/-- What is said of similar names. -/
def suggestion : List Text → Text
  | [] => []
  | [name] => " Did you mean " ++ name ++ "?"
  | names => " (Possible options: " ++ Text.join ", " names ++ ")"

/-- The error in words. -/
def message : UsageError → Text
  | .unknownOption name similar => "No such option: " ++ name ++ suggestion similar
  | .missingValue name => "Option " ++ name.quoted ++ " requires an argument."
  | .unwantedValue name => "Option " ++ name.quoted ++ " does not take a value."
  | .badValue place reason => "Invalid value for " ++ place ++ ": " ++ reason
  | .missingOperand name => "Missing argument '" ++ name ++ "'."
  | .extraOperands [word] => "Got unexpected extra argument (" ++ word ++ ")"
  | .extraOperands words => "Got unexpected extra arguments (" ++ Text.join " " words ++ ")"
  | .unknownCommand name => "No such command " ++ name.quoted ++ "."

/-- Whether the usage is shown with the message. -/
def showsUsage : UsageError → Bool
  | .missingValue _ => false
  | .unwantedValue _ => false
  | _ => true

end UsageError

/-- Why a command line has no effect. -/
inductive Stop where
  /-- The help page is asked for. -/
  | help
  | refused (e : UsageError)

/-- An option on a command line. -/
structure Occurrence (σ : Type) where
  option : Opt σ
  value : Option Text

/-- An option that waits for its value, with the name by which it was called. -/
abbrev Waiting (σ : Type) := Option (Opt σ × Text)

namespace Opt

variable {σ : Type}

/-- Whether the option takes a value. -/
def takesValue (o : Opt σ) : Bool :=
  match o.effect with
  | .value _ => true
  | _ => false

/-- Whether the option shows the help page. -/
def isHelp (o : Opt σ) : Bool :=
  match o.effect with
  | .help => true
  | _ => false

/-- The option in messages: all its names. -/
def place (o : Opt σ) : Text := Text.join " / " (o.names.map fun n : Text => "'" ++ n ++ "'")

end Opt

/-- The front of long names. -/
def longFront : Text := "--"

/-- Whether a name is a long one. -/
def isLong (name : Text) : Bool := longFront.isPrefixOf name

/-- Whether a word is an option or several letters of options. -/
def isOptionWord (word : Text) : Bool := word.head? = some '-' && 1 < word.length

/-- The name in front of `=`, and the value after it if there is one. -/
def splitValue (word : Text) : Text × Option Text :=
  match word.span fun c : CodePoint => c ≠ '=' with
  | (name, _ :: value) => (name, some value)
  | (name, []) => (name, none)

namespace Grammar

variable {σ : Type}

/-- The option of a name. -/
def option? (g : Grammar σ) (name : Text) : Option (Opt σ) := g.options.find? (name ∈ ·.names)

/-- The long names. -/
def longNames (g : Grammar σ) : List Text := (g.options.flatMap (·.names)).filter isLong

/-- Reads the letters of a word. -/
def scanLetters (g : Grammar σ) : Text → Except UsageError (List (Occurrence σ) × Waiting σ)
  | [] => .ok ([], none)
  | letter :: rest =>
    match g.option? ['-', letter] with
    | none => .error (.unknownOption ['-', letter] [])
    | some o =>
      if o.takesValue then
        .ok (if rest.isEmpty then ([], some (o, ['-', letter])) else ([⟨o, some rest⟩], none))
      else do
        let (given, waiting) ← g.scanLetters rest
        return (⟨o, none⟩ :: given, waiting)

/-- Reads a word that holds options. -/
def scanWord (g : Grammar σ) (word : Text) :
    Except UsageError (List (Occurrence σ) × Waiting σ) :=
  let (name, value) := splitValue word
  if isLong word then
    match g.option? name with
    | none => .error (.unknownOption name (Similar.closest name g.longNames))
    | some o =>
      match o.takesValue, value with
      | true, some value => .ok ([⟨o, some value⟩], none)
      | true, none => .ok ([], some (o, name))
      | false, some _ => .error (.unwantedValue name)
      | false, none => .ok ([⟨o, none⟩], none)
  else g.scanLetters (word.drop 1)

/-- Tells options and operands apart. -/
def scan (g : Grammar σ) : Waiting σ → List Text →
    Except UsageError (List (Occurrence σ) × List Text)
  | none, [] => .ok ([], [])
  | some (_, name), [] => .error (.missingValue name)
  | some (o, _), word :: rest => do
    let (given, operands) ← g.scan none rest
    return (⟨o, some word⟩ :: given, operands)
  | none, word :: rest =>
    if word = longFront then .ok ([], rest)
    else if isOptionWord word then do
      let (given, waiting) ← g.scanWord word
      let (more, operands) ← g.scan waiting rest
      return (given ++ more, operands)
    else if g.mixed then do
      let (given, operands) ← g.scan none rest
      return (given, word :: operands)
    else .ok ([], word :: rest)

/-- Lets the switches take effect, each time that they occur. -/
def applySwitches (given : List (Occurrence σ)) (s : σ) : σ :=
  given.foldl (fun s occurrence =>
    match occurrence.option.effect with
    | .switch set => set s
    | _ => s) s

/-- The last value that an option is given. -/
def lastValue? (given : List (Occurrence σ)) (o : Opt σ) : Option Text :=
  (given.reverse.find? fun occurrence => occurrence.option.names = o.names).bind (·.value)

/-- Reads the values of options in the order in which the options first occur. -/
def applyValues (tree : Tree) (given : List (Occurrence σ)) :
    List (Occurrence σ) → σ → Except UsageError σ
  | [], s => .ok s
  | occurrence :: rest, s =>
    match occurrence.option.effect, lastValue? given occurrence.option with
    | .value read, some value =>
      match read tree value with
      | .error reason => .error (.badValue occurrence.option.place reason)
      | .ok set => applyValues tree given rest (set s)
    | _, _ => applyValues tree given rest s

/-- Reads the operands in order; answers the words that are left. -/
def applyOperands (tree : Tree) : List (Operand σ) → List Text → σ →
    Except UsageError (σ × List Text)
  | [], words, s => .ok (s, words)
  | o :: rest, [], s =>
    if o.required then .error (.missingOperand o.name) else applyOperands tree rest [] s
  | o :: rest, word :: words, s =>
    match o.read tree word with
    | .error reason => .error (.badValue ("'" ++ o.name ++ "'") reason)
    | .ok set => applyOperands tree rest words (set s)

/-- Reads a command line; answers what it sets and the words that are left. -/
def read (g : Grammar σ) (tree : Tree) (words : List Text) (start : σ) :
    Except Stop (σ × List Text) := do
  let (given, operands) ← (g.scan none words).mapError .refused
  if given.any (·.option.isHelp) then throw .help
  let set ← (applyValues tree given given (applySwitches given start)).mapError .refused
  (applyOperands tree g.operands operands set).mapError .refused

/-- Reads a command line that must leave no word. -/
def readAll (g : Grammar σ) (tree : Tree) (words : List Text) (start : σ) : Except Stop σ := do
  match ← g.read tree words start with
  | (set, []) => return set
  | (_, extra) => throw (.refused (.extraOperands extra))

end Grammar

end SourceReport
