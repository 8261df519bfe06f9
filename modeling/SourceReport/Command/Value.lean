import SourceReport.Command.Grammar
import SourceReport.Settings.Choice
import SourceReport.Text.Integer
import SourceReport.Text.Quoted

/-!
# Values on the command line

How the values of options and operands are read: amounts, paths of files, and alternatives of
choices.
-/

namespace SourceReport

variable {σ : Type}

/-- Reads an amount: an integer that is not negative. -/
def amount (set : Int → σ → σ) (_ : Tree) (word : Text) : Except Text (σ → σ) :=
  match Text.readInt 10 word with
  | .ok (some n) =>
    if n < 0 then .error (Text.ofInt n ++ " is not in the range x>=0.") else .ok (set n)
  | _ => .error (word.quoted ++ " is not a valid integer range.")

/-- Reads the path of a file, which may not exist. -/
def filePath (set : Text → σ → σ) (tree : Tree) (word : Text) : Except Text (σ → σ) :=
  if word ≠ [] && tree.isDirectory (.ofText word) then
    .error ("File " ++ word.quoted ++ " is a directory.")
  else .ok (set word)

/-- Reads an alternative of a choice. -/
def alternative {α : Type} [Choice α] (set : α → σ → σ) (_ : Tree) (word : Text) :
    Except Text (σ → σ) :=
  match Choice.parse? word with
  | some a => .ok (set a)
  | none => .error (Choice.refusal α word)

/-- Reads one of some words, whatever its letter case. -/
def oneOf {α : Type} (words : List (Text × α)) (set : α → σ → σ) (_ : Tree) (word : Text) :
    Except Text (σ → σ) :=
  match words.lookup word.toLower with
  | some a => .ok (set a)
  | none =>
    .error (word.quoted ++ " is not one of "
      ++ Text.join ", " (words.map fun w : Text × α => w.1.quoted) ++ ".")

namespace Effect

/-- The option takes an amount. -/
def amount (set : Int → σ → σ) : Effect σ := .value (SourceReport.amount set)

/-- The option takes the path of a file. -/
def filePath (set : Text → σ → σ) : Effect σ := .value (SourceReport.filePath set)

/-- The option takes an alternative of a choice. -/
def choice {α : Type} [Choice α] (set : α → σ → σ) : Effect σ := .value (alternative set)

end Effect

/-- The option that shows the help page. -/
def Opt.help : Opt σ := ⟨["-h", "--help"], .help⟩

end SourceReport
