import SourceReport.Data.Toml.Reader
import SourceReport.Files.Tree
import SourceReport.Settings.Reader

/-!
# Settings files

Settings come from a file of their own, `spanmark.toml`, or from the table `tool.spanmark` of a
project file, `pyproject.toml`.

* `Tree.discover?` looks for the nearest of them, from a directory upwards.
* `Tree.draft?` reads one; a project file without the table has no settings.
* `Tree.layered?` lays what it reads over the usual settings.
-/

namespace SourceReport

open Data (Value Table)

/-- Why a settings file cannot be used. -/
inductive SettingsFault where
  | unreadable (fault : Fault)
  | malformed (e : Data.SyntaxError)
  /-- The text is of its format, and its contents are refused. -/
  | refused (r : Data.Refusal)
  /-- What is wrong in the file cannot be written. -/
  | unwritable (w : UnwritableWarning)
deriving DecidableEq

/-- A settings file that cannot be used. -/
structure SettingsError where
  path : Path
  fault : SettingsFault
deriving DecidableEq

namespace SettingsError

/-- The fault in words. -/
def reason (e : SettingsError) : Text :=
  match e.fault with
  | .unreadable fault => fault.message e.path
  | .malformed s => s.message
  | .refused r => r.message
  | .unwritable w => w.cause.message

/-- The message names the file, unless the fault lies in what the file holds. -/
def message (e : SettingsError) : Text :=
  match e.fault with
  | .unreadable _ | .malformed _ => "cannot load config " ++ e.path.toText ++ ": " ++ e.reason
  | .refused _ | .unwritable _ => e.reason

end SettingsError

/-- The name of settings files. -/
def settingsFile : Text := "spanmark.toml"

/-- The name of project files. -/
def projectFile : Text := "pyproject.toml"

/-- The table of a project file that holds settings. -/
def projectTable (t : Table) : Table :=
  Value.asTable ((Value.asTable (t.find? "tool")).find? "spanmark")

/-- Reads the text of a settings file as a table. -/
def settingsOfText? (text : Text) : Except SettingsFault Table :=
  (Data.Toml.read? text).mapError fun
    | .malformed e => .malformed e
    | .refused r => .refused r

/-- Reads settings from a text. -/
def Draft.ofText? (text : Text) : Except SettingsFault Draft := do
  (Draft.load (← settingsOfText? text)).mapError .unwritable

namespace Tree

/-- Reads a settings file as a table. -/
def settingsTable? (tree : Tree) (path : Path) : Except SettingsError Table :=
  match tree.readDocument? path with
  | .error fault => .error ⟨path, .unreadable fault⟩
  | .ok text => (settingsOfText? text).mapError (⟨path, ·⟩)

/-- Reads the settings of a file. -/
def draft? (tree : Tree) (path : Path) : Except SettingsError (Option Draft) := do
  let table ← tree.settingsTable? path
  let load (t : Table) : Except SettingsError (Option Draft) :=
    match Draft.load t with
    | .ok draft => .ok (some { draft with files := [path.toText] })
    | .error w => .error ⟨path, .unwritable w⟩
  if path.name = projectFile then
    match projectTable table with
    | [] => return none
    | inner => load inner
  else load table

/-- The settings file of a directory. -/
def settingsIn? (tree : Tree) (directory : Path) : Except SettingsError (Option Path) :=
  let own := directory / Path.ofText settingsFile
  let project := directory / Path.ofText projectFile
  if tree.isFile own then .ok (some own)
  else if tree.isFile project then
    (tree.settingsTable? project).map fun table =>
      if (projectTable table).isEmpty then none else some project
  else .ok none

/-- The first settings file in directories. -/
def firstSettings? (tree : Tree) : List Path → Except SettingsError (Option Path)
  | [] => .ok none
  | directory :: rest =>
    match tree.settingsIn? directory with
    | .ok none => tree.firstSettings? rest
    | found => found

/-- The nearest settings file at or above a place. -/
def discover? (tree : Tree) (start : Path) : Except SettingsError (Option Path) :=
  let directory := if tree.isDirectory start then start else start.parent
  tree.firstSettings? (directory :: directory.parents)

/-- The usual settings, below those of a file if there is one. -/
def layered? (tree : Tree) (path : Option Path) : Except SettingsError Draft := do
  match path with
  | none => return .usual
  | some path =>
    match ← tree.draft? path with
    | none => return .usual
    | some draft => return draft.above .usual

end Tree

end SourceReport
