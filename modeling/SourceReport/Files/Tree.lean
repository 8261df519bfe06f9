import SourceReport.Files.Path
import SourceReport.Text.Quoted
import SourceReport.Text.Utf8

/-!
# File trees

A snapshot of the files that a run may see, and of the directory in which it works. Reading answers
the bytes of a file or the fault; writing answers a new tree.
-/

namespace SourceReport

/-- What a path names. -/
inductive Entry where
  | file (bytes : List UInt8)
  | directory
deriving DecidableEq

/-- Why a file cannot be read or written. -/
inductive Fault where
  | missing
  | isDirectory
  | notDirectory
  | undecodable (e : Utf8.DecodeError)
deriving DecidableEq

/-- A fault in words; `path` is the path as it was given. -/
def Fault.message (path : Path) : Fault → Text
  | .missing => "[Errno 2] No such file or directory: " ++ path.toText.quoted
  | .isDirectory => "[Errno 21] Is a directory: " ++ path.toText.quoted
  | .notDirectory => "[Errno 20] Not a directory: " ++ path.toText.quoted
  | .undecodable e => e.message

/-- A snapshot of files and directories. -/
structure Tree where
  /-- The working directory, to which relative paths refer. -/
  cwd : Path
  /-- What the paths name, each by its parts from the root. -/
  entries : List (List Text × Entry)

namespace Tree

/-- The path with the working directory in front if it is relative. -/
def absolute (tree : Tree) (p : Path) : Path := tree.cwd / p

/-- The path from the root, without double points. -/
def resolve (tree : Tree) (p : Path) : Path := (tree.absolute p).collapse

/-- What stands under the parts of a path. Directories exist that hold an entry or the working
directory. -/
def at? (tree : Tree) (parts : List Text) : Option Entry :=
  match tree.entries.lookup parts with
  | some entry => some entry
  | none =>
    if parts.isPrefixOf tree.cwd.parts || tree.entries.any (fun e => parts.isPrefixOf e.1) then
      some .directory
    else none

/-- Walks down the parts of a path, `done` being those passed already, the last one first. -/
def walk (tree : Tree) (done : List Text) : List Text → Except Fault (List Text)
  | [] => .ok done.reverse
  | part :: rest =>
    if part = ".." then tree.walk (done.drop 1) rest
    else
      let here := part :: done
      match rest with
      | [] => .ok here.reverse
      | _ :: _ =>
        match tree.at? here.reverse with
        | none => .error .missing
        | some (.file _) => .error .notDirectory
        | some .directory => tree.walk here rest

/-- What a path names. -/
def entry? (tree : Tree) (p : Path) : Except Fault Entry := do
  let parts ← tree.walk [] (tree.absolute p).parts
  match tree.at? parts with
  | some entry => .ok entry
  | none => .error .missing

/-- Whether the path names a file. -/
def isFile (tree : Tree) (p : Path) : Bool :=
  match tree.entry? p with
  | .ok (.file _) => true
  | _ => false

/-- Whether the path names a directory. -/
def isDirectory (tree : Tree) (p : Path) : Bool :=
  match tree.entry? p with
  | .ok .directory => true
  | _ => false

/-- The bytes of a file. -/
def read? (tree : Tree) (p : Path) : Except Fault (List UInt8) := do
  match ← tree.entry? p with
  | .file bytes => .ok bytes
  | .directory => .error .isDirectory

/-- The text of a file in UTF-8, with its line ends as they are. -/
def readText? (tree : Tree) (p : Path) : Except Fault Text := do
  let bytes ← tree.read? p
  match Utf8.decode? bytes with
  | .ok t => .ok t
  | .error e => .error (.undecodable e)

/-- A text that was read holds no surrogate. -/
theorem loneSurrogate?_of_readText? {tree : Tree} {p : Path} {t : Text}
    (h : tree.readText? p = .ok t) : t.loneSurrogate? = none := by
  unfold readText? at h
  cases hb : tree.read? p with
  | error fault => rw [hb] at h; cases h
  | ok bytes =>
    rw [hb] at h
    cases hd : Utf8.decode? bytes with
    | error e => simp [bind, Except.bind, hd] at h
    | ok u =>
      simp [bind, Except.bind, hd] at h
      exact h ▸ Utf8.loneSurrogate?_of_decode? hd

/-- Every CR LF and every other CR as one LF. -/
def unifyLineEnds : Text → Text
  | [] => []
  | [c] => if c = '\r' then ['\n'] else [c]
  | c :: d :: rest =>
    if c = '\r' then
      if d = '\n' then '\n' :: unifyLineEnds rest else '\n' :: unifyLineEnds (d :: rest)
    else c :: unifyLineEnds (d :: rest)

/-- The text of a document or settings file: its line ends are unified. -/
def readDocument? (tree : Tree) (p : Path) : Except Fault Text :=
  (tree.readText? p).map unifyLineEnds

/-- Writes a file. -/
def write? (tree : Tree) (p : Path) (bytes : List UInt8) : Except Fault Tree := do
  let parts ← tree.walk [] (tree.absolute p).parts
  match tree.at? parts with
  | some .directory => .error .isDirectory
  | _ =>
    let others := tree.entries.filter fun e => e.1 ≠ parts
    .ok { tree with entries := others ++ [(parts, .file bytes)] }

end Tree

end SourceReport
