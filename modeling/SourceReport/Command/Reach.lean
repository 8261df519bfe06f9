import SourceReport.Command.Program

/-!
# The files that a run can look at

A run works on a snapshot of files, so whoever starts it has to know which files to put into it.
They are found in two rounds: the paths that the words of the command line may stand for, with the
settings files around them, and then the sources of the documents among these.

* `Request.firstReach` and `Request.secondReach` list the paths; more of them than needed do no
  harm.
-/

namespace SourceReport

open Data (Value)

/-- The paths that a word of the command line may stand for. -/
def pathsOfWord (word : Text) : List Path :=
  let whole := [word]
  let afterLetter := if isOptionWord word then [word.drop 2] else []
  (whole ++ afterLetter ++ (splitValue word).2.toList).map Path.ofText

/-- The settings files at and above a directory. -/
def settingsAbove (directory : Path) : List Path :=
  (directory :: directory.parents).flatMap fun d =>
    [d / Path.ofText settingsFile, d / Path.ofText projectFile]

/-- A path and the directories on the way to it. -/
def wayTo (p : Path) : List Path := p :: p.parents

/-- The source files that a document names. -/
def Tree.sourcePaths (tree : Tree) (document : Path) : List Path :=
  let value? : Option Value := do
    let text ← (tree.readDocument? document).toOption
    ((DocumentFormat.ofPath document).read? text).toOption
  let sources : List Value := match (Value.asTable value?).find? "sources" with
    | some (.list vs) => vs
    | _ => []
  sources.filterMap fun v =>
    match (Value.asTable (some v)).find? "path" with
    | some (.text path) => some (document.parent / Path.ofText path)
    | _ => none

namespace Request

/-- The paths that the words may stand for, and the settings files around them. -/
def firstReach (r : Request) : List Path :=
  let named := r.words.flatMap pathsOfWord
  distinct (named.flatMap wayTo ++ named.flatMap fun p => settingsAbove (r.tree.resolve p).parent)

/-- The sources of the documents that the words may stand for. -/
def secondReach (r : Request) : List Path :=
  distinct ((r.words.flatMap pathsOfWord).flatMap fun p => (r.tree.sourcePaths p).flatMap wayTo)

end Request

end SourceReport
