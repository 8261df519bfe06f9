import SourceReport.Command.Reach

/-!
# The program on a real system

Collects what a run can see, runs it, and carries out what it answers. Nothing is decided here.
-/

namespace SourceReport

/-- A text as bytes. -/
def bytesOf (t : Text) : ByteArray := ⟨t.utf8.toArray⟩

/-- What stands under a path. What can be opened and not read is a directory. -/
def look (name : String) : IO (Option Entry) := do
  try
    return some (.file (← IO.FS.readBinFile name).toList)
  catch
    | .noFileOrDirectory .. => return none
    | _ => return some .directory

/-- A snapshot with some more paths. -/
def collect (tree : Tree) (paths : List Path) : IO Tree := do
  let mut entries := tree.entries
  for path in paths do
    if let some e ← look path.toText.toStr then
      entries := ((tree.resolve path).parts, e) :: entries
  return { tree with entries := entries }

/-- The variables of the environment. -/
def environment : IO Environment := do
  return {
    forceColor := (← IO.getEnv "FORCE_COLOR").map Text.ofString
    noColor := (← IO.getEnv "NO_COLOR").map Text.ofString
    logLevel := (← IO.getEnv "SPANMARK_LOG_LEVEL").map Text.ofString }

/-- Writes the files that a run has changed. -/
def save (before after : Tree) : IO Unit := do
  for (parts, e) in after.entries do
    if let .file bytes := e then
      if before.entries.lookup parts ≠ some e then
        IO.FS.writeBinFile (Path.mk "/" parts).toText.toStr ⟨bytes.toArray⟩

/-- Runs the program on the words of the command line; answers its status. -/
def runOn (arguments : List String) : IO UInt32 := do
  let out ← IO.getStdout
  let err ← IO.getStderr
  let tree : Tree := { cwd := .ofText (← IO.currentDir).toString, entries := [] }
  let request : Request := {
    words := arguments.map Text.ofString
    env := ← environment
    tree := tree
    isTerminal := ← out.isTty }
  let first ← collect tree request.firstReach
  let tree ← collect first { request with tree := first }.secondReach
  let outcome := Program.run { request with tree := tree }
  out.write (bytesOf outcome.console.out)
  err.write (bytesOf outcome.console.err)
  if let some b := outcome.breakdown then
    err.write (bytesOf (b.message ++ "\n"))
  save tree outcome.tree
  return outcome.status.toUInt32

end SourceReport

def main (arguments : List String) : IO UInt32 := SourceReport.runOn arguments
