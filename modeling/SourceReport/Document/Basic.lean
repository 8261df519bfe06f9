import SourceReport.Data.Json.Reader
import SourceReport.Data.Toml.Reader
import SourceReport.Document.Reader

/-!
# Documents

A document is written in TOML or JSON. In a file the ending of its name tells which of them, and the
paths in it are relative to its directory.

* `Document.ofText` reads a text, `Document.ofFile` a file.
-/

namespace SourceReport

open Data (Value)

namespace DocumentFormat

/-- Reads a text of the format. -/
def read? (format : DocumentFormat) (text : Text) : Except Data.FormatError Value :=
  match format with
  | .json => Data.Json.read? text
  | .toml => (Data.Toml.read? text).map .table

/-- The format of a file. -/
def ofPath (path : Path) : DocumentFormat :=
  if path.extension.toLower = ".json" then .json else .toml

end DocumentFormat

namespace Document

/-- Reads a document from a text. -/
def ofText (tree : Tree) (format : DocumentFormat) (directory : Path) (text : Text) :
    Loading Document :=
  match format.read? text with
  | .error (.malformed e) => .refuse "document" (.malformed format e)
  | .error (.refused r) => { outcome := .error (.refused r) }
  | .ok v => ofValue tree directory v

/-- Reads a document from a file. -/
def ofFile (tree : Tree) (path : Path) : Loading Document :=
  match tree.readDocument? path with
  | .error fault => .refuse path.toText (.unreadable path fault)
  | .ok text => ofText tree (.ofPath path) path.parent text

end Document

end SourceReport
