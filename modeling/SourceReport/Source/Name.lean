import SourceReport.Digest.Blake2b
import SourceReport.Files.Path
import SourceReport.Text.Integer

/-!
# Names and identities of sources

A source is shown under a `SourceName` and kept under a `SourceId`, a digest of the name. A source
without a name is identified by its text, so that registering the same text twice gives one entry.

* The digest is taken of the kind of name, a zero byte and the name (`SourceId.preimage`).
-/

namespace SourceReport

/-- What a source is called. -/
inductive SourceName where
  /-- A text without a name. -/
  | anonymous
  /-- A text in memory under a name of the caller's choice. -/
  | snippet (name : Text)
  /-- A file. -/
  | file (path : Path)
  /-- A text fetched from an address. -/
  | remote (address : Text)
deriving DecidableEq

namespace SourceName

/-- The kind of a name. -/
def kind : SourceName → Text
  | .anonymous => "anonymous"
  | .snippet _ => "snippet"
  | .file _ => "local"
  | .remote _ => "remote"

/-- The name itself; empty for a text without a name. -/
def value : SourceName → Text
  | .anonymous => []
  | .snippet name => name
  | .file path => path.toText
  | .remote address => address

/-- The name in reports. -/
def display : SourceName → Text
  | .anonymous => "<anonymous>"
  | name => name.value

/-- The path of a file. -/
def path? : SourceName → Option Path
  | .file path => some path
  | _ => none

end SourceName

/-- The identity of a source. -/
structure SourceId where
  /-- A number of 64 bits. -/
  value : Nat
deriving DecidableEq

namespace SourceId

/-- The bytes whose digest is the identity. -/
def preimage (name : SourceName) (content : Text) : List UInt8 :=
  name.kind.utf8 ++ 0 :: (match name with
    | .anonymous => content.utf8
    | name => name.value.utf8)

/-- The identity of a source with a name and a text. -/
def of (name : SourceName) (content : Text) : SourceId :=
  ⟨Blake2b.digestNumber (preimage name content)⟩

/-- The identity in messages: `#` and sixteen hexadecimal digits. -/
def display (id : SourceId) : Text := "#" ++ Text.ofHex 16 id.value

end SourceId

end SourceReport
