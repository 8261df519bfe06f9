import SourceReport.Data.Reading
import SourceReport.Source.Registry

/-!
# Refused documents

Why a document of diagnostics is refused: it has not the shape that it should have, a source in it
cannot be registered, or a file that it names cannot be read.
-/

namespace SourceReport

/-- The formats of documents. -/
inductive DocumentFormat where
  | toml
  | json
deriving DecidableEq

/-- The name of a format in messages. -/
def DocumentFormat.name : DocumentFormat → Text
  | .toml => "TOML"
  | .json => "JSON"

/-- What is wrong with the shape of a document. -/
inductive ShapeFlaw where
  /-- The file cannot be read. -/
  | unreadable (path : Path) (fault : Fault)
  /-- The text is not of its format. -/
  | malformed (format : DocumentFormat) (e : Data.SyntaxError)
  /-- The document is no table. -/
  | noTable
  | missingKey (key : Text)
  | wrongKind (key expected found : Text)
  /-- What should be a list of tables is something else. -/
  | noTables (key : Text)
  | notes
  | location
  /-- A text without a name. -/
  | nameless
  /-- A source with neither a text nor a path. -/
  | empty
  /-- The text under a name has no encoding. -/
  | surrogates (name : Text)
  /-- Two sources of one name. -/
  | repeatedName (name : Text)
  | unknownSource (name : Text)
  | unknownEmphasis (word : Text)
deriving DecidableEq

/-- What is wrong in words. -/
def ShapeFlaw.reason : ShapeFlaw → Text
  | .unreadable path fault => "cannot read: " ++ fault.message path
  | .malformed format e => "invalid " ++ format.name ++ ": " ++ e.message
  | .noTable => "top level must be a table"
  | .missingKey key => "missing required key " ++ key.quoted
  | .wrongKind key expected found => key.quoted ++ " must be " ++ expected ++ ", got " ++ found
  | .noTables key => key.quoted ++ " must be an array of tables"
  | .notes => "\x27notes\x27 must be a string or an array of strings"
  | .location => "\x27location\x27 must be a table"
  | .nameless => "inline sources need a \x27name\x27"
  | .empty => "a source needs \x27text\x27 or \x27path\x27"
  | .surrogates _ => EncodingError.reason
  | .repeatedName name => "source name " ++ name.quoted ++ " is used twice"
  | .unknownSource name => "unknown source " ++ name.quoted
  | .unknownEmphasis word => "unknown label style " ++ word.quoted

/-- Why a document is refused. -/
inductive DocumentError where
  /-- The shape is wrong at a place of the document. -/
  | shape (place : Text) (flaw : ShapeFlaw)
  /-- Two texts under one identity. -/
  | collision (e : RegistryError)
  /-- A source file cannot be read. -/
  | source (e : ReadError)
  /-- A source has a path that no file can have. -/
  | fileName (e : Path.NameError)
  /-- The text is of its format, and its contents are refused. -/
  | refused (r : Data.Refusal)
deriving DecidableEq

/-- The message names the place. -/
def DocumentError.message : DocumentError → Text
  | .shape place flaw => place ++ ": " ++ flaw.reason
  | .collision e => e.message
  | .source e => e.message
  | .fileName e => e.message
  | .refused r => r.message

/-- The outcome of reading a part of a document, with the warnings on the way to it. -/
structure Loading (α : Type) where
  outcome : Except DocumentError α
  warnings : List Text := []

namespace Loading

/-- A value. -/
def ok {α : Type} (a : α) : Loading α := { outcome := .ok a }

/-- A wrong shape. -/
def refuse {α : Type} (place : Text) (flaw : ShapeFlaw) : Loading α :=
  { outcome := .error (.shape place flaw) }

/-- A warning, unless its message cannot be written. -/
def warn (message : Except DigitLimitError Text) : Loading Unit :=
  match message with
  | .ok t => { outcome := .ok (), warnings := [t] }
  | .error e => { outcome := .error (.refused (.digits e)) }

/-- Goes on with the value, unless there is none. -/
def bind {α β : Type} (x : Loading α) (f : α → Loading β) : Loading β :=
  match x.outcome with
  | .error e => { outcome := .error e, warnings := x.warnings }
  | .ok a => { outcome := (f a).outcome, warnings := x.warnings ++ (f a).warnings }

instance : Monad Loading where
  pure := ok
  bind := bind

end Loading

end SourceReport
