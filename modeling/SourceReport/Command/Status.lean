import SourceReport.Document.Error
import SourceReport.Output.Sink
import SourceReport.Settings.Files

/-!
# Exit statuses

How a run tells its caller what came of it. Success and a threshold that was reached have statuses
of their own, and so has every class of errors.

* `Failure.of` gives an error of the library its status and its message.
-/

namespace SourceReport

/-- What came of a run. -/
inductive Status where
  | success
  /-- The report holds what the caller asked to fail on. -/
  | thresholdReached
  /-- The words of the command line are not of its grammar. -/
  | badCommandLine
  /-- The command was asked for something that does not go together. -/
  | usage
  /-- A document or a source is not what it should be. -/
  | data
  | missingFile
  /-- A file cannot be read or written. -/
  | io
  | settings
  | unexpected
deriving DecidableEq

/-- The number of a status. -/
def Status.code : Status → Nat
  | .success => 0
  | .thresholdReached => 1
  | .badCommandLine => 2
  | .usage => 64
  | .data => 65
  | .missingFile => 66
  | .io => 74
  | .settings => 78
  | .unexpected => 255

/-- An error with the status that it gives a run. -/
structure Failure where
  status : Status
  message : Text
deriving DecidableEq

/-- The errors of the library. -/
inductive LibraryError where
  | settings (e : SettingsError)
  | document (e : DocumentError)
  | read (e : ReadError)
  | registry (e : RegistryError)
  | encoding (e : EncodingError)
  | lookup (e : LookupError)
  | write (e : WriteError)
deriving DecidableEq

namespace LibraryError

/-- The error in words. -/
def message : LibraryError → Text
  | .settings e => e.message
  | .document e => e.message
  | .read e => e.message
  | .registry e => e.message
  | .encoding e => e.message
  | .lookup e => e.message
  | .write e => e.message

end LibraryError

/-- The status of a file that cannot be read as a source. -/
def Fault.status : Fault → Status
  | .missing => .missingFile
  | .undecodable _ => .data
  | _ => .io

/-- The status of an error. -/
def LibraryError.status : LibraryError → Status
  | .settings _ => .settings
  | .document (.source e) => e.fault.status
  | .document _ => .data
  | .read e => e.fault.status
  | .registry _ => .data
  | .encoding _ => .data
  | .lookup _ => .usage
  | .write _ => .unexpected

/-- The failure of an error. -/
def Failure.of (e : LibraryError) : Failure := ⟨e.status, e.message⟩

end SourceReport
