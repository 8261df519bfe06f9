import SourceReport.Data.Value

/-!
# Levels

How severe a diagnostic is. Four levels are ordered; the fifth one stands for names of the caller's
choice and has no place in the order.

* `Level.rank?` is the place in the order, `none` for the custom level.
* `Level.ranks?` compares a level with the value that names another one, or says why it cannot.
-/

namespace SourceReport

/-- The severity of a diagnostic. -/
inductive Level where
  | info
  | warning
  | error
  | fatal
  | custom
deriving DecidableEq

namespace Level

/-- All levels, the ordered ones first. -/
def all : List Level := [.info, .warning, .error, .fatal, .custom]

/-- The word for a level. -/
def name : Level → Text
  | .info => "info"
  | .warning => "warning"
  | .error => "error"
  | .fatal => "fatal"
  | .custom => "custom"

/-- The level of a word. -/
def ofName? (t : Text) : Option Level := all.find? fun l : Level => l.name = t

/-- The place in the order of severity. -/
def rank? : Level → Option Nat
  | .info => some 0
  | .warning => some 1
  | .error => some 2
  | .fatal => some 3
  | .custom => none

/-- The name of the color in summaries. -/
def colorName : Level → Text
  | .info => "bright_green"
  | .warning => "bright_yellow"
  | .error => "bright_red"
  | .fatal => "bright_magenta"
  | .custom => "bright_cyan"

/-- Why two things have no order of severity. -/
inductive OrderError where
  /-- A value of some kind that names no level. -/
  | notALevel (kind : Text)
  /-- One of the levels is custom. -/
  | unordered
deriving DecidableEq

/-- The reason in words. -/
def OrderError.message : OrderError → Text
  | .notALevel kind => "cannot compare DiagnosticLevel with " ++ kind
  | .unordered => "custom diagnostic levels have no severity order"

/-- The places of a level and of the level that a value names. -/
def ranks? (a : Level) (v : Data.Value) : Except OrderError (Nat × Nat) :=
  let other : Option Level := match v with
    | .text t => ofName? t
    | _ => none
  match other with
  | none => .error (.notALevel v.kind)
  | some b =>
    match a.rank?, b.rank? with
    | some m, some n => .ok (m, n)
    | _, _ => .error .unordered

/-- Whether a level is at least as severe as another one; a custom level never is. -/
def atLeast (threshold l : Level) : Bool :=
  match threshold.rank?, l.rank? with
  | some m, some n => m ≤ n
  | _, _ => false

end Level

end SourceReport
