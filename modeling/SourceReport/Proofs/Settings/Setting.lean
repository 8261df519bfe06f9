import SourceReport.Settings.Basic

/-!
# Settings one by one

Settings and drafts have a field for every setting. A `Setting` names the field, so that what holds
of all of them can be said once.

* `Draft.given?` is what a draft says of a setting, nothing if it leaves the setting open.
* `Settings.value` is what settings say of it. An amount loses its sign on the way
  (`Setting.settled`); every other value stays as it is.

Results:
* `Draft.given?_above`: of drafts over each other the upper one counts, if it says anything.
* `Settings.value_settle`: a settled draft has its own values, and the usual ones for the rest.
* `Settings.settle_draft`: settings are the same again after they were taken for a draft.
-/

namespace SourceReport

/-- A setting of a report. -/
inductive Setting where
  | charSet
  | tabWidth
  | color
  | attach
  | crossGap
  | compact
  | arrows
  | detail
  | palette
  | linesBefore
  | linesAfter
  | gapThreshold
  | theme
deriving DecidableEq

namespace Setting

/-- What a draft may say of a setting. -/
abbrev Given : Setting → Type
  | charSet => CharSet
  | attach => Attach
  | detail => Detail
  | tabWidth | linesBefore | linesAfter | gapThreshold => Int
  | color | crossGap | compact | arrows | palette => Bool
  | theme => Theme

/-- What settings say of a setting. -/
abbrev Settled : Setting → Type
  | tabWidth | linesBefore | linesAfter | gapThreshold => Nat
  | s => s.Given

/-- A value as settings keep it: an amount below zero becomes zero. -/
def settled : (s : Setting) → s.Given → s.Settled
  | tabWidth | linesBefore | linesAfter | gapThreshold => Int.toNat
  | charSet | attach | detail | color | crossGap | compact | arrows | palette | theme => id

end Setting

/-- What a draft says of a setting. -/
def Draft.given? (d : Draft) : (s : Setting) → Option s.Given
  | .charSet => d.charSet
  | .tabWidth => d.tabWidth
  | .color => d.color
  | .attach => d.attach
  | .crossGap => d.crossGap
  | .compact => d.compact
  | .arrows => d.arrows
  | .detail => d.detail
  | .palette => d.palette
  | .linesBefore => d.linesBefore
  | .linesAfter => d.linesAfter
  | .gapThreshold => d.gapThreshold
  | .theme => d.theme

/-- What settings say of a setting. -/
def Settings.value (k : Settings) : (s : Setting) → s.Settled
  | .charSet => k.charSet
  | .tabWidth => k.tabWidth
  | .color => k.color
  | .attach => k.attach
  | .crossGap => k.crossGap
  | .compact => k.compact
  | .arrows => k.arrows
  | .detail => k.detail
  | .palette => k.palette
  | .linesBefore => k.linesBefore
  | .linesAfter => k.linesAfter
  | .gapThreshold => k.gapThreshold
  | .theme => k.theme

/-- Drafts that say the same of every setting are the same, apart from where they come from. -/
theorem Draft.ext_given? {d e : Draft} (h : ∀ s, d.given? s = e.given? s)
    (hfiles : d.files = e.files) (hwarnings : d.warnings = e.warnings) : d = e := by
  rw [Draft.mk.injEq]
  exact ⟨h .charSet, h .tabWidth, h .color, h .attach, h .crossGap, h .compact, h .arrows,
    h .linesBefore, h .linesAfter, h .gapThreshold, h .detail, h .palette, h .theme, hfiles,
    hwarnings⟩

/-- Settings that say the same of every setting are the same, apart from where they come from. -/
theorem Settings.ext_value {k l : Settings} (h : ∀ s, k.value s = l.value s)
    (hfiles : k.files = l.files) (hwarnings : k.warnings = l.warnings) : k = l := by
  rw [Settings.mk.injEq]
  exact ⟨h .charSet, h .tabWidth, h .color, h .attach, h .crossGap, h .compact, h .arrows,
    h .linesBefore, h .linesAfter, h .gapThreshold, h .detail, h .palette, h .theme, hfiles,
    hwarnings⟩

namespace Draft

@[simp] theorem given?_empty (s : Setting) : ({} : Draft).given? s = none := by
  cases s <;> rfl

/-- **Of drafts over each other** the upper one counts, if it says anything. -/
@[simp] theorem given?_above (upper lower : Draft) (s : Setting) :
    (upper.above lower).given? s = (upper.given? s).or (lower.given? s) := by
  cases s <;> rfl

end Draft

namespace Settings

/-- **A settled draft** has its own values as settings keep them, and the usual ones for what it
leaves open. -/
theorem value_settle (d : Draft) (s : Setting) :
    d.settle.value s = ((d.given? s).map s.settled).getD (({} : Settings).value s) := by
  cases s
  case tabWidth | linesBefore | linesAfter | gapThreshold => rfl
  all_goals exact congrArg (Option.getD · _) Option.map_id'.symm

theorem given?_draft (k : Settings) (s : Setting) :
    (k.draft.given? s).map s.settled = some (k.value s) := by
  cases s <;> rfl

/-- **Settings are the same again** after they were taken for a draft. -/
theorem settle_draft (k : Settings) : k.draft.settle = k := by
  refine ext_value (fun s => ?_) rfl rfl
  rw [value_settle, given?_draft, Option.getD_some]

end Settings

end SourceReport
