import SourceReport.Style.Theme

/-!
# Valid styles

The colors of labels and themes come from documents and settings, which take valid colors only; the
colors of a palette are numbers of the table of 256 colors. All of them can be written.

* `Color.IsShowable` is what a format asks of a color, `Style.IsShowable` of a style.
* `Style.IsValid` and `Theme.IsValid` say that all colors are valid.

Results:
* `Color.isShowable_of_isValid`: valid colors can be written.
* `Theme.IsValid.header`, `Theme.IsValid.label`: so can the styles that a theme makes of its own.
-/

namespace SourceReport

namespace Color

/-- A color that can be written: a name that a terminal knows, or numbers that are not negative. -/
def IsShowable : Color → Prop
  | named name => (named name).isValid = true
  | indexed n => 0 ≤ n
  | rgb r g b => 0 ≤ r ∧ 0 ≤ g ∧ 0 ≤ b

theorem inByte_iff {n : Int} : inByte n = true ↔ 0 ≤ n ∧ n ≤ 255 := decide_eq_true_iff

/-- **Valid colors** can be written. -/
theorem isShowable_of_isValid {c : Color} (h : c.isValid = true) : c.IsShowable := by
  cases c with
  | named name => exact h
  | indexed n => exact (inByte_iff.1 h).1
  | rgb r g b =>
    simp only [isValid, Bool.and_eq_true, inByte_iff] at h
    exact ⟨h.1.1.1, h.1.2.1, h.2.1⟩

end Color

namespace Style

/-- The colors of a style are valid. -/
def IsValid (s : Style) : Prop :=
  (∀ c ∈ s.foreground, c.isValid = true) ∧ ∀ c ∈ s.background, c.isValid = true

instance (s : Style) : Decidable s.IsValid :=
  inferInstanceAs (Decidable ((∀ c ∈ s.foreground, c.isValid = true) ∧
    ∀ c ∈ s.background, c.isValid = true))

/-- The colors of a style can be written. -/
structure IsShowable (s : Style) : Prop where
  foreground : ∀ c ∈ s.foreground, c.IsShowable
  background : ∀ c ∈ s.background, c.IsShowable

theorem IsValid.isShowable {s : Style} (h : s.IsValid) : s.IsShowable where
  foreground c hc := Color.isShowable_of_isValid (h.1 c hc)
  background c hc := Color.isShowable_of_isValid (h.2 c hc)

theorem isShowable_plain : IsShowable .plain where
  foreground _ hc := nomatch hc
  background _ hc := nomatch hc

theorem isShowable_colored {c : Color} (h : c.IsShowable) : (colored c).IsShowable where
  foreground d hd := by
    obtain rfl := Option.some.inj hd
    exact h
  background _ hc := nomatch hc

end Style

namespace Theme

/-- The styles that a theme gives. -/
def styles (t : Theme) : List Style :=
  (Level.all.filterMap t.headers.get?) ++ t.primaryLabel.toList ++
    [t.headerMessage, t.secondaryLabel, t.lineNumber, t.sourceBorder, t.noteBullet, t.skipped]

/-- All colors of a theme are valid. -/
def IsValid (t : Theme) : Prop := ∀ s ∈ t.styles, s.IsValid

instance (t : Theme) : Decidable t.IsValid :=
  inferInstanceAs (Decidable (∀ s ∈ t.styles, s.IsValid))

theorem mem_styles_of_get? {t : Theme} {l : Level} {s : Style} (h : t.headers.get? l = some s) :
    s ∈ t.styles := by
  have hall : l ∈ Level.all := by cases l <;> decide
  simp only [styles, List.mem_append, List.mem_filterMap]
  exact Or.inl (Or.inl ⟨l, hall, h⟩)

/-- The usual theme is valid. -/
theorem isValid_default : IsValid {} := by decide

namespace IsValid

variable {t : Theme} {s : Style}

theorem isShowable (h : t.IsValid) (hs : s ∈ t.styles) : s.IsShowable := (h s hs).isShowable

/-- The words for the levels have styles that can be written. -/
theorem header (h : t.IsValid) (l : Level) : (t.header l).IsShowable := by
  unfold Theme.header
  cases hs : t.headers.get? l with
  | some s => exact h.isShowable (mem_styles_of_get? hs)
  | none =>
    cases hcustom : t.headers.custom with
    | some s => exact h.isShowable (mem_styles_of_get? (l := .custom) hcustom)
    | none => exact ⟨fun _ hc => (nomatch hc), fun _ hc => (nomatch hc)⟩

/-- Labels without a color of their own have styles that can be written. -/
theorem label (h : t.IsValid) (l : Level) (e : Emphasis) : (t.label l e).IsShowable := by
  cases e with
  | secondary => exact h.isShowable (s := t.secondaryLabel) (by simp [styles])
  | primary =>
    unfold Theme.label
    cases hs : t.primaryLabel with
    | some s => exact h.isShowable (by simp [styles, hs])
    | none => exact ⟨(h.header l).foreground, fun _ hc => nomatch hc⟩

end IsValid

end Theme

end SourceReport
