import SourceReport.Proofs.Style.Color
import SourceReport.Settings.Files

/-!
# Colors from settings

The colors of a table are taken over only if they are valid, and a theme changes colors only to
such ones. So the theme of settings that come from tables is valid, however many of them lie over
each other.

* `Draft.IsRead` says that a draft comes from tables.

Results:
* `Section.isValid_of_mem_color`: a color that was read is valid.
* `Theme.isValid_ofSection`: so are the colors of a theme.
* `Draft.IsRead.isValid_settle`: so are those of settled drafts.
* `Tree.isRead_layered?`: drafts of settings files come from tables.
-/

namespace SourceReport

open Data (Table)

/-- **A color that was read** is valid. -/
theorem Section.isValid_of_mem_color {s : Section} {key : Text} :
    ∀ c ∈ (s.color key).value, c.isValid = true := by
  intro c hc
  unfold Section.color at hc
  split at hc
  · cases hc
  · next v _ =>
    split at hc
    · next c' hread =>
      obtain rfl := Option.some.inj hc
      exact (Option.filter_eq_some_iff.1 hread).2
    · cases hc

/-! ## Themes -/

namespace Style

theorem isValid_colored {c : Color} (h : c.isValid = true) : (colored c).IsValid := by
  refine ⟨fun d hd => ?_, fun _ hd => nomatch hd⟩
  obtain rfl := Option.some.inj hd
  exact h

theorem IsValid.withForeground {s : Style} (hs : s.IsValid) {c : Color} (h : c.isValid = true) :
    (s.withForeground c).IsValid := by
  refine ⟨fun d hd => ?_, hs.2⟩
  obtain rfl := Option.some.inj hd
  exact h

end Style

@[simp] theorem Headers.get?_ofFn (f : Level → Option Style) (l : Level) :
    (ofFn f).get? l = f l := by
  cases l <;> rfl

/-- **The theme of a section** is valid. -/
theorem Theme.isValid_ofSection (s : Section) : (ofSection s).1.IsValid := by
  have hrecolor : ∀ (key : Text) {style : Style}, style.IsValid →
      (((s.color key).value.map style.withForeground).getD style).IsValid := by
    intro key style hstyle
    cases hc : (s.color key).value with
    | none => exact hstyle
    | some c => exact hstyle.withForeground (Section.isValid_of_mem_color c hc)
  have husual : ∀ style ∈ ({} : Theme).styles, style.IsValid := isValid_default
  intro style hstyle
  simp only [styles, List.mem_append, List.mem_filterMap, Option.mem_toList, List.mem_cons,
    List.not_mem_nil, or_false] at hstyle
  rcases hstyle with (⟨l, -, hheader⟩ | hprimary) | rfl | rfl | rfl | rfl | rfl | rfl
  · rw [ofSection, Headers.get?_ofFn] at hheader
    obtain ⟨usual, hget, rfl⟩ := Option.map_eq_some_iff.1 hheader
    exact hrecolor _ (husual usual (mem_styles_of_get? hget))
  · cases hc : (s.color "primary_label").value with
    | none =>
      simp only [ofSection, hc] at hprimary
      cases hprimary
    | some c =>
      simp only [ofSection, hc, Option.map_some, Option.some_or] at hprimary
      obtain rfl := Option.some.inj hprimary
      exact Style.isValid_colored (Section.isValid_of_mem_color c hc)
  · exact husual _ (by simp [styles, ofSection])
  -- Secondary labels, line numbers, borders, bullets and marks have usual styles to recolor.
  all_goals exact hrecolor _ (husual _ (by simp [styles]))

/-! ## Drafts -/

namespace Draft

/-- A draft that comes from tables: one of them read, or one such draft laid over another. Naming
the files that it comes from changes no setting. -/
inductive IsRead : Draft → Prop where
  | load {t : Table} {d : Draft} (h : Draft.load t = .ok d) : IsRead d
  | above {upper lower : Draft} (hupper : IsRead upper) (hlower : IsRead lower) :
      IsRead (upper.above lower)
  | files {d : Draft} (h : IsRead d) (files : List Text) : IsRead { d with files := files }

theorem load_eq (t : Table) : Draft.load t = (Warning.messages (ofTable t).2).map fun messages =>
    { (ofTable t).1 with warnings := messages } := rfl

/-- The usual settings come from a table as well. -/
theorem isRead_usual : IsRead .usual := by
  have hwarnings : (ofTable usualTable).2 = [] := by decide +kernel
  have hload : Draft.load usualTable = .ok .usual := by
    rw [load_eq, hwarnings]
    rfl
  exact .load hload

theorem isValid_of_mem_theme {t : Table} : ∀ theme ∈ (ofTable t).1.theme, theme.IsValid := by
  intro theme htheme
  unfold ofTable at htheme
  dsimp only at htheme
  split at htheme
  · cases htheme
  · obtain rfl := Option.some.inj htheme
    exact Theme.isValid_ofSection _

namespace IsRead

variable {d : Draft}

/-- A draft from tables has a valid theme, if it has one. -/
theorem isValid (h : d.IsRead) : ∀ theme ∈ d.theme, theme.IsValid := by
  induction h with
  | @load t d h =>
    rw [load_eq] at h
    cases hmessages : Warning.messages (ofTable t).2 with
    | error e =>
      rw [hmessages] at h
      cases h
    | ok messages =>
      rw [hmessages] at h
      obtain rfl := Except.ok.inj h
      exact isValid_of_mem_theme
  | @above upper lower _ _ ihupper ihlower =>
    intro theme htheme
    rcases Option.or_eq_some_iff.1 htheme with hupper | ⟨-, hlower⟩
    · exact ihupper theme hupper
    · exact ihlower theme hlower
  | files _ _ ih => exact ih

/-- **Settings from tables** have a valid theme. -/
theorem isValid_settle (h : d.IsRead) : d.settle.theme.IsValid := by
  unfold settle
  dsimp only
  cases htheme : d.theme with
  | none => exact Theme.isValid_default
  | some theme => exact h.isValid theme htheme

end IsRead

end Draft

/-! ## Drafts of files -/

theorem bind_eq_ok_iff {α β ε : Type} {x : Except ε α} {f : α → Except ε β} {b : β} :
    x >>= f = .ok b ↔ ∃ a, x = .ok a ∧ f a = .ok b := by
  cases x with
  | error e => simp [bind, Except.bind]
  | ok a => simp [bind, Except.bind]

namespace Tree

variable {tree : Tree} {d : Draft}

theorem isRead_draft? {path : Path} (h : tree.draft? path = .ok (some d)) : d.IsRead := by
  rw [draft?, bind_eq_ok_iff] at h
  obtain ⟨table, -, h⟩ := h
  dsimp only at h
  have hload : ∀ (t : Table) (read : Draft), Draft.load t = .ok read →
      Draft.IsRead { read with files := [path.toText] } := fun _ _ hread => .files (.load hread) _
  split at h
  · split at h
    · cases h
    · split at h
      · next read hread =>
        rw [Except.ok.injEq, Option.some.injEq] at h
        exact h ▸ hload _ read hread
      · cases h
  · split at h
    · next read hread =>
      rw [Except.ok.injEq, Option.some.injEq] at h
      exact h ▸ hload _ read hread
    · cases h

/-- **The drafts of settings files** come from tables. -/
theorem isRead_layered? {path : Option Path} (h : tree.layered? path = .ok d) : d.IsRead := by
  unfold layered? at h
  split at h
  · exact Except.ok.inj h ▸ Draft.isRead_usual
  · next path =>
    obtain ⟨found, hfound, h⟩ := bind_eq_ok_iff.1 h
    split at h
    · exact Except.ok.inj h ▸ Draft.isRead_usual
    · next upper => exact Except.ok.inj h ▸ .above (isRead_draft? hfound) Draft.isRead_usual

end Tree

end SourceReport
