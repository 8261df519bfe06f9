import SourceReport.Proofs.Settings.Misfits

/-!
# Settings written as tables

Settings are written as a table that can be read back. Nothing is wrong with such a table, and what
is read from it settles to the same settings, apart from the theme, which is not written.

* `Choice.IsUnambiguous` says that no two alternatives share a word; then a word names at most one
  of them, and a key its own.

Results:
* `Choice.parse?_key`: the key of an alternative names it.
* `Settings.value?_table`: the slots of the table of settings hold these settings.
* `Settings.load_table`: settings are read back from their table.
-/

namespace SourceReport

open Data (Value Table)

/-! ## Words of alternatives -/

namespace Choice

/-- No two alternatives share a word. -/
def IsUnambiguous (α : Type) [Choice α] : Prop :=
  ∀ a ∈ (all : List α), ∀ b ∈ (all : List α), ∀ w ∈ key a :: aliases a,
    ∀ w' ∈ key b :: aliases b, token (loose α) w = token (loose α) w' → a = b

instance (α : Type) [Choice α] [DecidableEq α] : Decidable (IsUnambiguous α) :=
  inferInstanceAs (Decidable (∀ a ∈ (all : List α), ∀ b ∈ (all : List α), ∀ w ∈ key a :: aliases a,
    ∀ w' ∈ key b :: aliases b, token (loose α) w = token (loose α) w' → a = b))

variable {α : Type} [Choice α]

theorem isNamed_iff (word : Text) (a : α) :
    isNamed word a = true ↔ ∃ w ∈ key a :: aliases a, token (loose α) w = token (loose α) word := by
  simp only [isNamed, List.any_eq_true, decide_eq_true_eq]

/-- A word names an alternative if it is one of its words, up to what does not count. -/
theorem parse?_eq_some_iff (h : IsUnambiguous α) {word : Text} {a : α} :
    parse? word = some a ↔
      a ∈ all ∧ ∃ w ∈ key a :: aliases a, token (loose α) w = token (loose α) word := by
  rw [← isNamed_iff]
  constructor
  · intro hparse
    exact ⟨List.mem_of_find?_eq_some hparse, List.find?_some hparse⟩
  · rintro ⟨ha, hnamed⟩
    cases hparse : parse? (α := α) word with
    | none => exact absurd hnamed (by simpa using List.find?_eq_none.1 hparse a ha)
    | some b =>
      obtain ⟨w, hw, htoken⟩ := (isNamed_iff word a).1 hnamed
      obtain ⟨w', hw', htoken'⟩ := (isNamed_iff word b).1 (List.find?_some hparse)
      have hb : b ∈ all := List.mem_of_find?_eq_some hparse
      rw [h a ha b hb w hw w' hw' (htoken.trans htoken'.symm)]

/-- **The key of an alternative** names it. -/
theorem parse?_key (h : IsUnambiguous α) {a : α} (ha : a ∈ all) : parse? (key a) = some a :=
  (parse?_eq_some_iff h).2 ⟨ha, key a, List.mem_cons_self, rfl⟩

end Choice

theorem CharSet.parse?_key (c : CharSet) : Choice.parse? (Choice.key c) = some c :=
  Choice.parse?_key (by decide +kernel) (by cases c <;> decide)

theorem Attach.parse?_key (a : Attach) : Choice.parse? (Choice.key a) = some a :=
  Choice.parse?_key (by decide +kernel) (by cases a <;> decide)

theorem Detail.parse?_key (d : Detail) : Choice.parse? (Choice.key d) = some d :=
  Choice.parse?_key (by decide +kernel) (by cases d <;> decide)

/-! ## Reading settings back -/

theorem Slot.misfit?_of_value? {α : Type} {s : Slot α} {t : Table} {a : α}
    (h : s.value? t = some a) : s.misfit? t = none := by
  obtain ⟨v, hfind, hread⟩ := Option.bind_eq_some_iff.1 h
  rw [misfit?, hfind, Option.bind_some, hread]
  rfl

namespace Settings

variable (k : Settings)

/-- **The slots of the table of settings** hold these settings. -/
theorem value?_table (s : Setting) :
    ∀ slot ∈ s.slot?, (slot.value? k.table).map s.settled = some (k.value s) := by
  intro slot hslot
  cases s with
  | theme => cases hslot
  | charSet =>
    obtain rfl := Option.some.inj hslot
    exact congrArg (Option.map id) k.charSet.parse?_key
  | attach =>
    obtain rfl := Option.some.inj hslot
    exact congrArg (Option.map id) k.attach.parse?_key
  | detail =>
    obtain rfl := Option.some.inj hslot
    exact congrArg (Option.map id) k.detail.parse?_key
  | _ =>
    obtain rfl := Option.some.inj hslot
    rfl

theorem find?_color_table (e : Theme.Element) : (Slot.color e).find? k.table = none := rfl

/-- **Nothing is wrong with the table of settings.** -/
theorem misfits_table : misfits k.table = [] := by
  refine List.eq_nil_iff_forall_not_mem.2 fun w hw => ?_
  rcases mem_misfits_iff.1 hw with ⟨s, slot, hslot, hmisfit⟩ | ⟨e, hmisfit⟩
  · obtain ⟨a, ha, -⟩ := Option.map_eq_some_iff.1 (k.value?_table s slot hslot)
    rw [Slot.misfit?_of_value? ha] at hmisfit
    cases hmisfit
  · rw [Slot.misfit?, find?_color_table] at hmisfit
    cases hmisfit

/-- **Settings are read back** from their table without a warning. Only what is not written takes
its usual value: the theme, the files and the warnings. -/
theorem load_table :
    ∃ d, Draft.load k.table = .ok d ∧ d.warnings = [] ∧
      d.settle = { k with theme := {}, files := [], warnings := [] } := by
  obtain ⟨d, hload⟩ := (Draft.exists_load_iff k.table).2 (by simp [misfits_table])
  have hmessages := (Draft.eq_of_load hload).2
  rw [misfits_table] at hmessages
  have hwarnings : d.warnings = [] := (Except.ok.inj hmessages).symm
  have hfiles : d.files = [] := by rw [(Draft.eq_of_load hload).1]; rfl
  refine ⟨d, hload, hwarnings, ext_value (fun s => ?_) hfiles hwarnings⟩
  rw [value_settle, Draft.given?_of_load hload]
  cases hslot : s.slot? with
  | none =>
    obtain rfl := Setting.eq_theme_of_slot?_eq_none hslot
    rfl
  | some slot =>
    rw [Draft.given?_ofTable k.table s slot hslot, k.value?_table s slot hslot]
    cases s with
    | theme => cases hslot
    | _ => rfl

end Settings

end SourceReport
