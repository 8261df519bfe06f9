import Mathlib.Data.List.Basic
import SourceReport.Proofs.Settings.Layers
import SourceReport.Proofs.Settings.Setting

/-!
# The slots of settings tables

A settings table is read slot by slot. A `Slot` is a key of a section at which a value is looked
for: what the value means if it has the right shape, and what is complained of otherwise. All slots
are checked alike (`Slot.check`), and every reader of a section is such a check.

* `Setting.slot?` is the slot of a setting; a theme has none, but a slot for each of its elements
  (`Slot.color`).
* `Settings.misfits` lists the entries of a table that stand in a slot and have the wrong shape.

Results:
* `Draft.given?_ofTable`: what a table gives to a setting is what stands in its slot.
* `Draft.warnings_ofTable`: the warnings about a table are its misfits.
* `Settings.mem_misfits_iff`, `Settings.nodup_places`: every slot is looked into, and no two slots
  are at the same place.
-/

namespace SourceReport

open Data (Value Table)

/-- The value of an entry of a section; a section that is no table has no entries. -/
def Data.Table.entry? (t : Table) (sectionKey key : Text) : Option Value :=
  match t.find? sectionKey with
  | some (.table entries) => Table.present? entries key
  | _ => none

theorem Section.present?_of (t : Table) (sectionKey key : Text) :
    (Section.of t sectionKey).table.present? key = t.entry? sectionKey key := by
  unfold Section.of Data.Table.entry?
  dsimp only
  cases t.find? sectionKey with
  | none => rfl
  | some v => cases v <;> rfl

/-! ## Slots -/

/-- A key of a section at which a value is looked for. -/
structure Slot (α : Type) where
  sectionKey : Text
  key : Text
  /-- What a value means; nothing if it has the wrong shape. -/
  read : Value → Option α
  /-- What is wrong with a value of the wrong shape. -/
  complaint : Value → Unfit

namespace Slot

variable {α : Type}

/-- How the slot is called in messages. -/
def place (s : Slot α) : Text := "[" ++ s.sectionKey ++ "]" ++ "." ++ s.key

/-- The value in the slot. -/
def find? (s : Slot α) (t : Table) : Option Value := t.entry? s.sectionKey s.key

/-- What the value in the slot means. -/
def value? (s : Slot α) (t : Table) : Option α := (s.find? t).bind s.read

/-- The value in the slot if it has the wrong shape, with what is wrong. -/
def misfit? (s : Slot α) (t : Table) : Option Warning :=
  (s.find? t).bind fun v => if (s.read v).isSome then none else some ⟨s.place, v, s.complaint v⟩

/-- What comes of looking into the slot. -/
def check (s : Slot α) (t : Table) : Checked α := ⟨s.value? t, (s.misfit? t).toList⟩

/-- The slot of a truth value. -/
def flag (key : Text) : Slot Bool := ⟨"render", key, Value.asBool, fun _ => .kind "bool"⟩

/-- The slot of an amount. -/
def amount (sectionKey key : Text) : Slot Int where
  sectionKey := sectionKey
  key := key
  read := Value.asInt 0
  complaint
    | .int _ => .below 0
    | _ => .kind "int"

/-- The slot of an alternative. -/
def choice (α : Type) [Choice α] (key : Text) : Slot α where
  sectionKey := "render"
  key := key
  read := Value.asChoice α
  complaint
    | .text _ => .word (Choice.keys α)
    | _ => .kind "string enum value"

/-- The slot of the color of an element. -/
def color (e : Theme.Element) : Slot Color := ⟨"styles", e.key, Color.ofValue?, fun _ => .color⟩

section Check

variable {s : Slot α} {t : Table} {v : Value}

theorem check_of_absent (h : s.find? t = none) : s.check t = {} := by
  rw [check, value?, misfit?, h]
  rfl

theorem check_of_fits {a : α} (h : s.find? t = some v) (hread : s.read v = some a) :
    s.check t = { value := some a } := by
  simp [check, value?, misfit?, h, hread]

theorem check_of_misfit (h : s.find? t = some v) (hread : s.read v = none) :
    s.check t = { warnings := [⟨s.place, v, s.complaint v⟩] } := by
  simp [check, value?, misfit?, h, hread]

theorem place_of_mem_misfit? : ∀ w ∈ s.misfit? t, w.place = s.place := by
  intro w hw
  obtain ⟨v, -, hv⟩ := Option.bind_eq_some_iff.1 hw
  split at hv
  · cases hv
  · exact (Option.some.inj hv) ▸ rfl

end Check

/-! ### The readers of sections -/

section Readers

variable (t : Table) (key : Text)

theorem bool_eq_check : (Section.of t "render").bool key = (flag key).check t := by
  rw [Section.bool, show (Section.of t "render").table.present? key = (flag key).find? t from
    Section.present?_of ..]
  cases h : (flag key).find? t with
  | none => exact (check_of_absent h).symm
  | some v =>
    cases v with
    | bool b => exact (check_of_fits h rfl).symm
    | _ => exact (check_of_misfit h rfl).symm

theorem int_eq_check (sectionKey : Text) :
    (Section.of t sectionKey).int key 0 = (amount sectionKey key).check t := by
  rw [Section.int, show (Section.of t sectionKey).table.present? key =
    (amount sectionKey key).find? t from Section.present?_of ..]
  cases h : (amount sectionKey key).find? t with
  | none => exact (check_of_absent h).symm
  | some v =>
    cases v with
    | int n =>
      dsimp only
      split
      · next hn => exact (check_of_misfit h (if_pos hn)).symm
      · next hn => exact (check_of_fits h (if_neg hn)).symm
    | _ => exact (check_of_misfit h rfl).symm

theorem choice_eq_check (α : Type) [Choice α] :
    (Section.of t "render").choice α key = (choice α key).check t := by
  rw [Section.choice, show (Section.of t "render").table.present? key = (choice α key).find? t from
    Section.present?_of ..]
  cases h : (choice α key).find? t with
  | none => exact (check_of_absent h).symm
  | some v =>
    cases v with
    | text word =>
      dsimp only
      split
      · next hparse => exact (check_of_fits h hparse).symm
      · next hparse => exact (check_of_misfit h hparse).symm
    | _ => exact (check_of_misfit h rfl).symm

theorem color_eq_check (e : Theme.Element) :
    (Section.of t "styles").color e.key = (color e).check t := by
  rw [Section.color, show (Section.of t "styles").table.present? e.key = (color e).find? t from
    Section.present?_of ..]
  cases h : (color e).find? t with
  | none => exact (check_of_absent h).symm
  | some v =>
    dsimp only
    split
    · next hread => exact (check_of_fits h hread).symm
    · next hread => exact (check_of_misfit h hread).symm

end Readers

end Slot

/-! ## The slots of the settings -/

/-- The slot of a setting. A theme is read element by element. -/
def Setting.slot? : (s : Setting) → Option (Slot s.Given)
  | .charSet => some (.choice CharSet "char_set")
  | .tabWidth => some (.amount "render" "tab_width")
  | .color => some (.flag "color")
  | .attach => some (.choice Attach "label_attach")
  | .crossGap => some (.flag "cross_gap")
  | .compact => some (.flag "compact")
  | .arrows => some (.flag "multiline_arrows")
  | .detail => some (.choice Detail "display_style")
  | .palette => some (.flag "palette")
  | .linesBefore => some (.amount "context" "lines_before")
  | .linesAfter => some (.amount "context" "lines_after")
  | .gapThreshold => some (.amount "context" "gap_threshold")
  | .theme => none

theorem Setting.eq_theme_of_slot?_eq_none {s : Setting} (h : s.slot? = none) : s = theme := by
  cases s with
  | theme => rfl
  | _ => cases h

/-- The settings in the order in which they are read. -/
def Setting.all : List Setting :=
  [charSet, tabWidth, color, attach, crossGap, compact, arrows, detail, palette, linesBefore,
    linesAfter, gapThreshold, theme]

theorem Setting.mem_all (s : Setting) : s ∈ all := by cases s <;> decide

namespace Settings

/-- The entries in the slots of a table that have the wrong shape. -/
def misfits (t : Table) : List Warning :=
  Setting.all.filterMap (fun s => s.slot?.bind (·.misfit? t)) ++
    Theme.Element.all.filterMap fun e => (Slot.color e).misfit? t

/-- **A misfit** is what is wrong in some slot; no setting and no element is left out. -/
theorem mem_misfits_iff {t : Table} {w : Warning} :
    w ∈ misfits t ↔ (∃ s : Setting, ∃ slot ∈ s.slot?, slot.misfit? t = some w) ∨
      ∃ e, (Slot.color e).misfit? t = some w := by
  simp only [misfits, List.mem_append, List.mem_filterMap, Option.bind_eq_some_iff,
    Setting.mem_all, Theme.Element.mem_all, true_and, Option.mem_def]

/-- The places of all slots. -/
def places : List Text :=
  Setting.all.filterMap (fun s => s.slot?.map Slot.place) ++
    Theme.Element.all.map fun e => (Slot.color e).place

/-- **No two slots are at the same place.** -/
theorem nodup_places : places.Nodup := by decide +kernel

end Settings

/-! ## What is read from a table -/

/-- The warnings about the colors of a section, element by element. -/
theorem Theme.warnings_ofSection (s : Section) :
    (ofSection s).2 = Element.all.flatMap fun e => (s.color e.key).warnings := by
  rw [Element.all, List.flatMap_append, List.flatMap_map]
  rfl

namespace Draft

/-- **What a table gives to a setting** is what the value in its slot means. -/
theorem given?_ofTable (t : Table) (s : Setting) :
    ∀ slot ∈ s.slot?, (ofTable t).1.given? s = slot.value? t := by
  rintro slot hslot
  cases s with
  | theme => cases hslot
  | charSet | attach | detail =>
    obtain rfl := Option.some.inj hslot
    exact congrArg Checked.value (Slot.choice_eq_check ..)
  | tabWidth | linesBefore | linesAfter | gapThreshold =>
    obtain rfl := Option.some.inj hslot
    exact congrArg Checked.value (Slot.int_eq_check ..)
  | color | crossGap | compact | arrows | palette =>
    obtain rfl := Option.some.inj hslot
    exact congrArg Checked.value (Slot.bool_eq_check ..)

/-- **The warnings about a table** are its misfits. -/
theorem warnings_ofTable (t : Table) : (ofTable t).2 = Settings.misfits t := by
  have hcolors : (Theme.ofSection (Section.of t "styles")).2 =
      Theme.Element.all.filterMap fun e => (Slot.color e).misfit? t := by
    rw [Theme.warnings_ofSection, List.filterMap_eq_flatMap_toList]
    simp only [Slot.color_eq_check, Slot.check]
  rw [Settings.misfits, ← hcolors]
  simp only [ofTable, Slot.choice_eq_check, Slot.int_eq_check, Slot.bool_eq_check, Slot.check]
  simp only [Setting.all, Setting.slot?, List.filterMap_eq_flatMap_toList, List.flatMap_cons,
    List.flatMap_nil, Option.bind_some, Option.bind_none, Option.toList_none, List.append_nil,
    List.append_assoc]

end Draft

end SourceReport
