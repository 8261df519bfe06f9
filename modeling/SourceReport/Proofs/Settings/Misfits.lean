import Mathlib.Data.List.Forall2
import SourceReport.Proofs.Settings.Slots

/-!
# Warnings about settings tables

A value that cannot be used is left out and told of in a warning. The warnings are complete for the
slots of a table: each misfit has one, and nothing else has. They do not tell of a section that is
no table (`Settings.strays`); its slots are simply empty. The message of a warning shows the value,
so nothing is read from a table with a misfit that cannot be written.

Results:
* `Warning.messages_eq_ok_iff`, `Warning.exists_messages_iff`: the messages of warnings, and when
  they can be written.
* `Settings.nodup_misfits`: no two misfits are at the same place.
* `Draft.load_tells_misfits`: what comes of reading a table, setting by setting and warning by
  warning.
* `Draft.not_tells_strays`: a section that is no table, of which nothing is told.
-/

namespace SourceReport

open Data (Value Table)

/-! ## Messages -/

namespace Warning

theorem exists_message_iff (w : Warning) :
    (∃ text, w.message = .ok text) ↔ w.value.isWritable = true := by
  unfold message Value.write
  cases w.value.isWritable with
  | true => exact iff_of_true ⟨_, rfl⟩ rfl
  | false => exact iff_of_false (fun ⟨_, h⟩ => nomatch h) (by decide)

/-- **The messages of warnings** are the message of each, in order. -/
theorem messages_eq_ok_iff {ws : List Warning} {texts : List Text} :
    messages ws = .ok texts ↔ List.Forall₂ (fun w text => w.message = .ok text) ws texts := by
  induction ws generalizing texts with
  | nil =>
    rw [List.forall₂_nil_left_iff]
    exact ⟨fun h => (Except.ok.inj h).symm, fun h => congrArg Except.ok h.symm⟩
  | cons w ws ih =>
    rw [List.forall₂_cons_left_iff, messages]
    cases hmessage : w.message with
    | error e => exact iff_of_false (fun h => nomatch h) fun ⟨_, _, h, _⟩ => nomatch h
    | ok text =>
      cases hmessages : messages ws with
      | error e =>
        refine iff_of_false (fun h => nomatch h) fun ⟨_, rest, _, hrest, _⟩ => ?_
        rw [ih.2 hrest] at hmessages
        cases hmessages
      | ok rest =>
        constructor
        · intro h
          exact ⟨text, rest, rfl, ih.1 hmessages, (Except.ok.inj h).symm⟩
        · rintro ⟨text', rest', htext, hrest, rfl⟩
          rw [ih.2 hrest] at hmessages
          rw [Except.ok.inj htext, Except.ok.inj hmessages]

/-- Messages can be written if every value that they show can. -/
theorem exists_messages_iff (ws : List Warning) :
    (∃ texts, messages ws = .ok texts) ↔ ∀ w ∈ ws, w.value.isWritable = true := by
  simp only [messages_eq_ok_iff, ← exists_message_iff]
  induction ws with
  | nil => simp
  | cons w ws ih =>
    rw [List.forall_mem_cons, ← ih]
    constructor
    · rintro ⟨texts, h⟩
      obtain ⟨text, rest, hw, hws, -⟩ := List.forall₂_cons_left_iff.1 h
      exact ⟨⟨text, hw⟩, rest, hws⟩
    · rintro ⟨⟨text, hw⟩, rest, hws⟩
      exact ⟨text :: rest, .cons hw hws⟩

end Warning

/-! ## Misfits and strays -/

theorem map_filterMap_sublist {α β γ : Type} {f : α → Option β} {g : β → γ} {h : α → Option γ}
    (hfg : ∀ a, ∀ b ∈ f a, h a = some (g b)) (l : List α) :
    ((l.filterMap f).map g).Sublist (l.filterMap h) := by
  induction l with
  | nil => exact .slnil
  | cons a l ih =>
    cases hf : f a with
    | some b =>
      rw [List.filterMap_cons_some hf, List.filterMap_cons_some (hfg a b hf), List.map_cons]
      exact ih.cons_cons _
    | none =>
      rw [List.filterMap_cons_none hf]
      exact ih.trans ((List.sublist_cons_self a l).filterMap h)

namespace Settings

/-- The keys of the sections. -/
def sectionKeys : List Text := ["render", "context", "styles"]

/-- The sections of a table that are no tables. -/
def strays (t : Table) : List Text :=
  sectionKeys.filter fun key => (t.present? key).any fun v => v.asSection.isNone

/-- **No two misfits are at the same place.** -/
theorem nodup_misfits (t : Table) : ((misfits t).map (·.place)).Nodup := by
  refine nodup_places.sublist ?_
  rw [misfits, places, List.map_append,
    ← List.filterMap_eq_map' (f := fun e => (Slot.color e).place)]
  refine .append (map_filterMap_sublist (fun s w hw => ?_) _)
    (map_filterMap_sublist (fun e w hw => ?_) _)
  · obtain ⟨slot, hslot, hw⟩ := Option.bind_eq_some_iff.1 hw
    rw [hslot, Slot.place_of_mem_misfit? w hw]
    rfl
  · exact congrArg some (Slot.place_of_mem_misfit? w hw).symm

end Settings

/-! ## Reading a table -/

namespace Draft

variable {t : Table} {d : Draft}

theorem exists_load_iff (t : Table) :
    (∃ d, load t = .ok d) ↔ ∀ w ∈ Settings.misfits t, w.value.isWritable = true := by
  rw [load_eq, warnings_ofTable, ← Warning.exists_messages_iff]
  cases Warning.messages (Settings.misfits t) with
  | error e => exact iff_of_false (fun ⟨_, h⟩ => nomatch h) fun ⟨_, h⟩ => nomatch h
  | ok texts => exact iff_of_true ⟨_, rfl⟩ ⟨texts, rfl⟩

/-- The draft of a table and the messages that it holds. -/
theorem eq_of_load (h : load t = .ok d) :
    d = { (ofTable t).1 with warnings := d.warnings } ∧
      Warning.messages (Settings.misfits t) = .ok d.warnings := by
  rw [load_eq, warnings_ofTable] at h
  cases hmessages : Warning.messages (Settings.misfits t) with
  | error e =>
    rw [hmessages] at h
    cases h
  | ok texts =>
    rw [hmessages] at h
    obtain rfl := Except.ok.inj h
    exact ⟨rfl, rfl⟩

theorem given?_of_load (h : load t = .ok d) (s : Setting) :
    d.given? s = (ofTable t).1.given? s := by
  rw [(eq_of_load h).1]
  cases s <;> rfl

theorem theme_ofTable (t : Table) : (ofTable t).1.theme =
    if (Section.of t "styles").table.isEmpty then none
    else some (Theme.ofSection (Section.of t "styles")).1 := rfl

theorem style?_of_load (h : load t = .ok d) : ∀ theme ∈ d.theme, ∀ e : Theme.Element,
    theme.style? e =
      (((Slot.color e).value? t).or e.usualColor).map e.ground.withForeground := by
  intro theme htheme e
  have htheme : (ofTable t).1.theme = some theme := (given?_of_load h .theme).symm.trans htheme
  rw [theme_ofTable] at htheme
  split at htheme
  · cases htheme
  · obtain rfl := Option.some.inj htheme
    rw [Theme.style?_ofSection, Slot.color_eq_check]
    rfl

/-- **What comes of reading a table.** It is read unless a value of the wrong shape holds an integer
of too many digits, which no message can show. Then each setting is what the value in its slot
means, and open if there is none or it has the wrong shape. The theme is open if the section of
styles has no entries; otherwise each element has the color of its slot, or the usual one if there
is none or it has the wrong shape. The warnings are one message for each entry of the wrong shape in
a slot. Of a section that is no table they tell nothing, so they tell of every entry of the wrong
shape exactly if there is no such section. -/
theorem load_tells_misfits (t : Table) :
    ((∃ d, load t = .ok d) ↔ ∀ w ∈ Settings.misfits t, w.value.isWritable = true) ∧
    ∀ d, load t = .ok d →
      (∀ s, ∀ slot ∈ s.slot?, d.given? s = slot.value? t) ∧
      (d.theme = none ↔ (Section.of t "styles").table = []) ∧
      (∀ theme ∈ d.theme, ∀ e : Theme.Element, theme.style? e =
        (((Slot.color e).value? t).or e.usualColor).map e.ground.withForeground) ∧
      List.Forall₂ (fun w text => w.message = .ok text) (Settings.misfits t) d.warnings ∧
      ((Settings.misfits t).map (·.place)).Nodup ∧
      (d.warnings.length = (Settings.strays t).length + (Settings.misfits t).length ↔
        Settings.strays t = []) := by
  refine ⟨exists_load_iff t, fun d hload => ?_⟩
  have hmessages := Warning.messages_eq_ok_iff.1 (eq_of_load hload).2
  refine ⟨fun s slot hslot => ?_, ?_, style?_of_load hload, hmessages, Settings.nodup_misfits t, ?_⟩
  · rw [given?_of_load hload, given?_ofTable t s slot hslot]
  · rw [show d.theme = (ofTable t).1.theme from given?_of_load hload .theme, theme_ofTable,
      ← List.isEmpty_iff]
    split <;> simp_all
  · rw [← hmessages.length_eq, eq_comm, Nat.add_eq_right, List.length_eq_zero_iff]

/-- A table with a flag, an amount below zero and a color that does not exist, beside a section that
is no table. -/
theorem load_tells_misfits_pink :
    let t : Table := [
      ("render", .table [("compact", .bool true), ("tab_width", .int (-1))]),
      ("context", .list []),
      ("styles", .table [("skipped", .text "pink")])]
    Settings.strays t = ["context"] ∧ ∃ d, load t = .ok d ∧ d.compact = some true ∧
      d.tabWidth = none ∧ (∀ theme ∈ d.theme, theme.skipped = Style.named "bright_black") ∧
      d.warnings = ["Expected int >= 0 in [render].tab_width, got -1",
        "Invalid color in [styles].skipped: 'pink'"] := by
  intro t
  obtain ⟨hread, htold⟩ := load_tells_misfits t
  obtain ⟨d, hload⟩ := hread.2 (by decide +kernel)
  obtain ⟨hgiven, -, hstyle, hwarnings, -⟩ := htold d hload
  refine ⟨by decide +kernel, d, hload, (hgiven .compact _ rfl).trans (by decide +kernel),
    (hgiven .tabWidth _ rfl).trans (by decide +kernel), fun theme htheme => ?_, ?_⟩
  · exact Option.some.inj ((hstyle theme htheme .skipped).trans (by decide +kernel))
  · rw [← Warning.messages_eq_ok_iff] at hwarnings
    exact Except.ok.inj (hwarnings.symm.trans (by decide +kernel))

/-- A section that is a number: nothing is read from it and nothing told. -/
theorem not_tells_strays :
    let t : Table := [("render", .int 3)]
    Settings.strays t = ["render"] ∧ ∃ d, load t = .ok d ∧ d.warnings = [] := by
  intro t
  have hmisfits : Settings.misfits t = [] := by decide +kernel
  obtain ⟨d, hload⟩ := (exists_load_iff t).2 (by simp [hmisfits])
  have hmessages := (eq_of_load hload).2
  rw [hmisfits] at hmessages
  exact ⟨by decide +kernel, d, hload, (Except.ok.inj hmessages).symm⟩

end Draft

end SourceReport
