import SourceReport.Proofs.Settings.Elements
import SourceReport.Proofs.Settings.Theme

/-!
# Layers of settings

Settings can be layered in two ways: the tables are laid over each other and read as one, or each
table is read and the drafts are laid over each other. Both ways agree on every setting that a draft
leaves open by itself. The theme is one setting of a draft, and reading a color fills in the rest of
it. So an upper table with a section of styles takes the colors of the lower one away.

* `Table.above` lays a table over another one, section by section and key by key.
* `Settings.IsFit` says that what is recognised in a table has the right shape.
* `Draft.KeepsColors` says that an upper table takes no color of a lower one away.

Results:
* `Section.value_above`: what is read from sections that lie over each other.
* `Draft.ofTable_above`: the settings of tables over each other, apart from the theme.
* `Draft.layers_agree`: how the two ways to layer tables agree, and exactly when.
* `Draft.not_layers_agree`: two tables with a color each.
-/

namespace SourceReport

open Data (Value Table)

/-! ## Tables over each other -/

namespace Data

namespace Table

/-- The entries of both tables. Where both have a key, one value is made of the upper and the lower
one. -/
def aboveWith (combine : Value → Value → Value) (upper lower : Table) : Table :=
  upper.map (fun e => (e.1, ((lower.find? e.1).map (combine e.2)).getD e.2)) ++
    lower.filter fun e => (upper.find? e.1).isNone

/-- A section over another one: its own values count. -/
def aboveEntries : Table → Table → Table := aboveWith fun v _ => v

/-- A table over another one: sections of one name lie over each other. -/
def above : Table → Table → Table := aboveWith fun
  | .table upper, .table lower => .table (aboveEntries upper lower)
  | v, _ => v

theorem lookup_map (f : Text → Value → Value) (t : Table) (key : Text) :
    List.lookup key (t.map fun e => (e.1, f e.1 e.2)) = (t.find? key).map (f key) := by
  unfold find?
  induction t with
  | nil => rfl
  | cons e t ih =>
    obtain ⟨k, v⟩ := e
    simp only [List.map_cons, List.lookup_cons]
    cases h : key == k with
    | true => rw [eq_of_beq h]; rfl
    | false => exact ih

theorem lookup_filter {p : Text → Bool} {key : Text} (h : p key = true) (t : Table) :
    List.lookup key (t.filter fun e => p e.1) = t.find? key := by
  unfold find?
  induction t with
  | nil => rfl
  | cons e t ih =>
    obtain ⟨k, v⟩ := e
    by_cases hk : key = k
    · simp [← hk, h]
    · have hother : (key == k) = false := beq_eq_false_iff_ne.2 hk
      rw [List.filter_cons]
      split
      · simp [List.lookup_cons, hother, ih]
      · simp [List.lookup_cons, hother, ih]

/-- **A key of two tables** that lie over each other. -/
theorem find?_aboveWith (combine : Value → Value → Value) (upper lower : Table) (key : Text) :
    (aboveWith combine upper lower).find? key =
      match upper.find? key with
      | some v => some (((lower.find? key).map (combine v)).getD v)
      | none => lower.find? key := by
  rw [find?, aboveWith, List.lookup_append]
  rw [lookup_map fun k v => ((lower.find? k).map (combine v)).getD v]
  cases hupper : upper.find? key with
  | some v => rfl
  | none =>
    rw [Option.map_none, Option.none_or]
    exact lookup_filter (p := fun k => (upper.find? k).isNone) (by rw [hupper]; rfl) lower

theorem find?_aboveEntries (upper lower : Table) (key : Text) :
    (aboveEntries upper lower).find? key = (upper.find? key).or (lower.find? key) := by
  rw [aboveEntries, find?_aboveWith]
  cases upper.find? key with
  | some v => cases lower.find? key <;> rfl
  | none => rfl

@[simp] theorem aboveEntries_nil (upper : Table) : aboveEntries upper [] = upper := by
  simp [aboveEntries, aboveWith, find?]

@[simp] theorem nil_aboveEntries (lower : Table) : aboveEntries [] lower = lower := by
  unfold aboveEntries aboveWith
  exact List.filter_eq_self.2 fun _ _ => rfl

/-- A value that a reader reads is under the key, or none. -/
def Fits {α : Type} (t : Table) (key : Text) (read : Value → Option α) : Prop :=
  ∀ v ∈ t.find? key, (read v).isSome = true

instance {α : Type} (t : Table) (key : Text) (read : Value → Option α) :
    Decidable (t.Fits key read) :=
  inferInstanceAs (Decidable (∀ v ∈ t.find? key, (read v).isSome = true))

section Fits

variable {α : Type} {read : Value → Option α} {upper lower : Table} {key : Text}

theorem Fits.aboveEntries (hupper : upper.Fits key read) (hlower : lower.Fits key read) :
    (aboveEntries upper lower).Fits key read := by
  intro v hv
  rw [find?_aboveEntries] at hv
  rcases Option.or_eq_some_iff.1 hv with hv | ⟨-, hv⟩
  · exact hupper v hv
  · exact hlower v hv

/-- **What is read under a key** of sections over each other. -/
theorem bind_find?_aboveEntries (hupper : upper.Fits key read) (lower : Table) :
    ((Table.aboveEntries upper lower).find? key).bind read =
      ((upper.find? key).bind read).or ((lower.find? key).bind read) := by
  rw [find?_aboveEntries]
  cases hv : upper.find? key with
  | none => rfl
  | some v =>
    obtain ⟨a, ha⟩ := Option.isSome_iff_exists.1 (hupper v hv)
    simp [ha]

end Fits

end Table

/-! ## Readers of values -/

namespace Value

/-- The truth value that a value is. -/
def asBool : Value → Option Bool
  | .bool b => some b
  | _ => none

/-- The integer that a value is, unless it is below a minimum. -/
def asInt (minimum : Int) : Value → Option Int
  | .int n => if n < minimum then none else some n
  | _ => none

/-- The alternative that a value names. -/
def asChoice (α : Type) [Choice α] : Value → Option α
  | .text word => Choice.parse? word
  | _ => none

/-- The section that a value is. -/
def asSection : Value → Option Table
  | .table entries => some entries
  | _ => none

end Value

end Data

/-! ## Sections -/

namespace Section

variable {s : Section} {key : Text}

theorem present?_of_fits {α : Type} {read : Value → Option α} (h : s.table.Fits key read)
    (hnull : read .null = none) : s.table.present? key = s.table.find? key := by
  unfold Table.present?
  split
  · next hfind =>
    have hread := h .null hfind
    rw [hnull] at hread
    cases hread
  · rfl

theorem bool_of_fits (h : s.table.Fits key Value.asBool) :
    s.bool key = { value := (s.table.find? key).bind Value.asBool } := by
  rw [bool, present?_of_fits h rfl]
  cases hv : s.table.find? key with
  | none => rfl
  | some v =>
    have hread := h v hv
    cases v with
    | bool b => rfl
    | _ => cases hread

theorem int_of_fits {minimum : Int} (h : s.table.Fits key (Value.asInt minimum)) :
    s.int key minimum = { value := (s.table.find? key).bind (Value.asInt minimum) } := by
  rw [int, present?_of_fits h rfl]
  cases hv : s.table.find? key with
  | none => rfl
  | some v =>
    have hread := h v hv
    cases v with
    | int n =>
      by_cases hn : n < minimum
      · simp [Value.asInt, hn] at hread
      · simp [Value.asInt, hn]
    | _ => cases hread

theorem choice_of_fits {α : Type} [Choice α] (h : s.table.Fits key (Value.asChoice α)) :
    s.choice α key = { value := (s.table.find? key).bind (Value.asChoice α) } := by
  rw [choice, present?_of_fits h rfl]
  cases hv : s.table.find? key with
  | none => rfl
  | some v =>
    have hread := h v hv
    cases v with
    | text word =>
      obtain ⟨a, ha⟩ := Option.isSome_iff_exists.1 hread
      have hparse : Choice.parse? word = some a := ha
      simp [Value.asChoice, hparse]
    | _ => cases hread

theorem color_of_fits (h : s.table.Fits key Color.ofValue?) :
    s.color key = { value := (s.table.find? key).bind Color.ofValue? } := by
  rw [color, present?_of_fits h rfl]
  cases hv : s.table.find? key with
  | none => rfl
  | some v =>
    obtain ⟨c, hc⟩ := Option.isSome_iff_exists.1 (h v hv)
    simp [hc]

/-- **What is read from sections over each other**: the upper value, or else the lower one. -/
theorem value_above {α : Type} (read : Section → Text → Checked α) {reader : Value → Option α}
    (hread : ∀ {s : Section} {key : Text}, s.table.Fits key reader →
      read s key = { value := (s.table.find? key).bind reader })
    {both upper lower : Section} (h : both.table = Table.aboveEntries upper.table lower.table)
    (hupper : upper.table.Fits key reader) (hlower : lower.table.Fits key reader) :
    (read both key).value = (read upper key).value.or (read lower key).value := by
  have hboth : both.table.Fits key reader := h ▸ hupper.aboveEntries hlower
  rw [hread hboth, hread hupper, hread hlower, h]
  exact Table.bind_find?_aboveEntries hupper _

/-- **A section of tables over each other** is their sections over each other. -/
theorem table_of_above {upper lower : Table} (hupper : upper.Fits key Value.asSection)
    (hlower : lower.Fits key Value.asSection) :
    (of (upper.above lower) key).table =
      Table.aboveEntries (of upper key).table (of lower key).table := by
  simp only [of, Table.above, Table.find?_aboveWith]
  cases hu : upper.find? key with
  | none => exact (Table.nil_aboveEntries _).symm
  | some v =>
    have hv := hupper v hu
    cases v with
    | table entries =>
      cases hl : lower.find? key with
      | none => exact (Table.aboveEntries_nil _).symm
      | some w =>
        have hw := hlower w hl
        cases w with
        | table entries => rfl
        | _ => cases hw
    | _ => cases hv

theorem fits_above {upper lower : Table} (hupper : upper.Fits key Value.asSection)
    (hlower : lower.Fits key Value.asSection) :
    (upper.above lower).Fits key Value.asSection := by
  intro w hw
  rw [Table.above, Table.find?_aboveWith] at hw
  cases hu : upper.find? key with
  | none =>
    rw [hu] at hw
    exact hlower w hw
  | some v =>
    have hv := hupper v hu
    rw [hu] at hw
    obtain rfl := Option.some.inj hw
    cases v with
    | table entries =>
      cases hl : lower.find? key with
      | none => rfl
      | some w =>
        have hw := hlower w hl
        cases w with
        | table entries => rfl
        | _ => cases hw
    | _ => cases hv

end Section

/-! ## Fit tables -/

/-- What is recognised in a table has the right shape. -/
structure Settings.IsFit (t : Table) : Prop where
  sections : ∀ key ∈ ([("render" : Text), "context", "styles"] : List Text),
    t.Fits key Value.asSection
  charSet : (Section.of t "render").table.Fits "char_set" (Value.asChoice CharSet)
  attach : (Section.of t "render").table.Fits "label_attach" (Value.asChoice Attach)
  detail : (Section.of t "render").table.Fits "display_style" (Value.asChoice Detail)
  flags : ∀ key ∈ ([("color" : Text), "cross_gap", "compact", "multiline_arrows", "palette"] :
    List Text), (Section.of t "render").table.Fits key Value.asBool
  tabWidth : (Section.of t "render").table.Fits "tab_width" (Value.asInt 0)
  amounts : ∀ key ∈ ([("lines_before" : Text), "lines_after", "gap_threshold"] : List Text),
    (Section.of t "context").table.Fits key (Value.asInt 0)
  colors : ∀ e : Theme.Element, (Section.of t "styles").table.Fits e.key Color.ofValue?

namespace Settings.IsFit

variable {t upper lower : Table}

instance (t : Table) : Decidable (IsFit t) :=
  decidable_of_iff
    ((∀ key ∈ ([("render" : Text), "context", "styles"] : List Text),
        t.Fits key Value.asSection) ∧
      (Section.of t "render").table.Fits "char_set" (Value.asChoice CharSet) ∧
      (Section.of t "render").table.Fits "label_attach" (Value.asChoice Attach) ∧
      (Section.of t "render").table.Fits "display_style" (Value.asChoice Detail) ∧
      (∀ key ∈ ([("color" : Text), "cross_gap", "compact", "multiline_arrows", "palette"] :
        List Text), (Section.of t "render").table.Fits key Value.asBool) ∧
      (Section.of t "render").table.Fits "tab_width" (Value.asInt 0) ∧
      (∀ key ∈ ([("lines_before" : Text), "lines_after", "gap_threshold"] : List Text),
        (Section.of t "context").table.Fits key (Value.asInt 0)) ∧
      ∀ e : Theme.Element, (Section.of t "styles").table.Fits e.key Color.ofValue?)
    ⟨fun ⟨h₁, h₂, h₃, h₄, h₅, h₆, h₇, h₈⟩ => ⟨h₁, h₂, h₃, h₄, h₅, h₆, h₇, h₈⟩,
      fun ⟨h₁, h₂, h₃, h₄, h₅, h₆, h₇, h₈⟩ => ⟨h₁, h₂, h₃, h₄, h₅, h₆, h₇, h₈⟩⟩

theorem above (hupper : IsFit upper) (hlower : IsFit lower) : IsFit (upper.above lower) := by
  have hsection : ∀ key ∈ ([("render" : Text), "context", "styles"] : List Text),
      (Section.of (upper.above lower) key).table =
        Table.aboveEntries (Section.of upper key).table (Section.of lower key).table :=
    fun key hkey => Section.table_of_above (hupper.sections key hkey) (hlower.sections key hkey)
  have hrender := hsection "render" (by simp)
  have hcontext := hsection "context" (by simp)
  have hstyles := hsection "styles" (by simp)
  refine {
    sections := fun key hkey =>
      Section.fits_above (hupper.sections key hkey) (hlower.sections key hkey)
    charSet := ?_
    attach := ?_
    detail := ?_
    flags := fun key hkey => ?_
    tabWidth := ?_
    amounts := fun key hkey => ?_
    colors := fun e => ?_ }
  · exact hrender ▸ hupper.charSet.aboveEntries hlower.charSet
  · exact hrender ▸ hupper.attach.aboveEntries hlower.attach
  · exact hrender ▸ hupper.detail.aboveEntries hlower.detail
  · exact hrender ▸ (hupper.flags key hkey).aboveEntries (hlower.flags key hkey)
  · exact hrender ▸ hupper.tabWidth.aboveEntries hlower.tabWidth
  · exact hcontext ▸ (hupper.amounts key hkey).aboveEntries (hlower.amounts key hkey)
  · exact hstyles ▸ (hupper.colors e).aboveEntries (hlower.colors e)

/-- Nothing is wrong with the colors of a fit table. -/
theorem warnings_ofSection (h : IsFit t) : (Theme.ofSection (Section.of t "styles")).2 = [] := by
  have hcolor : ∀ e : Theme.Element, ((Section.of t "styles").color e.key).warnings = [] :=
    fun e => by rw [Section.color_of_fits (h.colors e)]
  have hheader : ∀ l : Level,
      ((Section.of t "styles").color ("header_" ++ l.name)).warnings = [] :=
    fun l => hcolor (.header l)
  have hrest : ∀ e ∈ ([.primaryLabel, .secondaryLabel, .lineNumber, .sourceBorder, .noteBullet,
      .skipped] : List Theme.Element), ((Section.of t "styles").color e.key).warnings = [] :=
    fun e _ => hcolor e
  simp only [Theme.Element.key, List.forall_mem_cons] at hrest
  simp [Theme.ofSection, hheader, hrest]

/-- **Nothing is wrong with a fit table.** -/
theorem warnings_ofTable (h : IsFit t) : (Draft.ofTable t).2 = [] := by
  have hflag := fun key hkey => Section.bool_of_fits (h.flags key hkey)
  have hamount := fun key hkey => Section.int_of_fits (h.amounts key hkey)
  simp only [List.forall_mem_cons] at hflag hamount
  simp [Draft.ofTable, Section.choice_of_fits h.charSet, Section.choice_of_fits h.attach,
    Section.choice_of_fits h.detail, Section.int_of_fits h.tabWidth, hflag, hamount,
    h.warnings_ofSection]

theorem load (h : IsFit t) : Draft.load t = .ok (Draft.ofTable t).1 := by
  rw [Draft.load_eq, h.warnings_ofTable]
  rfl

end Settings.IsFit

/-! ## Drafts over each other -/

namespace Draft

/-- The color that the section of styles gives to an element. -/
def elementColor? (t : Table) (e : Theme.Element) : Option Color :=
  ((Section.of t "styles").color e.key).value

/-- The upper table takes no color of the lower one away: it has no section of styles, or the
elements that it leaves alone have no color but their usual one. -/
def KeepsColors (upper lower : Table) : Prop :=
  (Section.of upper "styles").table = [] ∨
    ∀ e : Theme.Element, elementColor? upper e = none →
      ∀ c ∈ elementColor? lower e, e.usualColor = some c

instance (upper lower : Table) : Decidable (KeepsColors upper lower) :=
  decidable_of_iff
    ((Section.of upper "styles").table.isEmpty = true ∨
      ∀ e : Theme.Element, elementColor? upper e = none →
        ∀ c ∈ elementColor? lower e, e.usualColor = some c)
    (or_congr List.isEmpty_iff Iff.rfl)

variable {t upper lower : Table}

theorem theme_settle_ofTable (t : Table) :
    (ofTable t).1.settle.theme = (Theme.ofSection (Section.of t "styles")).1 := by
  have htheme : (ofTable t).1.theme = if (Section.of t "styles").table.isEmpty then none
      else some (Theme.ofSection (Section.of t "styles")).1 := rfl
  rw [settle, htheme]
  split
  · next hempty =>
    have hsection : Section.of t "styles" = ⟨(Section.of t "styles").name, []⟩ := by
      rw [← List.isEmpty_iff.1 hempty]
    rw [hsection, Theme.ofSection_nil]
    rfl
  · rfl

/-- The theme of drafts over each other is that of the upper one, if it has a section of styles. -/
theorem theme_settle_above (upper lower : Table) :
    ((ofTable upper).1.above (ofTable lower).1).settle.theme =
      if (Section.of upper "styles").table.isEmpty then (ofTable lower).1.settle.theme
        else (ofTable upper).1.settle.theme := by
  rw [theme_settle_ofTable upper]
  split <;> simp_all [settle, above, ofTable]

/-- Every setting but the theme is the same, whether the tables or the drafts are layered. -/
theorem ofTable_above (hupper : Settings.IsFit upper) (hlower : Settings.IsFit lower) :
    (ofTable (upper.above lower)).1 =
      { (ofTable upper).1.above (ofTable lower).1 with
        theme := (ofTable (upper.above lower)).1.theme } := by
  have hrender := Section.table_of_above (hupper.sections "render" (by simp))
    (hlower.sections "render" (by simp))
  have hcontext := Section.table_of_above (hupper.sections "context" (by simp))
    (hlower.sections "context" (by simp))
  have hflag := fun key hkey => Section.value_above Section.bool Section.bool_of_fits hrender
    (hupper.flags key hkey) (hlower.flags key hkey)
  have hamount := fun key hkey => Section.value_above (Section.int · · 0)
    Section.int_of_fits hcontext (hupper.amounts key hkey) (hlower.amounts key hkey)
  simp only [List.forall_mem_cons] at hflag hamount
  obtain ⟨hcolor, hcrossGap, hcompact, harrows, hpalette, -⟩ := hflag
  obtain ⟨hbefore, hafter, hgap, -⟩ := hamount
  rw [Draft.mk.injEq]
  exact ⟨Section.value_above (Section.choice CharSet) Section.choice_of_fits hrender hupper.charSet
      hlower.charSet,
    Section.value_above (Section.int · · 0) Section.int_of_fits hrender hupper.tabWidth
      hlower.tabWidth,
    hcolor,
    Section.value_above (Section.choice Attach) Section.choice_of_fits hrender hupper.attach
      hlower.attach,
    hcrossGap, hcompact, harrows, hbefore, hafter, hgap,
    Section.value_above (Section.choice Detail) Section.choice_of_fits hrender hupper.detail
      hlower.detail,
    hpalette, rfl, rfl, rfl⟩

/-- The same theme comes of both ways exactly if the upper table takes no color away. -/
theorem theme_above_eq_iff (hupper : Settings.IsFit upper) (hlower : Settings.IsFit lower) :
    ((ofTable upper).1.above (ofTable lower).1).settle.theme =
        (ofTable (upper.above lower)).1.settle.theme ↔ KeepsColors upper lower := by
  have hstyles := Section.table_of_above (hupper.sections "styles" (by simp))
    (hlower.sections "styles" (by simp))
  rw [theme_settle_above, theme_settle_ofTable (upper.above lower)]
  by_cases hempty : (Section.of upper "styles").table = []
  · have hsame : Section.of (upper.above lower) "styles" = Section.of lower "styles" := by
      rw [hempty, Table.nil_aboveEntries] at hstyles
      exact congrArg (Section.mk _) hstyles
    rw [if_pos (List.isEmpty_iff.2 hempty), hsame, theme_settle_ofTable]
    exact iff_of_true rfl (.inl hempty)
  · rw [if_neg (mt List.isEmpty_iff.1 hempty), theme_settle_ofTable]
    have hcolor : ∀ e : Theme.Element, elementColor? (upper.above lower) e =
        (elementColor? upper e).or (elementColor? lower e) := fun e =>
      Section.value_above Section.color Section.color_of_fits hstyles (hupper.colors e)
        (hlower.colors e)
    rw [Theme.ofSection_eq_iff, KeepsColors, or_iff_right hempty]
    refine forall_congr' fun e => ?_
    change (elementColor? upper e).or e.usualColor =
      (elementColor? (upper.above lower) e).or e.usualColor ↔ _
    rw [hcolor]
    -- Only an element that the upper table leaves alone can tell the two apart.
    cases elementColor? upper e with
    | some c => simp
    | none => cases elementColor? lower e <;> simp

/-- **Both ways to layer tables** whose recognised entries have the right shape give the same value
for every setting but the theme: the upper value, or the lower one where the upper table says
nothing. The theme is that of the upper table alone, as soon as it has a section of styles, and both
ways agree on it exactly if that takes no color of the lower table away. -/
theorem layers_agree (hupper : Settings.IsFit upper) (hlower : Settings.IsFit lower) :
    ∃ top base both, load upper = .ok top ∧ load lower = .ok base ∧
      load (upper.above lower) = .ok both ∧
      (top.above base).settle =
        { both.settle with
          theme := if (Section.of upper "styles").table.isEmpty then base.settle.theme
            else top.settle.theme } ∧
      ((top.above base).settle = both.settle ↔ KeepsColors upper lower) := by
  refine ⟨_, _, _, hupper.load, hlower.load, (hupper.above hlower).load, ?_, ?_⟩
  · rw [ofTable_above hupper hlower, ← theme_settle_above]
    rfl
  · rw [← theme_above_eq_iff hupper hlower]
    refine ⟨fun h => congrArg Settings.theme h, fun h => ?_⟩
    rw [ofTable_above hupper hlower] at h ⊢
    exact Settings.mk.injEq .. ▸ ⟨rfl, rfl, rfl, rfl, rfl, rfl, rfl, rfl, rfl, rfl, rfl, rfl, h,
      rfl, rfl⟩

/-- A lower table with a color and an upper one with an amount. -/
theorem layers_agree_amount :
    let upper : Table := [("context", .table [("lines_before", .int 3)])]
    let lower : Table := [("styles", .table [("line_number", .text "red")])]
    Settings.IsFit upper ∧ Settings.IsFit lower ∧
      ∃ top base both, load upper = .ok top ∧ load lower = .ok base ∧
        load (upper.above lower) = .ok both ∧ (top.above base).settle = both.settle := by
  intro upper lower
  have hupper : Settings.IsFit upper := by decide +kernel
  have hlower : Settings.IsFit lower := by decide +kernel
  have hkeeps : KeepsColors upper lower := by decide +kernel
  obtain ⟨top, base, both, htop, hbase, hboth, -, hagree⟩ := layers_agree hupper hlower
  exact ⟨hupper, hlower, top, base, both, htop, hbase, hboth, hagree.2 hkeeps⟩

/-- With a color in each of two tables the lower one is lost: line numbers are red only if the
tables are layered. -/
theorem not_layers_agree :
    let upper : Table := [("styles", .table [("skipped", .text "blue")])]
    let lower : Table := [("styles", .table [("line_number", .text "red")])]
    Settings.IsFit upper ∧ Settings.IsFit lower ∧
      ∃ top base both, load upper = .ok top ∧ load lower = .ok base ∧
        load (upper.above lower) = .ok both ∧
        (top.above base).settle.theme.lineNumber = Style.named "bright_cyan" ∧
        both.settle.theme.lineNumber = Style.named "red" := by
  have hupper : Settings.IsFit [("styles", .table [("skipped", .text "blue")])] := by
    decide +kernel
  have hlower : Settings.IsFit [("styles", .table [("line_number", .text "red")])] := by
    decide +kernel
  exact ⟨hupper, hlower, _, _, _, hupper.load, hlower.load, (hupper.above hlower).load,
    by decide +kernel, by decide +kernel⟩

end Draft

end SourceReport
