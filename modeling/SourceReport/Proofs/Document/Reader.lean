import SourceReport.Document.Basic
import SourceReport.Proofs.Document.Loading
import SourceReport.Proofs.Report.Registered
import SourceReport.Proofs.Settings.Theme
import SourceReport.Proofs.Source.Registry

/-!
# References of documents

A diagnostic of a document refers to sources by names. Each name was bound to a source when that was
registered, and no source is taken out of the registry again. So what a document refers to is
registered, under whatever name the source is shown.

* `Sources.IsClosed` says that every name stands for a registered source; each source that is read
  keeps it.

Results:
* `Sources.IsClosed.read`, `Sources.IsClosed.readSources`: one source, and all of them.
* `isFit_of_readDiagnostic`: what is read with such names.
* `Document.isFit_of_ofText`: every diagnostic of a document that loads.
* `Document.renders_of_ofText`: documents that load can be rendered.
-/

namespace SourceReport

open Loading

namespace Sources

variable {s s' : Sources} {id : SourceId}

/-- Every name stands for a registered source. -/
def IsClosed (s : Sources) : Prop := ∀ e ∈ s.names, e.2 ∈ s.registry.ids

/-- A source was registered under an identity, and no name changed. -/
structure Adds (s : Sources) (id : SourceId) (s' : Sources) : Prop where
  names : s'.names = s.names
  mem_ids : ∀ other, other ∈ s'.registry.ids ↔ other ∈ s.registry.ids ∨ other = id

theorem isClosed_empty : IsClosed {} := fun _ he => absurd he List.not_mem_nil

theorem Adds.isClosed (h : s.Adds id s') (hs : s.IsClosed) : s'.IsClosed := by
  intro e he
  rw [h.names] at he
  exact (h.mem_ids e.2).2 (Or.inl (hs e he))

theorem Adds.mem (h : s.Adds id s') : id ∈ s'.registry.ids := (h.mem_ids id).2 (Or.inr rfl)

/-! ## Reading sources -/

theorem adds_add {source : Source} (h : (s.add source).Gives (id, s')) : s.Adds id s' := by
  unfold add at h
  split at h
  · exact absurd h not_gives_error
  · next id' registry hinsert =>
    obtain ⟨rfl, rfl⟩ := Prod.mk.inj (gives_ok.1 h)
    obtain ⟨rfl, hids⟩ := Registry.mem_ids_insert hinsert
    exact ⟨rfl, hids⟩

theorem adds_addText {place name text : Text} (h : (s.addText place name text).Gives (id, s')) :
    s.Adds id s' := by
  unfold addText at h
  split at h
  · exact absurd h not_gives_refuse
  · exact adds_add h

/-- A file is registered under the identity of its path, whatever name it is shown under. -/
theorem adds_addFile {tree : Tree} {path shown : Path}
    (h : (s.addFile tree path shown).Gives (id, s')) : s.Adds id s' := by
  unfold addFile at h
  split at h
  · exact absurd h not_gives_error
  · split at h
    · exact absurd h not_gives_error
    · obtain ⟨⟨id', s₁⟩, hadd, h⟩ := gives_bind.1 h
      obtain ⟨rfl, rfl⟩ := Prod.mk.inj (gives_pure.1 h)
      have hadds := adds_add hadd
      refine ⟨hadds.names, fun other => ?_⟩
      rw [← hadds.mem_ids other]
      cases hshown : s₁.registry.showAs id' (.file shown) with
      | none => rfl
      | some registry => rw [Option.getD_some, Registry.ids_showAs hshown]

/-- Binding names to a registered source. -/
theorem IsClosed.bind (hs : s.IsClosed) (hid : id ∈ s.registry.ids) {place : Text}
    {names : List Text} (h : (s.bind place id names).Gives s') : s'.IsClosed := by
  induction names generalizing s with
  | nil =>
    obtain rfl := gives_ok.1 h
    exact hs
  | cons name rest ih =>
    unfold Sources.bind at h
    split at h
    · refine ih (s := { s with names := (name, id) :: s.names }) (fun e he => ?_) hid h
      rcases List.mem_cons.1 he with rfl | he
      · exact hid
      · exact hs e he
    · exact absurd h not_gives_refuse

/-- **A source that is read** leaves every name bound. -/
theorem IsClosed.read (hs : s.IsClosed) {tree : Tree} {directory : Path} {f : Fields}
    (h : (s.read tree directory f).Gives s') : s'.IsClosed := by
  -- Every branch that succeeds adds one source first and binds its names to it afterwards.
  have hbind : ∀ {place : Text} {names : List Text} {added : SourceId × Sources},
      s.Adds added.1 added.2 → (added.2.bind place added.1 names).Gives s' → s'.IsClosed :=
    fun hadds => (hadds.isClosed hs).bind hadds.mem
  unfold Sources.read at h
  simp only [gives_bind] at h
  obtain ⟨path, -, name, -, text, -, h⟩ := h
  split at h
  · split at h
    · exact absurd h not_gives_refuse
    · obtain ⟨added, hadd, h⟩ := gives_bind.1 h
      exact hbind (adds_addText hadd) h
  · obtain ⟨added, hadd, h⟩ := gives_bind.1 h
    exact hbind (adds_addFile hadd) h
  · exact absurd h not_gives_refuse

/-- **All sources** are read with every name bound. -/
theorem IsClosed.readSources (hs : s.IsClosed) {tree : Tree} {directory : Path} {fs : List Fields}
    (h : (readSources tree directory s fs).Gives s') : s'.IsClosed := by
  induction fs generalizing s with
  | nil =>
    obtain rfl := gives_ok.1 h
    exact hs
  | cons f rest ih =>
    obtain ⟨s₁, hread, hrest⟩ := gives_bind.1 h
    exact ih (hs.read hread) hrest

/-- What a name refers to is registered. -/
theorem IsClosed.reference (hs : s.IsClosed) {f : Fields} (h : (s.reference f).Gives id) :
    id ∈ s.registry.ids := by
  obtain ⟨name, -, h⟩ := gives_bind.1 h
  split at h
  · next found hlookup =>
    obtain rfl := gives_pure.1 h
    obtain ⟨before, after, hnames, -⟩ := List.lookup_eq_some_iff.1 hlookup
    have hmem : (name, found) ∈ s.names := by
      rw [hnames]
      exact List.mem_append_right before List.mem_cons_self
    exact hs _ hmem
  · exact absurd h not_gives_refuse

end Sources

/-! ## Reading diagnostics -/

section Diagnostics

variable {s : Sources} (hs : s.IsClosed) {f : Fields}

include hs

theorem mem_ids_of_readSpan {span : Span} (h : (readSpan s f).Gives span) :
    span.file ∈ s.registry.ids := by
  unfold readSpan at h
  simp only [gives_bind] at h
  obtain ⟨file, hfile, start, -, stop, -, h⟩ := h
  have hrange : span.file = file := by
    split at h
    · obtain ⟨-, -, h⟩ := gives_bind.1 h
      exact gives_pure.1 h ▸ rfl
    · exact gives_pure.1 h ▸ rfl
  exact hrange ▸ hs.reference hfile

/-- **A label** refers to a registered source, in a valid color if it has one. -/
theorem fit_of_readLabel {l : Label} (h : (readLabel s f).Gives l) :
    l.file ∈ s.registry.ids ∧ ∀ c ∈ l.color, c.isValid = true := by
  unfold readLabel at h
  simp only [gives_bind, gives_pure] at h
  obtain ⟨span, hspan, emphasis, -, -, -, message, -, order, -, priority, -, rfl⟩ := h
  exact ⟨mem_ids_of_readSpan hs hspan, Section.isValid_of_mem_color⟩

theorem mem_ids_of_readLocation {location : Option Locator}
    (h : (readLocation s f).Gives location) : ∀ l ∈ location, l.file ∈ s.registry.ids := by
  unfold readLocation at h
  split at h
  · obtain rfl := gives_ok.1 h
    exact fun _ hl => nomatch hl
  · simp only [gives_bind, gives_pure] at h
    obtain ⟨file, hfile, offset, -, rfl⟩ := h
    intro l hl
    obtain rfl := Option.some.inj hl
    exact hs.reference hfile
  · exact absurd h not_gives_refuse

/-- **A diagnostic** refers to registered sources, and its labels have valid colors. -/
theorem isFit_of_readDiagnostic {d : Diagnostic} (h : (readDiagnostic s f).Gives d) :
    d.IsFit s.registry := by
  unfold readDiagnostic at h
  simp only [gives_bind, gives_pure] at h
  obtain ⟨severity, -, message, -, code, -, fields, -, labels, hlabels, notes, -, location,
    hlocation, rfl⟩ := h
  have hfit : ∀ l ∈ labels, l.file ∈ s.registry.ids ∧ ∀ c ∈ l.color, c.isValid = true := by
    intro l hl
    obtain ⟨inner, -, hread⟩ := exists_of_gives_mapM hlabels l hl
    exact fit_of_readLabel hs hread
  exact {
    labels := fun l hl => Registry.contains_iff_mem_ids.2 (hfit l hl).1
    colors := fun l hl => (hfit l hl).2
    location := fun l hl =>
      Registry.contains_iff_mem_ids.2 (mem_ids_of_readLocation hs hlocation l hl) }

end Diagnostics

namespace Document

variable {tree : Tree} {directory : Path} {doc : Document}

theorem isFit_of_ofTable {t : Data.Table} (h : (ofTable tree directory t).Gives doc) :
    ∀ d ∈ doc.diagnostics, d.IsFit doc.registry := by
  unfold ofTable at h
  simp only [gives_bind, gives_pure] at h
  obtain ⟨sources, -, s, hs, fields, -, ds, hds, rfl⟩ := h
  intro d hd
  obtain ⟨f, -, hread⟩ := exists_of_gives_mapM hds d hd
  exact isFit_of_readDiagnostic (Sources.isClosed_empty.readSources hs) hread

/-- **The diagnostics of a document** that loads refer to registered sources, and their labels have
valid colors. -/
theorem isFit_of_ofText {format : DocumentFormat} {text : Text}
    (h : (ofText tree format directory text).Gives doc) :
    ∀ d ∈ doc.diagnostics, d.IsFit doc.registry := by
  unfold ofText at h
  split at h
  · exact absurd h not_gives_refuse
  · exact absurd h not_gives_error
  · unfold ofValue at h
    split at h
    · exact isFit_of_ofTable h
    · exact absurd h not_gives_refuse

/-- **A document that loads can be rendered** with all settings from tables, in every format. Its
labels and locations refer to registered sources, in which everything is found that is looked up.
The colors of its labels are valid, no source is missing in the report, and all of its issues are
about offsets. -/
theorem renders_of_ofText {format : DocumentFormat} {text : Text} {draft : Draft}
    (hdoc : (ofText tree format directory text).outcome = .ok doc) (hdraft : draft.IsRead) :
    (∀ d ∈ doc.diagnostics, d.IsFit doc.registry) ∧
    (∀ d ∈ doc.diagnostics, ∀ file ∈ d.files, ∃ s, doc.registry.source? file = some s ∧
      d.FindsAll draft.settle doc.registry file s) ∧
    let report := Report.ofAll draft.settle doc.registry doc.diagnostics
    (∀ sink color, ∃ out, report.write sink color = .ok out) ∧
    (∀ row ∈ report.rows, row.kind ≠ .unavailable) ∧
    ∀ issue ∈ report.issues,
      (∃ given max, issue.flaw = .offset (.indexTooLarge given max)) ∨
        ∃ given, issue.flaw = .offset (.insideCharacter given) := by
  have hfit := isFit_of_ofText hdoc
  refine ⟨hfit, fun d hd file hfile => ?_, Report.exists_write_ofAll hdraft.isValid_settle hfit,
    Report.kind_ne_unavailable hfit, Report.offset_of_mem_issues hfit⟩
  obtain ⟨s, hs⟩ := (hfit d hd).exists_source? file hfile
  exact ⟨s, hs, d.findsAll draft.settle hs⟩

/-- The source is a file that is shown under a name. The label starts inside its only character. -/
theorem renders_of_ofText_file :
    let tree : Tree := ⟨Path.ofText "/w", [(["w", "b"], .file [195, 169])]⟩
    let text : Text := "[[sources]]\npath = \"b\"\nname = \"c\"\n[[diagnostics]]\n" ++
      "[[diagnostics.labels]]\nsource = \"b\"\nstart = 1\nend = 2\ncolor = 9\n"
    let styles : Data.Table := [("styles", .table [("skipped", .text "red")])]
    ∃ doc draft, (ofText tree .toml (Path.ofText ".") text).outcome = .ok doc ∧
      Draft.load styles = .ok draft ∧ doc.diagnostics.length = 1 ∧
      (∀ d ∈ doc.diagnostics, d.IsFit doc.registry) ∧
      let report := Report.ofAll draft.settle doc.registry doc.diagnostics
      ∃ out, report.write .ansi true = .ok out := by
  intro tree text styles
  have hloads : (ofText tree .toml (Path.ofText ".") text).outcome.toOption.map
      (·.diagnostics.length) = some 1 := by decide +kernel
  have hsettings : (Draft.load styles).toOption.isSome = true := by decide +kernel
  cases hdoc : (ofText tree .toml (Path.ofText ".") text).outcome with
  | error e =>
    rw [hdoc] at hloads
    cases hloads
  | ok doc =>
    cases hdraft : Draft.load styles with
    | error e =>
      rw [hdraft] at hsettings
      cases hsettings
    | ok draft =>
      rw [hdoc] at hloads
      obtain ⟨hfit, -, hwrite, -⟩ := renders_of_ofText hdoc (.load hdraft)
      exact ⟨doc, draft, rfl, rfl, Option.some.inj hloads, hfit, hwrite .ansi true⟩

end Document

end SourceReport
