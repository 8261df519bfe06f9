import SourceReport.Proofs.Files.Ancestors
import SourceReport.Proofs.Settings.Layers
import SourceReport.Settings.Files

/-!
# The settings file that is found

From a place upwards the nearest directory counts that has settings: a settings file of its own, or
a project file with a table of settings. An empty table counts as none, for finding a file as for
reading it.

* `toolTable?` is the table of settings in a project file.
* `Tree.Offers` says which file of a directory holds its settings, by a rule on the tables that
  count: only those with entries (`HasEntries`), or every table (`IsPresent`).

Results:
* `Tree.settingsIn?_eq`, `Tree.firstSettings?_eq`: what is found in a directory, and in a list of
  them.
* `Tree.draft?_eq_none_iff`: when a project file gives no draft.
* `Tree.discover_nearest`: the file that is found is that of the nearest directory with settings;
  empty tables are all that sets it apart from the file that is found if every table counts.
* `Tree.not_discover_empty`: a project file with an empty table, which is passed over.
-/

namespace SourceReport

open Data (Value Table)

/-- The table of settings in a project file, if there is one. -/
def toolTable? (t : Table) : Option Table :=
  ((t.find? "tool").bind Value.asSection).bind fun tool =>
    (tool.find? "spanmark").bind Value.asSection

theorem asTable_eq (v : Option Value) : Value.asTable v = (v.bind Value.asSection).getD [] := by
  cases v with
  | none => rfl
  | some v => cases v <;> rfl

/-- A project file without a table of settings is read like one with an empty table. -/
theorem projectTable_eq (t : Table) : projectTable t = (toolTable? t).getD [] := by
  rw [projectTable, toolTable?, asTable_eq, asTable_eq]
  cases (t.find? "tool").bind Value.asSection <;> rfl

/-- A project file is read as if it had no settings exactly if it has no table of them or an empty
one. -/
theorem projectTable_eq_nil_iff (t : Table) :
    projectTable t = [] ↔ toolTable? t = none ∨ toolTable? t = some [] := by
  rw [projectTable_eq]
  cases toolTable? t with
  | none => exact iff_of_true rfl (.inl rfl)
  | some inner => simp

theorem eq_ok_of_toOption {ε α : Type} {x : Except ε α} {a : α} (h : x.toOption = some a) :
    x = .ok a := by
  cases x with
  | error e => cases h
  | ok b => exact congrArg _ (Option.some.inj h)

namespace Path

/-- Where the settings file of a directory stands. -/
def settingsFile (directory : Path) : Path := directory / .ofText SourceReport.settingsFile

/-- Where the project file of a directory stands. -/
def projectFile (directory : Path) : Path := directory / .ofText SourceReport.projectFile

theorem parent_settingsFile (d : Path) : d.settingsFile.parent = d :=
  congrArg (Path.mk d.root) List.dropLast_concat

theorem parent_projectFile (d : Path) : d.projectFile.parent = d :=
  congrArg (Path.mk d.root) List.dropLast_concat

end Path

namespace Tree

/-! ## What a directory has -/

/-- The rule by which every table of settings counts. -/
def IsPresent (_ : Table) : Prop := True

/-- The rule by which an empty table of settings counts as none. -/
def HasEntries (t : Table) : Prop := t ≠ []

/-- The project file of a directory can be read, if there is one. -/
def HasReadableProject (tree : Tree) (d : Path) : Prop :=
  tree.isFile d.projectFile = true → ∃ t, tree.settingsTable? d.projectFile = .ok t

/-- The file of a directory that holds its settings: a settings file, or else a project file with a
table of settings that counts. -/
inductive Offers (tree : Tree) (counts : Table → Prop) (d : Path) : Path → Prop where
  | own (hown : tree.isFile d.settingsFile = true) : Offers tree counts d d.settingsFile
  | project {t inner : Table} (hown : tree.isFile d.settingsFile = false)
      (hfile : tree.isFile d.projectFile = true)
      (hread : tree.settingsTable? d.projectFile = .ok t) (hinner : toolTable? t = some inner)
      (hcounts : counts inner) : Offers tree counts d d.projectFile

/-- The file of the nearest directory at or above a place that has settings. -/
def OffersNearest (tree : Tree) (counts : Table → Prop) (place file : Path) : Prop :=
  ∃ d, Path.IsNearest (fun d => ∃ file, tree.Offers counts d file) place d ∧
    tree.Offers counts d file

namespace Offers

variable {tree : Tree} {counts other : Table → Prop} {d file : Path}

theorem parent (h : tree.Offers counts d file) : file.parent = d := by
  cases h with
  | own => exact d.parent_settingsFile
  | project => exact d.parent_projectFile

theorem mono (h : tree.Offers counts d file) (himp : ∀ t, counts t → other t) :
    tree.Offers other d file := by
  cases h with
  | own hown => exact .own hown
  | project hown hfile hread hinner hcounts =>
    exact .project hown hfile hread hinner (himp _ hcounts)

/-- Whatever tables count, a directory has one file with settings. -/
theorem unique {file' : Path} (h : tree.Offers counts d file) (h' : tree.Offers other d file') :
    file = file' := by
  cases h with
  | own hown =>
    cases h' with
    | own => rfl
    | project hown' => exact absurd (hown.symm.trans hown') (by decide)
  | project hown =>
    cases h' with
    | own hown' => exact absurd (hown'.symm.trans hown) (by decide)
    | project => rfl

/-- Without a settings file it is the project file, if its table of settings counts. -/
theorem iff_of_project {t : Table} (hown : tree.isFile d.settingsFile = false)
    (hfile : tree.isFile d.projectFile = true) (hread : tree.settingsTable? d.projectFile = .ok t) :
    tree.Offers counts d file ↔
      file = d.projectFile ∧ ∃ inner, toolTable? t = some inner ∧ counts inner := by
  constructor
  · intro h
    cases h with
    | own hown' => exact absurd (hown'.symm.trans hown) (by decide)
    | @project t' inner _ _ hread' hinner hcounts =>
      obtain rfl := Except.ok.inj (hread.symm.trans hread')
      exact ⟨rfl, inner, hinner, hcounts⟩
  · rintro ⟨rfl, inner, hinner, hcounts⟩
    exact .project hown hfile hread hinner hcounts

end Offers

variable {tree : Tree}

theorem projectTable_ne_nil_iff (t : Table) :
    projectTable t ≠ [] ↔ ∃ inner, toolTable? t = some inner ∧ HasEntries inner := by
  rw [projectTable_eq]
  cases toolTable? t <;> simp [HasEntries]

/-- **What is found in a directory** is the file that holds its settings. -/
theorem settingsIn?_eq {d : Path} (h : tree.HasReadableProject d) :
    ∃ found, tree.settingsIn? d = .ok found ∧
      ∀ file, found = some file ↔ tree.Offers HasEntries d file := by
  have heq : tree.settingsIn? d = if tree.isFile d.settingsFile then .ok (some d.settingsFile)
      else if tree.isFile d.projectFile then (tree.settingsTable? d.projectFile).map fun table =>
        if (projectTable table).isEmpty then none else some d.projectFile
      else .ok none := rfl
  rw [heq]
  by_cases hown : tree.isFile d.settingsFile = true
  · have hoffers : tree.Offers HasEntries d d.settingsFile := .own hown
    rw [if_pos hown]
    refine ⟨_, rfl, fun file => ⟨fun hfile => Option.some.inj hfile ▸ hoffers, fun hfile => ?_⟩⟩
    exact congrArg some (hoffers.unique hfile)
  · rw [if_neg hown]
    by_cases hproject : tree.isFile d.projectFile = true
    · obtain ⟨t, ht⟩ := h hproject
      rw [if_pos hproject, ht]
      refine ⟨_, rfl, fun file => ?_⟩
      rw [Offers.iff_of_project (Bool.eq_false_iff.2 hown) hproject ht,
        ← projectTable_ne_nil_iff]
      change (if (projectTable t).isEmpty then none else some d.projectFile) = some file ↔ _
      by_cases hempty : projectTable t = []
      · rw [if_pos (List.isEmpty_iff.2 hempty)]
        exact iff_of_false (fun h => nomatch h) fun h => h.2 hempty
      · rw [if_neg (mt List.isEmpty_iff.1 hempty), Option.some_inj, eq_comm,
          and_iff_left hempty]
    · rw [if_neg hproject]
      refine ⟨_, rfl, fun file => ⟨fun hfile => (nomatch hfile), fun hfile => ?_⟩⟩
      cases hfile with
      | own hown' => exact absurd hown' hown
      | project _ hfile => exact absurd hfile hproject

open Classical in
/-- **What is found in a list of directories** is the file of the first one that has settings. -/
theorem firstSettings?_eq {directories : List Path}
    (h : ∀ d ∈ directories, tree.HasReadableProject d) :
    ∃ found, tree.firstSettings? directories = .ok found ∧ ∀ file, found = some file ↔
      ∃ d, directories.find? (fun d => decide (∃ file, tree.Offers HasEntries d file)) = some d ∧
        tree.Offers HasEntries d file := by
  induction directories with
  | nil => exact ⟨none, rfl, fun file => ⟨fun h => (nomatch h), fun ⟨_, h, _⟩ => (nomatch h)⟩⟩
  | cons d rest ih =>
    rw [List.forall_mem_cons] at h
    obtain ⟨found, hfound, hoffers⟩ := settingsIn?_eq h.1
    cases found with
    | none =>
      obtain ⟨foundLater, hlater, hoffersLater⟩ := ih h.2
      have hnothing : ¬ ∃ file, tree.Offers HasEntries d file :=
        fun ⟨file, hfile⟩ => nomatch (hoffers file).2 hfile
      refine ⟨foundLater, by rw [firstSettings?, hfound, hlater], fun file => ?_⟩
      rw [hoffersLater, List.find?_cons_of_neg (by simpa using hnothing)]
    | some file =>
      have hfile : tree.Offers HasEntries d file := (hoffers file).1 rfl
      refine ⟨some file, by rw [firstSettings?, hfound], fun file' => ?_⟩
      rw [List.find?_cons_of_pos (by simpa using ⟨file, hfile⟩)]
      constructor
      · intro heq
        obtain rfl := Option.some.inj heq
        exact ⟨d, rfl, hfile⟩
      · rintro ⟨d', hd', hfile'⟩
        obtain rfl := Option.some.inj hd'
        exact congrArg some (hfile.unique hfile')

/-! ## Upwards from a place -/

/-- The directory from which the search for settings starts. -/
def startOf (tree : Tree) (start : Path) : Path :=
  if tree.isDirectory start then start else start.parent

theorem discover?_eq {start : Path}
    (h : ∀ d : Path, d.IsAbove (tree.startOf start) → tree.HasReadableProject d) :
    ∃ found, tree.discover? start = .ok found ∧
      ∀ file, found = some file ↔ tree.OffersNearest HasEntries (tree.startOf start) file := by
  classical
  have hreadable : ∀ d ∈ (tree.startOf start).upwards, tree.HasReadableProject d :=
    fun d hd => h d (Path.mem_upwards_iff.1 hd)
  obtain ⟨found, hfound, hfile⟩ := firstSettings?_eq hreadable
  refine ⟨found, hfound, fun file => ?_⟩
  simp only [hfile, Path.find?_upwards_eq_some_iff, decide_eq_true_eq, OffersNearest]

/-- A directory at or above a place has settings exactly if there is a file of a nearest one. -/
theorem exists_offersNearest_iff {counts : Table → Prop} {place : Path} :
    (∃ file, tree.OffersNearest counts place file) ↔
      ∃ d : Path, d.IsAbove place ∧ ∃ file, tree.Offers counts d file := by
  constructor
  · rintro ⟨file, d, hnearest, hfile⟩
    exact ⟨d, hnearest.isAbove, file, hfile⟩
  · rintro ⟨d, hd, hoffers⟩
    obtain ⟨e, hnearest⟩ := Path.exists_isNearest
      (P := fun d => ∃ file, tree.Offers counts d file) hd hoffers
    obtain ⟨file, hfile⟩ := hnearest.holds
    exact ⟨file, e, hnearest, hfile⟩

/-- Both rules find the same file exactly if the nearest directory with a table of settings, be it
empty, has settings even if empty tables count as none. -/
theorem offersNearest_congr_iff {place : Path} :
    (∀ file, tree.OffersNearest HasEntries place file ↔
        tree.OffersNearest IsPresent place file) ↔
      ∀ d, Path.IsNearest (fun d => ∃ file, tree.Offers IsPresent d file) place d →
        ∃ file, tree.Offers HasEntries d file := by
  have hmono : ∀ {d file : Path}, tree.Offers HasEntries d file → tree.Offers IsPresent d file :=
    fun h => h.mono fun _ _ => trivial
  constructor
  · intro hsame d hnearest
    obtain ⟨file, hfile⟩ := hnearest.holds
    obtain ⟨e, -, hfile'⟩ := (hsame file).2 ⟨d, hnearest, hfile⟩
    obtain rfl : e = d := hfile'.parent.symm.trans hfile.parent
    exact ⟨file, hfile'⟩
  · intro hcounts file
    constructor
    · rintro ⟨d, hnearest, hfile⟩
      obtain ⟨e, hnearest'⟩ := Path.exists_isNearest
        (P := fun d => ∃ file, tree.Offers IsPresent d file) hnearest.isAbove ⟨file, hmono hfile⟩
      have habove : e.IsAbove d := hnearest.nearest e hnearest'.isAbove (hcounts e hnearest')
      obtain rfl : e = d :=
        habove.antisymm (hnearest'.nearest d hnearest.isAbove ⟨file, hmono hfile⟩)
      exact ⟨e, hnearest', hmono hfile⟩
    · rintro ⟨d, hnearest, hfile⟩
      obtain ⟨file', hfile'⟩ := hcounts d hnearest
      obtain rfl : file' = file := hfile'.unique hfile
      exact ⟨d, ⟨hnearest.isAbove, ⟨file', hfile'⟩, fun e he ⟨f, hf⟩ =>
        hnearest.nearest e he ⟨f, hmono hf⟩⟩, hfile'⟩

/-- **A project file gives no draft** exactly if it has no table of settings, or an empty one. -/
theorem draft?_eq_none_iff {path : Path} (hname : path.name = projectFile) {t : Table}
    (h : tree.settingsTable? path = .ok t) :
    tree.draft? path = .ok none ↔ toolTable? t = none ∨ toolTable? t = some [] := by
  rw [← projectTable_eq_nil_iff, draft?, h]
  dsimp only [bind, Except.bind]
  rw [if_pos hname]
  cases projectTable t with
  | nil => exact iff_of_true rfl rfl
  | cons entry rest =>
    refine iff_of_false (fun hnone => ?_) (List.cons_ne_nil entry rest)
    dsimp only at hnone
    cases hload : Draft.load (entry :: rest) <;> rw [hload] at hnone <;> cases hnone

/-- **The settings file that is found** is that of the nearest directory at or above the start that
has a settings file or a project file with entries in its table of settings. It is the one that is
found if every such table counts exactly if the nearest directory with a settings file or with such
a table has settings even if empty tables count as none. A project file gives no draft exactly if it
has no such table or an empty one. -/
theorem discover_nearest (tree : Tree) :
    (∀ start, (∀ d : Path, d.IsAbove (tree.startOf start) → tree.HasReadableProject d) →
      ∃ found, tree.discover? start = .ok found ∧
        (∀ file, found = some file ↔ tree.OffersNearest HasEntries (tree.startOf start) file) ∧
        (found = none ↔ ∀ d : Path, d.IsAbove (tree.startOf start) →
          ∀ file, ¬ tree.Offers HasEntries d file) ∧
        ((∀ file, found = some file ↔ tree.OffersNearest IsPresent (tree.startOf start) file) ↔
          ∀ d, Path.IsNearest (fun d => ∃ file, tree.Offers IsPresent d file)
            (tree.startOf start) d → ∃ file, tree.Offers HasEntries d file)) ∧
    ∀ path t, path.name = projectFile → tree.settingsTable? path = .ok t →
      (tree.draft? path = .ok none ↔ toolTable? t = none ∨ toolTable? t = some []) := by
  refine ⟨fun start hreadable => ?_, fun _ _ hname ht => draft?_eq_none_iff hname ht⟩
  obtain ⟨found, hfound, hfile⟩ := discover?_eq hreadable
  refine ⟨found, hfound, hfile, ?_, ?_⟩
  · rw [Option.eq_none_iff_forall_ne_some]
    simp only [ne_eq, hfile, ← not_exists]
    rw [exists_offersNearest_iff]
    simp only [not_exists, not_and]
  · simp only [hfile]
    exact offersNearest_congr_iff

/-- A project file without settings, above it one with settings, above that a settings file. -/
theorem discover_nearest_middle :
    let tree : Tree := ⟨Path.ofText "/a/b", [
      (["a", "b", "pyproject.toml"], .file (Text.utf8 "[project]\nname = \"x\"\n")),
      (["a", "pyproject.toml"], .file (Text.utf8 "[tool.spanmark.render]\ntab_width = 3\n")),
      (["spanmark.toml"], .file [])]⟩
    let start := Path.ofText "/a/b"
    tree.startOf start = start ∧
      (∀ d : Path, d.IsAbove start → tree.HasReadableProject d) ∧
      tree.discover? start = .ok (some (Path.ofText "/a/pyproject.toml")) ∧
      tree.OffersNearest HasEntries start (Path.ofText "/a/pyproject.toml") ∧
      start.projectFile.name = projectFile ∧ tree.draft? start.projectFile = .ok none := by
  intro tree start
  have hstart : tree.startOf start = start := by decide +kernel
  have hreadable : ∀ d : Path, d.IsAbove start → tree.HasReadableProject d := by
    have hall : ∀ d ∈ start.upwards, tree.isFile d.projectFile = true →
        (tree.settingsTable? d.projectFile).toOption.isSome = true := by decide +kernel
    intro d hd hfile
    obtain ⟨t, ht⟩ := Option.isSome_iff_exists.1 (hall d (Path.mem_upwards_iff.2 hd) hfile)
    exact ⟨t, eq_ok_of_toOption ht⟩
  have hdiscover : tree.discover? start = .ok (some (Path.ofText "/a/pyproject.toml")) :=
    eq_ok_of_toOption (by decide +kernel)
  have hname : start.projectFile.name = projectFile := by decide +kernel
  have htable : ((tree.settingsTable? start.projectFile).toOption.map toolTable?).map
      Option.isNone = some true := by decide +kernel
  rw [Option.map_map] at htable
  obtain ⟨t, ht, hnone⟩ := Option.map_eq_some_iff.1 htable
  obtain ⟨found, hfound, hfile, -⟩ := (discover_nearest tree).1 start (by rwa [hstart])
  have hfound : found = some (Path.ofText "/a/pyproject.toml") :=
    Except.ok.inj (hfound.symm.trans hdiscover)
  rw [hfile, hstart] at hfound
  refine ⟨hstart, hreadable, hdiscover, hfound, hname, ?_⟩
  exact ((discover_nearest tree).2 _ t hname (eq_ok_of_toOption ht)).2
    (.inl (Option.isNone_iff_eq_none.1 hnone))

/-- **A project file with an empty table of settings** is passed over, as if it had none. -/
theorem not_discover_empty :
    let tree : Tree :=
      ⟨Path.ofText "/", [(["pyproject.toml"], .file (Text.utf8 "[tool.spanmark]\n"))]⟩
    let place := Path.ofText "/"
    (∃ t, tree.settingsTable? place.projectFile = .ok t ∧ toolTable? t = some []) ∧
      tree.OffersNearest IsPresent place place.projectFile ∧
      tree.discover? place = .ok none ∧ tree.draft? place.projectFile = .ok none := by
  intro tree place
  have hread : ((tree.settingsTable? place.projectFile).toOption.bind toolTable?).map
      List.isEmpty = some true := by decide +kernel
  obtain ⟨inner, hinner, hempty⟩ := Option.map_eq_some_iff.1 hread
  obtain ⟨t, ht, htable⟩ := Option.bind_eq_some_iff.1 hinner
  have hdiscover : tree.discover? place = .ok none := eq_ok_of_toOption (by decide +kernel)
  have hoffers : tree.Offers IsPresent place place.projectFile :=
    .project (by decide +kernel) (by decide +kernel) (eq_ok_of_toOption ht) htable trivial
  rw [List.isEmpty_iff.1 hempty] at htable
  refine ⟨⟨t, eq_ok_of_toOption ht, htable⟩, ⟨place, ⟨.refl place, ⟨_, hoffers⟩, ?_⟩, hoffers⟩,
    hdiscover, (draft?_eq_none_iff (by decide +kernel) (eq_ok_of_toOption ht)).2 (.inr htable)⟩
  exact fun e he _ => he

end Tree

end SourceReport
