import SourceReport.Proofs.Report.Locator
import SourceReport.Proofs.Source.Boundary

/-!
# Issues and the offsets of a diagnostic

A diagnostic stores offsets: two for each label and perhaps one for its location. A report takes
another offset in place of one that its source does not have. Every repair of a label is an issue
and there are no other issues, but the repair of the location is none.

* `Diagnostic.labelOffsets` and `Diagnostic.locationOffsets` are the offsets that are stored,
  `StoredOffset.IsRepaired` says which of them a report replaces.
* `StoredOffset.fix?` is the issue that tells of this.

Results:
* `Source.fault?_eq_none_iff`: an offset has no fault exactly if no repair changes it.
* `Report.issues_perm`: the issues of a report are the repairs of its labels.
* `Report.issues_tell_fixes`: they are all repairs exactly if the location needs none.
-/

namespace SourceReport

namespace Source

variable {s : Source}

/-- What is wrong with any number that is taken for an offset, whether or not an error can name
it. -/
def fault? (s : Source) (offset : Int) : Option LookupError :=
  if (s.length : Int) < offset then some (.indexTooLarge offset s.length)
  else if s.isBoundary offset then none else some (.insideCharacter offset)

/-- An offset with a fault lies behind the end, or it is no boundary. -/
theorem fault?_eq_some {o : Int} {e : LookupError} (h : s.fault? o = some e) :
    (e = .indexTooLarge o s.length ∧ (s.length : Int) < o) ∨
      (e = .insideCharacter o ∧ o ≤ s.length ∧ s.isBoundary o = false) := by
  unfold fault? at h
  by_cases hpast : (s.length : Int) < o
  · refine Or.inl ⟨?_, hpast⟩
    simpa [hpast, eq_comm] using h
  · by_cases hboundary : s.isBoundary o = true
    · simp [hpast, hboundary] at h
    · refine Or.inr ⟨?_, Int.not_lt.1 hpast, Bool.eq_false_iff.2 hboundary⟩
      simpa [hpast, hboundary, eq_comm] using h

theorem fault?_of_isBoundary {o : Int} (h : s.isBoundary o = true) : s.fault? o = none := by
  rw [fault?, if_neg (Int.not_lt.2 (isBoundary_bounds h).2), if_pos h]

/-- **An offset has no fault** exactly if repairs leave it as it is. -/
theorem fault?_eq_none_iff {o : Int} : s.fault? o = none ↔ (s.floorBoundary o : Int) = o := by
  have hfloor : s.isBoundary (s.floorBoundary o) = true := by
    have hnat := (s.isBoundary_floorBoundary o.toNat).1
    rwa [floorBoundary, Int.toNat_natCast] at hnat
  constructor
  · intro hnone
    have hboundary : s.isBoundary o = true := by
      refine Decidable.byContradiction fun hnot => ?_
      by_cases hpast : (s.length : Int) < o
      · simp [fault?, hpast] at hnone
      · simp [fault?, hpast, hnot] at hnone
    obtain ⟨n, rfl⟩ := Int.eq_ofNat_of_zero_le (isBoundary_bounds hboundary).1
    exact congrArg Int.ofNat (floorBoundary_of_isBoundary hboundary)
  · intro heq
    rw [← heq]
    exact fault?_of_isBoundary hfloor

/-- **The offset of a span** is small enough for its fault to be told. -/
theorem flaw?_eq_fault? {o : Nat} (h : o ≤ maxOffset) : s.flaw? o = s.fault? o := by
  have hwritable := Text.isWritable_of_le_maxOffset h
  rcases s.checkBoundary_cases o with ⟨hboundary, hcase⟩ | ⟨hpast, -, hcase⟩ |
    ⟨hle, hboundary, hcase⟩
  · rw [flaw?, hcase, fault?_of_isBoundary hboundary]
  · have hbuilt : (LookupError.indexTooLarge o s.length).built = .indexTooLarge o s.length :=
      LookupError.built_of_isWritable ⟨hwritable, isWritable_length_of_lt hpast hwritable⟩
    rw [flaw?, hcase, hbuilt, fault?, if_pos hpast]
  · have hbuilt : (LookupError.insideCharacter o).built = .insideCharacter o :=
      LookupError.built_of_isWritable hwritable
    rw [flaw?, hcase, hbuilt, fault?, if_neg (Int.not_lt.2 hle), hboundary,
      if_neg Bool.false_ne_true]

end Source

/-! ## Stored offsets -/

/-- An offset that a diagnostic stores. -/
structure StoredOffset where
  file : SourceId
  /-- The label that it belongs to; none for the location. -/
  label : Option Nat
  value : Int

namespace StoredOffset

/-- A report takes another offset in place of this one. -/
def IsRepaired (registry : Registry) (o : StoredOffset) : Prop :=
  ∃ s, registry.source? o.file = some s ∧ (s.floorBoundary o.value : Int) ≠ o.value

/-- The issue of an offset that is repaired. -/
def fix? (registry : Registry) (o : StoredOffset) : Option Issue :=
  (registry.source? o.file).bind fun s =>
    (s.fault? o.value).map fun e => ⟨o.file, o.label, .offset e⟩

/-- There is an issue for exactly the offsets that are repaired. -/
theorem fix?_eq_none_iff {registry : Registry} {o : StoredOffset} :
    o.fix? registry = none ↔ ¬ o.IsRepaired registry := by
  unfold fix? IsRepaired
  cases registry.source? o.file with
  | none => simp
  | some s => simp [Source.fault?_eq_none_iff]

end StoredOffset

namespace Diagnostic

/-- The offsets of a label with an index. -/
def offsetsOf (e : Label × Nat) : List StoredOffset :=
  [⟨e.1.file, some e.2, e.1.span.start⟩, ⟨e.1.file, some e.2, e.1.span.stop⟩]

/-- The offsets of the labels. -/
def labelOffsets (d : Diagnostic) : List StoredOffset := d.labels.zipIdx.flatMap offsetsOf

/-- The offset of the location, if there is one. -/
def locationOffsets (d : Diagnostic) : List StoredOffset :=
  d.location.toList.flatMap fun l => l.offset.toList.map fun o => ⟨l.file, none, o⟩

/-- All offsets. -/
def offsets (d : Diagnostic) : List StoredOffset := d.labelOffsets ++ d.locationOffsets

end Diagnostic

/-! ## Issues -/

section Issues

variable {registry : Registry} {d : Diagnostic} {file : SourceId} {s : Source}

/-- The issues of a label are the repairs of its offsets. -/
theorem Placement.issues_eq {index : Nat} {label : Label}
    (hs : registry.source? label.file = some s) :
    issues s index label =
      (Diagnostic.offsetsOf (label, index)).filterMap (StoredOffset.fix? registry) := by
  have hfix : ∀ value : Nat, value ≤ maxOffset →
      StoredOffset.fix? registry ⟨label.file, some index, value⟩ =
        (s.flaw? value).map fun e => ⟨label.file, some index, .offset e⟩ := by
    intro value hmax
    rw [StoredOffset.fix?, hs, Source.flaw?_eq_fault? hmax]
    rfl
  have hstart := hfix _ label.span.start_le_max
  have hstop := hfix _ label.span.stop_le_max
  unfold issues Diagnostic.offsetsOf
  rw [List.filterMap_cons, List.filterMap_cons, List.filterMap_cons, List.filterMap_cons, hstart,
    hstop, List.filterMap_nil, List.filterMap_nil]

theorem Snippet.issues_eq (hs : registry.source? file = some s) :
    issues registry d file =
      ((labelsOf d file).flatMap Diagnostic.offsetsOf).filterMap (StoredOffset.fix? registry) := by
  rw [List.filterMap_flatMap]
  unfold issues
  rw [hs]
  refine List.flatMap_congr ?_
  rintro ⟨label, index⟩ he
  obtain rfl := (mem_labelsOf.1 he).2
  exact Placement.issues_eq hs

/-- A label stands between the boundaries that are taken in place of its offsets. -/
theorem Diagnostic.repaired_offsets {p : Placement} (h : p ∈ d.placements file s) :
    p.start = s.floorBoundary p.label.span.start ∧ p.stop = s.floorBoundary p.label.span.stop := by
  obtain ⟨index, label, rfl⟩ := exists_label_of_mem h
  exact ⟨rfl, Nat.max_eq_left (Source.floorBoundary_mono label.span.start_le_stop)⟩

end Issues

namespace Report

variable (settings : Settings) (registry : Registry) (d : Diagnostic)

/-- **The issues of a report** of registered sources are the repairs of its labels. -/
theorem issues_perm (hregistered : ∀ file ∈ d.files, ∃ s, registry.source? file = some s) :
    (ofDiagnostic settings registry d).issues.Perm
      (d.labelOffsets.filterMap (StoredOffset.fix? registry)) := by
  -- The issues come source by source, the offsets label by label: hence a permutation.
  have hissues : (ofDiagnostic settings registry d).issues =
      ((d.files.flatMap (Snippet.labelsOf d)).flatMap Diagnostic.offsetsOf).filterMap
        (StoredOffset.fix? registry) := by
    rw [List.flatMap_assoc, List.filterMap_flatMap]
    refine List.flatMap_congr fun file hfile => ?_
    obtain ⟨s, hs⟩ := hregistered file hfile
    exact Snippet.issues_eq hs
  rw [hissues]
  exact (d.flatMap_labelsOf_perm.flatMap_right Diagnostic.offsetsOf).filterMap _

/-- The issues are all repairs exactly if the location needs none. -/
theorem issues_perm_offsets_iff
    (hregistered : ∀ file ∈ d.files, ∃ s, registry.source? file = some s) :
    (ofDiagnostic settings registry d).issues.Perm
        (d.offsets.filterMap (StoredOffset.fix? registry)) ↔
      ∀ o ∈ d.locationOffsets, ¬ o.IsRepaired registry := by
  have hperm := issues_perm settings registry d hregistered
  have hlocation : d.locationOffsets.filterMap (StoredOffset.fix? registry) = [] ↔
      ∀ o ∈ d.locationOffsets, ¬ o.IsRepaired registry := by
    simp only [List.filterMap_eq_nil_iff, StoredOffset.fix?_eq_none_iff]
  rw [Diagnostic.offsets, List.filterMap_append, ← hlocation]
  constructor
  · intro hall
    have hlength := (hperm.symm.trans hall).length_eq
    rw [List.length_append] at hlength
    exact List.length_eq_zero_iff.1 (by omega)
  · intro hnil
    rwa [hnil, List.append_nil]

/-- The place named for the location is that of the boundary taken for its offset. -/
theorem exists_location_of_mem_locationOffsets
    (hregistered : ∀ file ∈ d.files, ∃ s, registry.source? file = some s) {o : StoredOffset}
    (ho : o ∈ d.locationOffsets) : ∃ s place, registry.source? o.file = some s ∧
      s.location? (s.floorBoundary o.value) = .ok place ∧
      (Snippet.ofFile settings registry d o.file).location = some place := by
  obtain ⟨l, hl, hoffset⟩ := List.mem_flatMap.1 ho
  obtain ⟨value, hvalue, rfl⟩ := List.mem_map.1 hoffset
  rw [Option.mem_toList] at hl hvalue
  have hfile : l.file ∈ d.files := by
    rw [Diagnostic.files, mem_distinct, List.mem_append, hl]
    exact Or.inl List.mem_cons_self
  obtain ⟨s, hs⟩ := hregistered l.file hfile
  obtain ⟨place, hlocation⟩ := s.exists_location?_floorBoundary value
  refine ⟨s, place, hs, hlocation, ?_⟩
  rw [Snippet.location_ofFile settings hs (Diagnostic.placeIn?_of_location hl), hvalue,
    Option.bind_some, hlocation]
  rfl

/-- **The issues of a report** of registered sources tell of every offset of a label that is
replaced, once, and of nothing else. They tell of every repair exactly if the location needs none:
the report shows the place of the boundary that is taken for its offset without an issue. -/
theorem issues_tell_fixes (hregistered : ∀ file ∈ d.files, registry.contains file = true) :
    (ofDiagnostic settings registry d).issues.Perm
      (d.labelOffsets.filterMap (StoredOffset.fix? registry)) ∧
    ((ofDiagnostic settings registry d).issues.Perm
        (d.offsets.filterMap (StoredOffset.fix? registry)) ↔
      ∀ o ∈ d.locationOffsets, ¬ o.IsRepaired registry) ∧
    (∀ o : StoredOffset, (o.fix? registry).isSome ↔ o.IsRepaired registry) ∧
    (∀ file s, registry.source? file = some s → ∀ p ∈ d.placements file s,
      p.start = s.floorBoundary p.label.span.start ∧
        p.stop = s.floorBoundary p.label.span.stop) ∧
    ∀ o ∈ d.locationOffsets, ∃ s place, registry.source? o.file = some s ∧
      s.location? (s.floorBoundary o.value) = .ok place ∧
      (Snippet.ofFile settings registry d o.file).location = some place := by
  have hsources : ∀ file ∈ d.files, ∃ s, registry.source? file = some s := fun file hfile =>
    registry.contains_iff.1 (hregistered file hfile)
  refine ⟨issues_perm settings registry d hsources,
    issues_perm_offsets_iff settings registry d hsources, fun o => ?_,
    fun file s _ p hp => Diagnostic.repaired_offsets hp,
    fun o ho => exists_location_of_mem_locationOffsets settings registry d hsources ho⟩
  rw [Option.isSome_iff_ne_none, Ne, StoredOffset.fix?_eq_none_iff, not_not]

/-- A label goes on behind the end of a text of three bytes. The report has one issue for it. -/
theorem issues_tell_fixes_label :
    let s : Source := ⟨.snippet "a", "abc", by decide, ⟨1⟩, false⟩
    let registry : Registry := ⟨[⟨s, s.name, none⟩]⟩
    let past : Label := { span := ⟨⟨1⟩, 1, 9, by decide, by decide⟩ }
    let d : Diagnostic := { level := .error, labels := [past], location := some ⟨⟨1⟩, some 2⟩ }
    (ofDiagnostic {} registry d).issues = [⟨⟨1⟩, some 0, .offset (.indexTooLarge 9 3)⟩] := by
  intro s registry past d
  have hissue : d.labelOffsets.filterMap (StoredOffset.fix? registry) =
      [⟨⟨1⟩, some 0, .offset (.indexTooLarge 9 3)⟩] := by decide +kernel
  obtain ⟨hperm, -⟩ := issues_tell_fixes {} registry d (by decide)
  rw [hissue] at hperm
  exact List.perm_singleton.1 hperm

/-- **A repair of the location** is no issue. The location lies behind the end of a text of three
bytes, and the report names the place behind its last character. -/
theorem not_issues_tell_fixes : ¬ ∀ (settings : Settings) (registry : Registry) (d : Diagnostic),
    (∀ file ∈ d.files, registry.contains file = true) →
    (ofDiagnostic settings registry d).issues.Perm
      (d.offsets.filterMap (StoredOffset.fix? registry)) := by
  intro hall
  let s : Source := ⟨.snippet "a", "abc", by decide, ⟨1⟩, false⟩
  let registry : Registry := ⟨[⟨s, s.name, none⟩]⟩
  let d : Diagnostic := { level := .error, location := some ⟨⟨1⟩, some 9⟩ }
  have hfixes : d.offsets.filterMap (StoredOffset.fix? registry) =
      [⟨⟨1⟩, none, .offset (.indexTooLarge 9 3)⟩] := by decide +kernel
  have hissues : (ofDiagnostic {} registry d).issues = [] := by decide +kernel
  have hperm := hall {} registry d (by decide)
  rw [hfixes, hissues] at hperm
  exact List.not_perm_nil_cons _ _ hperm

end Report

end SourceReport
