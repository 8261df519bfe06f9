import Mathlib.Data.List.Basic
import SourceReport.Proofs.Layout.Order
import SourceReport.Proofs.Report.Snippet

/-!
# Repaired labels

The repair of a label moves the ends of its span to boundaries of its source. Its placement is the
same as before, but for the label itself (`Placement.repaired`). What a snippet shows is laid out by
the placements alone, so a snippet of repaired labels is laid out as that of the labels themselves.

* `Diagnostic.repaired` repairs every label whose source is there.

Results:
* `Placement.ofLabel_repaired`: the placement of a repaired label.
* `Lanes.assign_map`: repaired labels have the same lanes.
* `Snippet.ofFile_repaired`: the snippet of repaired labels.
* `Diagnostic.issues_repaired`: repaired labels have no issues, unless their source is missing.
-/

namespace SourceReport

/-! ## Repairs -/

/-- The span between the last boundaries at or before its ends. -/
def Span.repaired (s : Source) (span : Span) : Span where
  file := span.file
  start := s.floorBoundary span.start
  stop := s.floorBoundary span.stop
  start_le_stop := Source.floorBoundary_mono span.start_le_stop
  stop_le_max := Nat.le_trans (s.isBoundary_floorBoundary span.stop).2.1 span.stop_le_max

/-- A label whose span is repaired. -/
def Label.repaired (s : Source) (label : Label) : Label :=
  { label with span := label.span.repaired s }

/-- A label whose span is repaired, unless its source is missing. -/
def Label.repairedIn (registry : Registry) (label : Label) : Label :=
  match registry.source? label.file with
  | some s => label.repaired s
  | none => label

/-- A diagnostic whose labels are repaired where their sources are there. -/
def Diagnostic.repaired (registry : Registry) (d : Diagnostic) : Diagnostic :=
  { d with labels := d.labels.map (·.repairedIn registry) }

/-- A placement whose label is repaired. -/
def Placement.repaired (s : Source) (p : Placement) : Placement :=
  { p with label := p.label.repaired s }

namespace Placement

variable {s : Source} {p : Placement}

/-- **The placement of a repaired label** is that of the label. -/
theorem ofLabel_repaired (s : Source) (index : Nat) (label : Label) :
    ofLabel s index (label.repaired s) = (ofLabel s index label).repaired s := by
  have hstart := Source.floorBoundary_of_isBoundary
    (s.isBoundary_floorBoundary label.span.start).1
  have hstop := Source.floorBoundary_of_isBoundary (s.isBoundary_floorBoundary label.span.stop).1
  unfold ofLabel repaired Label.repaired Span.repaired
  dsimp only
  rw [hstart, hstop]

/-- The span of a repaired label is as long as its placement. -/
theorem length_span_repaired (s : Source) (index : Nat) (label : Label) :
    (label.repaired s).span.length = (ofLabel s index label).length := by
  have hle : s.floorBoundary label.span.start ≤ s.floorBoundary label.span.stop :=
    Source.floorBoundary_mono label.span.start_le_stop
  unfold ofLabel length
  dsimp only
  rw [Nat.max_eq_left hle]
  rfl

/-! ## Layout -/

theorem sortOn_map {key : Placement → List Int} {f : Placement → Placement} {ps : List Placement}
    (h : ∀ p ∈ ps, ∀ q ∈ ps, keyLe (key (f p)) (key (f q)) = keyLe (key p) (key q)) :
    sortOn key (ps.map f) = (sortOn key ps).map f := by
  unfold sortOn
  refine (List.map_mergeSort ?_).symm
  intro p hp q hq
  exact (h p hp q hq).symm

theorem messageOrder_map (s : Source) (ps : List Placement) :
    messageOrder (ps.map (·.repaired s)) = (messageOrder ps).map (·.repaired s) := by
  rw [messageOrder, List.filter_map]
  exact sortOn_map fun p _ q _ => rfl

theorem laneOrder_map (s : Source) (ps : List Placement) :
    laneOrder (ps.map (·.repaired s)) = (laneOrder ps).map (·.repaired s) := by
  rw [laneOrder, List.filter_map]
  exact sortOn_map fun p _ q _ => rfl

end Placement

namespace Lanes

/-- Lanes of labels that are repaired. -/
def repaired (s : Source) (lanes : Lanes) : Lanes := lanes.map fun e => (e.1.repaired s, e.2)

theorem fill_map (s : Source) (ends : List Nat) (ps : List Placement) :
    fill ends (ps.map (·.repaired s)) = (fill ends ps).repaired s := by
  induction ps generalizing ends with
  | nil => rfl
  | cons p ps ih =>
    rw [List.map_cons, fill, ih]
    rfl

/-- **Repaired labels have the same lanes.** -/
theorem assign_map (s : Source) (ps : List Placement) :
    assign (ps.map (·.repaired s)) = (assign ps).repaired s := by
  rw [assign, Placement.laneOrder_map, fill_map, assign]

theorem count_repaired (s : Source) (lanes : Lanes) : (lanes.repaired s).count = lanes.count :=
  List.foldl_map

end Lanes

theorem visibleLines_map (s : Source) (ps : List Placement) (lineCount : Nat)
    (before after : Int) : visibleLines (ps.map (·.repaired s)) lineCount before after =
      visibleLines ps lineCount before after := by
  unfold visibleLines
  refine List.filter_congr fun line _ => ?_
  rw [List.any_map]
  rfl

/-! ## Snippets -/

variable {settings : Settings} {registry : Registry} {d : Diagnostic} {file : SourceId} {s : Source}

theorem Label.file_repairedIn (registry : Registry) (label : Label) :
    (label.repairedIn registry).file = label.file := by
  unfold repairedIn
  split <;> rfl

theorem Label.repairedIn_of_source (hs : registry.source? file = some s) {label : Label}
    (hfile : label.file = file) : label.repairedIn registry = label.repaired s := by
  rw [repairedIn, hfile, hs]

theorem Diagnostic.files_repaired (registry : Registry) (d : Diagnostic) :
    (d.repaired registry).files = d.files := by
  unfold files repaired
  rw [List.map_map]
  congr 2
  exact List.map_congr_left fun label _ => Label.file_repairedIn registry label

namespace Snippet

theorem labelsOf_repaired (registry : Registry) (d : Diagnostic) (file : SourceId) :
    labelsOf (d.repaired registry) file =
      (labelsOf d file).map fun e => (e.1.repairedIn registry, e.2) := by
  unfold labelsOf Diagnostic.repaired
  rw [List.zipIdx_map, List.filter_map]
  refine congrArg (List.map _) (List.filter_congr fun e _ => ?_)
  exact congrArg (fun f => decide (f = file)) (Label.file_repairedIn registry e.1)

/-- A snippet with repaired labels. -/
def repaired (s : Source) (snippet : Snippet) : Snippet :=
  { snippet with
    labels := snippet.labels.map (·.repaired s)
    lanes := snippet.lanes.repaired s }

/-- Repaired labels stand where the labels stand. -/
theorem placements_repaired (hs : registry.source? file = some s) :
    (d.repaired registry).placements file s = (d.placements file s).map (·.repaired s) := by
  unfold Diagnostic.placements
  rw [labelsOf_repaired, List.map_map, List.map_map]
  refine List.map_congr_left fun e he => ?_
  have hlabel := Label.repairedIn_of_source hs (mem_labelsOf.1 he).2
  dsimp only [Function.comp_apply]
  rw [hlabel, Placement.ofLabel_repaired]

/-- The location named above a snippet does not change. -/
theorem locate_map (d : Diagnostic) (file : SourceId) (s : Source) (ps : List Placement) :
    locate (d.repaired registry) file s (ps.map (·.repaired s)) = locate d file s ps := by
  have hlocation : (d.repaired registry).location = d.location := rfl
  rw [locate, locate, hlocation]
  cases d.location.filter (·.file = file) with
  | some l => rfl
  | none =>
    dsimp only
    have hprimary : (ps.map (·.repaired s)).find? (·.label.emphasis = .primary) =
        (ps.find? (·.label.emphasis = .primary)).map (·.repaired s) := by
      rw [List.find?_map]
      rfl
    rw [hprimary, List.head?_map]
    cases ps.find? (·.label.emphasis = .primary) <;> cases ps.head? <;> rfl

/-- **The snippet of repaired labels** is laid out as that of the labels. -/
theorem ofFile_repaired (settings : Settings) (d : Diagnostic)
    (hs : registry.source? file = some s) :
    ofFile settings registry (d.repaired registry) file =
      (ofFile settings registry d file).repaired s := by
  have hplacements := placements_repaired (d := d) hs
  unfold Diagnostic.placements at hplacements
  simp only [ofFile, hs, hplacements, locate_map, visibleLines_map, Lanes.assign_map]
  rfl

/-- A snippet without its source shows no labels. -/
theorem ofFile_repaired_of_missing (settings : Settings) (d : Diagnostic)
    (hs : registry.source? file = none) :
    ofFile settings registry (d.repaired registry) file = ofFile settings registry d file := by
  simp only [ofFile, hs]

end Snippet

/-! ## Issues -/

theorem Source.flaw?_of_isBoundary {o : Nat} (h : s.isBoundary o = true) : s.flaw? o = none := by
  rw [flaw?, checkBoundary_of_isBoundary h]

/-- Nothing is wrong with the offsets of a repaired label. -/
theorem Placement.issues_repaired (s : Source) (index : Nat) (label : Label) :
    issues s index (label.repaired s) = [] := by
  have hstart := Source.flaw?_of_isBoundary (s.isBoundary_floorBoundary label.span.start).1
  have hstop := Source.flaw?_of_isBoundary (s.isBoundary_floorBoundary label.span.stop).1
  simp [issues, Label.repaired, Span.repaired, hstart, hstop]

theorem Snippet.issues_repaired (registry : Registry) (d : Diagnostic) (file : SourceId) :
    issues registry (d.repaired registry) file =
      (issues registry d file).filter (·.flaw = .unregistered) := by
  unfold issues
  dsimp only
  rw [labelsOf_repaired]
  cases hs : registry.source? file with
  | some s =>
    dsimp only
    have hrepaired : ∀ e ∈ (labelsOf d file).map fun e => (e.1.repairedIn registry, e.2),
        Placement.issues s e.2 e.1 = [] := by
      intro e he
      obtain ⟨⟨label, index⟩, hmem, rfl⟩ := List.mem_map.1 he
      dsimp only
      rw [Label.repairedIn_of_source hs (mem_labelsOf.1 hmem).2]
      exact Placement.issues_repaired s index label
    rw [List.flatMap_eq_nil_iff.2 hrepaired, eq_comm, List.filter_eq_nil_iff]
    intro issue hissue hflaw
    obtain ⟨e, -, hissue⟩ := List.mem_flatMap.1 hissue
    obtain ⟨offset, -, hissue⟩ := List.mem_filterMap.1 hissue
    obtain ⟨error, -, rfl⟩ := Option.map_eq_some_iff.1 hissue
    cases of_decide_eq_true hflaw
  | none =>
    dsimp only
    cases hlabels : labelsOf d file with
    | nil => rfl
    | cons e more =>
      have hall : ∀ issue ∈ (e :: more).map fun e : Label × Nat =>
            (⟨file, some e.2, .unregistered⟩ : Issue),
          decide (issue.flaw = .unregistered) = true := by
        intro issue hissue
        obtain ⟨e, -, rfl⟩ := List.mem_map.1 hissue
        rfl
      change ((e :: more).map fun e => (e.1.repairedIn registry, e.2)).map
        (fun e => (⟨file, some e.2, .unregistered⟩ : Issue)) = _
      rw [List.filter_eq_self.2 hall, List.map_map]
      rfl

/-- **Repaired labels have no issues**, unless their source is missing. -/
theorem Diagnostic.issues_repaired (registry : Registry) (d : Diagnostic) :
    (d.repaired registry).files.flatMap (Snippet.issues registry (d.repaired registry)) =
      (d.files.flatMap (Snippet.issues registry d)).filter (·.flaw = .unregistered) := by
  rw [files_repaired, List.filter_flatMap]
  exact List.flatMap_congr fun file _ => Snippet.issues_repaired registry d file

end SourceReport
