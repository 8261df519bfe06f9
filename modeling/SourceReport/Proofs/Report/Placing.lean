import SourceReport.Proofs.Report.PaintedMargin
import SourceReport.Proofs.Report.Registered

/-!
# Snippets laid out by look-ups

The offsets of a label are repaired one by one, and the lines of its ends are looked up. A look-up
that fails is a fault. So is one of the place that a snippet names.

* `Source.repair` is an offset in place of the one that a label stores, with the issue. An issue
  that cannot be told of is a fault as well.
* `Placement.lookUp` places a label, `Snippet.lookUpLocation` looks for the place that is named.
* `Snippet.layOut` lays out the snippet of a source, with its issues.

Results:
* `Placement.isBoundary_start`, `isBoundary_stop`: repaired offsets lie between two characters.
* `Placement.lookUp_eq`, `Snippet.lookUpLocation_eq`: every look-up finds its line or its place.
* `Snippet.layOut_eq`: every snippet is laid out without fault.
-/

namespace SourceReport

/-- A look-up whose failure is a fault. -/
def DrawFault.ofLookup {α : Type} (found : Except LookupError α) : Except DrawFault α :=
  found.mapError .lookup

/-- What is wrong with an offset, if an error can tell of it; else this is a fault. -/
def DrawFault.tell (cause : LookupError) : Except DrawFault LookupError :=
  match cause.built with
  | .digits limit => .error (.lookup (.digits limit))
  | e => .ok e

theorem DrawFault.tell_of_isWritable {cause : LookupError} (h : cause.IsWritable)
    (hcause : ∀ limit, cause ≠ .digits limit) : tell cause = .ok cause := by
  rw [tell, LookupError.built_of_isWritable h]
  cases cause with
  | digits limit => exact absurd rfl (hcause limit)
  | _ => rfl

/-- An offset of a label, moved to one that the source has, and what is wrong with it. -/
def Source.repair (s : Source) (offset : Nat) : Except DrawFault (Nat × Option LookupError) :=
  if s.length < offset then do
    return (s.length, some (← DrawFault.tell (.indexTooLarge offset s.length)))
  else if s.isBoundary offset then return (offset, none)
  else do return (s.floorBoundary offset, some (← DrawFault.tell (.insideCharacter offset)))

/-- **The repair of an offset** of a span is the last boundary before it, and its flaw the issue. -/
theorem Source.repair_eq (s : Source) {offset : Nat} (hmax : offset ≤ maxOffset) :
    s.repair offset = .ok (s.floorBoundary offset, s.flaw? offset) := by
  have hwritable := Text.isWritable_of_le_maxOffset hmax
  obtain ⟨hboundary, -, hgreatest⟩ := s.isBoundary_floorBoundary offset
  rw [flaw?_eq_fault? hmax]
  unfold repair fault?
  by_cases hpast : s.length < offset
  · have hpast' : (s.length : Int) < offset := Int.ofNat_lt.2 hpast
    have hend : s.floorBoundary offset = s.length := Nat.le_antisymm
      (le_length_of_isBoundary hboundary)
      (hgreatest s.length s.isBoundary_length (Nat.le_of_lt hpast))
    have htell : DrawFault.tell (.indexTooLarge offset s.length) =
        .ok (.indexTooLarge offset s.length) := DrawFault.tell_of_isWritable
      ⟨hwritable, isWritable_length_of_lt hpast' hwritable⟩ (by simp)
    rw [if_pos hpast, if_pos hpast', hend, htell]
    rfl
  · have hpast' : ¬ (s.length : Int) < offset := by omega
    rw [if_neg hpast, if_neg hpast']
    by_cases hinside : s.isBoundary offset = true
    · rw [if_pos hinside, if_pos hinside, floorBoundary_of_isBoundary hinside]
      rfl
    · have htell : DrawFault.tell (.insideCharacter offset) = .ok (.insideCharacter offset) :=
        DrawFault.tell_of_isWritable hwritable (by simp)
      rw [if_neg hinside, if_neg hinside, htell]
      rfl

namespace Placement

variable (s : Source) (index : Nat) (label : Label)

/-- Places a label in its source, with the issues of its repairs. -/
def lookUp : Except DrawFault (Placement × List Issue) := do
  let (start, startFlaw) ← s.repair label.span.start
  let (stop, stopFlaw) ← s.repair label.span.stop
  let stop := max stop start
  let (first, last) ← DrawFault.ofLookup (s.lineRange? start stop)
  let firstLine ← DrawFault.ofLookup (s.line? first)
  let lastLine ← DrawFault.ofLookup (s.line? last)
  let flaws := startFlaw.toList ++ stopFlaw.toList
  return (⟨index, label, start, stop, first, last, start - firstLine.offset,
    stop - lastLine.offset⟩, flaws.map fun e => ⟨label.file, some index, .offset e⟩)

/-- **A label starts** between two characters of its source. -/
theorem isBoundary_start : s.isBoundary (ofLabel s index label).start = true :=
  (s.isBoundary_floorBoundary label.span.start).1

/-- **A label ends** between two characters of its source. -/
theorem isBoundary_stop : s.isBoundary (ofLabel s index label).stop = true := by
  rcases Nat.le_total (s.floorBoundary label.span.stop) (s.floorBoundary label.span.start) with
    hle | hle
  · have hstop : (ofLabel s index label).stop = s.floorBoundary label.span.start :=
      Nat.max_eq_right hle
    rw [hstop]
    exact (s.isBoundary_floorBoundary label.span.start).1
  · have hstop : (ofLabel s index label).stop = s.floorBoundary label.span.stop :=
      Nat.max_eq_left hle
    rw [hstop]
    exact (s.isBoundary_floorBoundary label.span.stop).1

end Placement

/-- What a report looks up in a source are offsets between two of its characters. -/
structure Diagnostic.LooksInside (d : Diagnostic) (file : SourceId) (s : Source) : Prop where
  starts : ∀ p ∈ d.placements file s, s.isBoundary p.start = true ∧ p.start ≤ s.length
  stops : ∀ p ∈ d.placements file s, s.isBoundary p.stop = true ∧ p.stop ≤ s.length
  location : ∀ l ∈ d.location, ∀ o ∈ l.offset,
    s.isBoundary (s.floorBoundary o) = true ∧ s.floorBoundary o ≤ s.length

/-- **Every look-up** is of an offset between two characters. -/
theorem Diagnostic.looksInside (d : Diagnostic) (file : SourceId) (s : Source) :
    d.LooksInside file s where
  starts p hp := by
    obtain ⟨index, label, rfl⟩ := exists_label_of_mem hp
    have hstart := Placement.isBoundary_start s index label
    exact ⟨hstart, Source.le_length_of_isBoundary hstart⟩
  stops p hp := by
    obtain ⟨index, label, rfl⟩ := exists_label_of_mem hp
    have hstop := Placement.isBoundary_stop s index label
    exact ⟨hstop, Source.le_length_of_isBoundary hstop⟩
  location l _ o _ := by
    have hboundary := (s.isBoundary_floorBoundary o.toNat).1
    exact ⟨hboundary, Source.le_length_of_isBoundary hboundary⟩

namespace Placement

variable (s : Source) (index : Nat) (label : Label)

/-- The line of an offset is found by its index. -/
theorem line?_index_lineFrom (o : Nat) : s.line? (s.lineFrom o).index = .ok (s.lineFrom o) :=
  Source.line?_eq_ok_iff.2 ⟨_, rfl, s.getElem?_index_lineFrom o⟩

/-- **The issues of a label** are the flaws of its start and of its end. -/
theorem issues_eq_map : issues s index label =
    ((s.flaw? label.span.start).toList ++ (s.flaw? label.span.stop).toList).map fun e =>
      ⟨label.file, some index, .offset e⟩ := by
  cases hstart : s.flaw? label.span.start <;> cases hstop : s.flaw? label.span.stop <;>
    simp [issues, hstart, hstop]

/-- **Every look-up of a label** finds its line. -/
theorem lookUp_eq : lookUp s index label = .ok (ofLabel s index label, issues s index label) := by
  have hrange := lineRange?_ofLabel s index label
  unfold lookUp
  rw [s.repair_eq label.span.start_le_max, s.repair_eq label.span.stop_le_max, issues_eq_map]
  unfold ofLabel at hrange ⊢
  dsimp only [bind, Except.bind] at hrange ⊢
  rw [hrange]
  dsimp only [DrawFault.ofLookup, Except.mapError]
  rw [line?_index_lineFrom, line?_index_lineFrom]
  rfl

end Placement

namespace Snippet

/-- Looks for the place that a snippet names. -/
def lookUpLocation (d : Diagnostic) (file : SourceId) (s : Source) (labels : List Placement) :
    Except DrawFault (Option Location) :=
  match d.location.filter (·.file = file) with
  | some ⟨_, some offset⟩ => some <$> DrawFault.ofLookup (s.location? (s.floorBoundary offset))
  | some ⟨_, none⟩ => return none
  | none =>
    match (labels.find? (·.label.emphasis = .primary)).or labels.head? with
    | some p => some <$> DrawFault.ofLookup (s.location? p.start)
    | none => return none

/-- Lays out the snippet of a source, with the issues of its labels. -/
def layOut (settings : Settings) (registry : Registry) (d : Diagnostic) (file : SourceId) :
    Except DrawFault (Snippet × List Issue) :=
  let labels := labelsOf d file
  match registry.source? file with
  | none =>
    let unplaced := labels.map fun (_, index) => ⟨file, some index, .unregistered⟩
    return (⟨file, registry.display file, none, [], none, [], []⟩,
      if labels.isEmpty then [⟨file, none, .unregistered⟩] else unplaced)
  | some s => do
    let placed ← labels.mapM fun (label, index) => Placement.lookUp s index label
    let labels := placed.map (·.1)
    let location ← lookUpLocation d file s labels
    let lines := visibleLines labels s.lineCount settings.linesBefore settings.linesAfter
    return (⟨file, registry.display file, some s, labels, location,
      .ofLines settings.gapThreshold lines, .assign labels⟩, placed.flatMap (·.2))

variable {settings : Settings} {registry : Registry} {d : Diagnostic} {file : SourceId} {s : Source}

/-- **The place that a snippet names** is found. -/
theorem lookUpLocation_eq {labels : List Placement}
    (hlabels : ∀ p ∈ labels, ∃ place, s.location? p.start = .ok place) :
    lookUpLocation d file s labels = .ok (locate d file s labels) := by
  unfold lookUpLocation locate
  cases d.location.filter (·.file = file) with
  | some l =>
    obtain ⟨_, offset⟩ := l
    cases offset with
    | some offset =>
      obtain ⟨place, hplace⟩ := s.exists_location?_floorBoundary offset
      dsimp only [Option.bind_some]
      rw [hplace]
      rfl
    | none => rfl
  | none =>
    dsimp only
    cases hfirst : (labels.find? (·.label.emphasis = .primary)).or labels.head? with
    | some p =>
      obtain ⟨place, hplace⟩ := hlabels p (mem_of_find?_or_head? hfirst)
      dsimp only [Option.bind_some]
      rw [hplace]
      rfl
    | none => rfl

/-- **Every snippet** is laid out without fault. -/
theorem layOut_eq (settings : Settings) (registry : Registry) (d : Diagnostic) (file : SourceId) :
    layOut settings registry d file =
      .ok (ofFile settings registry d file, issues registry d file) := by
  unfold layOut ofFile issues
  cases hs : registry.source? file with
  | none =>
    cases labelsOf d file with
    | nil => rfl
    | cons e labels => rfl
  | some s =>
    have hplaced : (labelsOf d file).mapM (fun (label, index) => Placement.lookUp s index label) =
        .ok ((labelsOf d file).map fun (label, index) =>
          (.ofLabel s index label, Placement.issues s index label)) :=
      mapM_eq_ok fun e _ => Placement.lookUp_eq s e.2 e.1
    have hmap : (((labelsOf d file).map fun e =>
        (Placement.ofLabel s e.2 e.1, Placement.issues s e.2 e.1)).map (·.1)) =
          d.placements file s := by
      rw [List.map_map]
      rfl
    dsimp only
    rw [hplaced]
    dsimp only [bind, Except.bind]
    rw [hmap, lookUpLocation_eq (d.findsAll settings hs).places, List.flatMap_map]
    rfl

end Snippet

end SourceReport
