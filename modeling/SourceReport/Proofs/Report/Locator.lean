import SourceReport.Proofs.Report.Labels
import SourceReport.Proofs.Source.Location

/-!
# The place that a report names first

A diagnostic is about its location; without one it is about its first primary label, or its first
label if none is primary. A report names one place in each of its sources, and the first of them
is in the source of the location or, without one, in that of the first label. This is the place
that the diagnostic is about unless its first primary label stands in another source than its first
label.

* `Diagnostic.primary?` is the place that a diagnostic is about, `Diagnostic.placeIn?` the one that
  is named in a source, and `Diagnostic.leading?` the one that is named first.
* `Locator.IsNamed` says which text names a place, `Report.Leads` where a report names it.

Results:
* `distinct_cons`, `pairwise_distinct`: sources are listed in the order of their first appearance.
* `Snippet.isNamed_locatorText`: every source is shown with the place named in it.
* `Diagnostic.leading?_eq_primary?_iff`: when the first place is what the diagnostic is about.
* `Report.leads_with_leading`: every report names that place first and the other sources in order.
-/

namespace SourceReport

/-! ## Elements in the order of their first appearance -/

section Distinct

variable {α : Type} [DecidableEq α]

theorem foldl_distinct (xs seen : List α) :
    xs.foldl (fun seen x => if x ∈ seen then seen else seen ++ [x]) seen =
      seen ++ (distinct xs).filter (· ∉ seen) := by
  induction xs generalizing seen with
  | nil => simp [distinct]
  | cons x xs ih =>
    have hdistinct : distinct (x :: xs) = x :: (distinct xs).filter (· ∉ [x]) := by
      rw [distinct, List.foldl_cons, if_neg List.not_mem_nil, ih]
      rfl
    rw [List.foldl_cons, ih, hdistinct]
    by_cases hx : x ∈ seen
    · rw [if_pos hx, List.filter_cons_of_neg (by simpa using hx), List.filter_filter]
      refine congrArg (seen ++ ·) (List.filter_congr fun y _ => ?_)
      by_cases hy : y = x
      · simp [hy, hx]
      · simp [hy]
    · rw [if_neg hx, List.filter_cons_of_pos (by simpa using hx), List.filter_filter,
        List.append_assoc]
      refine congrArg (seen ++ ·) (congrArg (x :: ·) (List.filter_congr fun y _ => ?_))
      simp [not_or]

/-- The first element stays, and what follows it appears elsewhere no more. -/
theorem distinct_cons (x : α) (xs : List α) :
    distinct (x :: xs) = x :: (distinct xs).filter (· ≠ x) := by
  have h := foldl_distinct xs [x]
  rw [distinct, List.foldl_cons, if_neg List.not_mem_nil, List.nil_append, h]
  simp

/-- **Elements without repetitions** stand in the order of their first appearance. -/
theorem pairwise_distinct (xs : List α) :
    (distinct xs).Pairwise fun a b => xs.idxOf a < xs.idxOf b := by
  induction xs with
  | nil => exact List.Pairwise.nil
  | cons x xs ih =>
    have hne : ∀ a ∈ (distinct xs).filter (· ≠ x), (x :: xs).idxOf a = xs.idxOf a + 1 := by
      intro a ha
      have hax : a ≠ x := by simpa using (List.mem_filter.1 ha).2
      exact List.idxOf_cons_ne xs hax.symm
    rw [distinct_cons]
    refine List.pairwise_cons.2 ⟨fun a ha => ?_, ?_⟩
    · rw [hne a ha, List.idxOf_cons_self]
      exact Nat.succ_pos _
    · refine (ih.filter _).imp_of_mem fun {a b} ha hb hlt => ?_
      rw [hne a ha, hne b hb]
      exact Nat.succ_lt_succ hlt

end Distinct

/-! ## Places -/

/-- The label that a report of these labels is about: the first primary one, or the first one if
none is primary. -/
def Label.main? (labels : List Label) : Option Label :=
  (labels.find? (·.emphasis = .primary)).or labels.head?

/-- The place where a label starts. -/
def Label.place (l : Label) : Locator := ⟨l.file, some l.span.start⟩

namespace Diagnostic

/-- The place that a diagnostic is about. -/
def primary? (d : Diagnostic) : Option Locator :=
  d.location.or ((Label.main? d.labels).map (·.place))

/-- The place that is named in a source. -/
def placeIn? (d : Diagnostic) (file : SourceId) : Option Locator :=
  (d.location.filter (·.file = file)).or
    ((Label.main? (d.labels.filter (·.file = file))).map (·.place))

/-- The place that is named first. -/
def leading? (d : Diagnostic) : Option Locator :=
  d.location.or (d.labels.head?.bind fun first => d.placeIn? first.file)

/-- The sources of labels, one source excepted, in the order of their first appearance. -/
structure Follow (d : Diagnostic) (first : SourceId) (others : List SourceId) : Prop where
  mem_iff : ∀ file, file ∈ others ↔ file ≠ first ∧ ∃ label ∈ d.labels, label.file = file
  ordered : others.Pairwise fun a b =>
    (d.labels.map (·.file)).idxOf a < (d.labels.map (·.file)).idxOf b

end Diagnostic

/-- A text names a place: the source by the name that it is shown under, and the line and the column
of the offset after repairs, if there is an offset. -/
def Locator.IsNamed (registry : Registry) (l : Locator) (t : Text) : Prop :=
  match l.offset with
  | none => t = registry.display l.file
  | some offset => ∃ s place, registry.source? l.file = some s ∧
      s.location? (s.floorBoundary offset) = .ok place ∧
      t = registry.display l.file ++ ":" ++ place.display

/-- What is written of a row that names a place. -/
def locatorLine (width : Nat) (arrow t : Text) : Text :=
  (Text.spaces width ++ arrow ++ " " ++ t).trimEnd

/-- A report of a diagnostic names a place first. A rich report has a line with an arrow for it, and
further lines for the other sources in order; the other reports start with it. -/
def Report.Leads (r : Report) (settings : Settings) (registry : Registry) (d : Diagnostic)
    (place : Locator) (others : List SourceId) : Prop :=
  ∃ t, place.IsNamed registry t ∧
    match settings.detail with
    | .rich => ∃ width ts,
        List.Forall₂ (fun file t => ∃ place, d.placeIn? file = some place ∧
          place.IsNamed registry t) others ts ∧
        (r.rows.filter (·.kind = .locator)).map Row.written =
          locatorLine width "-->" t :: ts.map (locatorLine width ":::")
    | .medium | .short => ∃ row below more, r.rows = row :: below ∧
        row.written = (t ++ ": " ++ d.title ++ more).trimEnd

/-! ## The label that a source is about -/

/-- What is found in a list, or else its first element, is one of its elements. -/
theorem mem_of_find?_or_head? {α : Type} {p : α → Bool} {xs : List α} {x : α}
    (h : (xs.find? p).or xs.head? = some x) : x ∈ xs := by
  rcases Option.or_eq_some_iff.1 h with hfind | ⟨-, hhead⟩
  · exact List.mem_of_find?_eq_some hfind
  · exact List.mem_of_mem_head? hhead

namespace Label

theorem main?_map {α : Type} (f : α → Label) (xs : List α) :
    main? (xs.map f) =
      ((xs.find? fun x => (f x).emphasis = .primary).or xs.head?).map f := by
  rw [main?, List.find?_map, List.head?_map, Option.map_or]
  rfl

theorem exists_main? {labels : List Label} (h : labels ≠ []) : ∃ l, main? labels = some l := by
  obtain ⟨first, rest, rfl⟩ := List.exists_cons_of_ne_nil h
  unfold main?
  cases (first :: rest).find? (·.emphasis = .primary) with
  | some l => exact ⟨l, rfl⟩
  | none => exact ⟨first, rfl⟩

/-- The main label of all labels is also that of those in its source. -/
theorem main?_filter {labels : List Label} {l : Label} (h : main? labels = some l)
    {p : Label → Bool} (hp : p l = true) (hfirst : ∀ first ∈ labels.head?, p first = true) :
    main? (labels.filter p) = some l := by
  unfold main? at h ⊢
  cases hfind : labels.find? (·.emphasis = .primary) with
  | some m =>
    rw [hfind, Option.some_or, Option.some.injEq] at h
    subst h
    obtain ⟨hm, before, after, rfl, hbefore⟩ := List.find?_eq_some_iff_append.1 hfind
    have hfind' : ((before ++ m :: after).filter p).find? (·.emphasis = .primary) = some m := by
      refine List.find?_eq_some_iff_append.2 ⟨hm, before.filter p, after.filter p, ?_, ?_⟩
      · rw [List.filter_append, List.filter_cons_of_pos hp]
      · exact fun a ha => hbefore a (List.mem_filter.1 ha).1
    rw [hfind', Option.some_or]
  | none =>
    rw [hfind, Option.none_or] at h
    have hnone : (labels.filter p).find? (·.emphasis = .primary) = none := by
      rw [List.find?_eq_none] at hfind ⊢
      exact fun a ha => hfind a (List.mem_filter.1 ha).1
    rw [hnone, Option.none_or]
    cases labels with
    | nil => cases h
    | cons first labels =>
      rw [List.filter_cons_of_pos (hfirst first rfl), List.head?_cons, ← h, List.head?_cons]

end Label

/-- A text that starts with no blank keeps its first character when it is trimmed. -/
theorem Text.head?_trimEnd {t : Text} {c : CodePoint} (hc : c.isBlank = false)
    (h : t.head? = some c) : t.trimEnd.head? = some c := by
  obtain ⟨rest, rfl⟩ := List.head?_eq_some_iff.1 h
  unfold trimEnd
  cases Text.trimEnd rest with
  | nil => simp [hc]
  | cons d kept => rfl

theorem Registry.contains_iff (registry : Registry) {file : SourceId} :
    registry.contains file = true ↔ ∃ s, registry.source? file = some s := by
  unfold contains source?
  cases registry.find? file <;> simp

namespace Diagnostic

variable {d : Diagnostic} {file : SourceId}

/-- A diagnostic with a location or a label refers to a source. -/
theorem files_ne_nil (d : Diagnostic) (h : d.location ≠ none ∨ d.labels ≠ []) : d.files ≠ [] := by
  intro hnil
  have hnone : ∀ file, file ∉ d.location.map (·.file) ∧ file ∉ d.labels.map (·.file) := by
    intro file
    have hmem : file ∉ d.files := hnil ▸ List.not_mem_nil
    rw [files, mem_distinct, List.mem_append, Option.mem_toList, not_or] at hmem
    exact hmem
  rcases h with hlocation | hlabels
  · obtain ⟨l, hl⟩ := Option.ne_none_iff_exists'.1 hlocation
    exact (hnone l.file).1 (by rw [hl]; rfl)
  · obtain ⟨l, rest, hl⟩ := List.exists_cons_of_ne_nil hlabels
    exact (hnone l.file).2 (by rw [hl]; exact List.mem_cons_self)

/-- A place that is named in a source lies in it. -/
theorem file_of_placeIn? {place : Locator} (h : d.placeIn? file = some place) :
    place.file = file := by
  rcases Option.or_eq_some_iff.1 h with hlocation | ⟨-, hlabel⟩
  · simpa using (Option.filter_eq_some_iff.1 hlocation).2
  · obtain ⟨l, hl, rfl⟩ := Option.map_eq_some_iff.1 hlabel
    exact of_decide_eq_true (List.mem_filter.1 (mem_of_find?_or_head? hl)).2

/-- In the source of the location it is the location that is named. -/
theorem placeIn?_of_location {l : Locator} (h : d.location = some l) :
    d.placeIn? l.file = some l := by
  rw [placeIn?, h, Option.filter_some_pos (by simp), Option.some_or]

/-- In every source of a diagnostic a place is named. -/
theorem exists_placeIn? (h : file ∈ d.files) : ∃ place, d.placeIn? file = some place := by
  rw [files, mem_distinct, List.mem_append, List.mem_map, Option.mem_toList] at h
  rcases h with hlocation | ⟨label, hlabel, rfl⟩
  · obtain ⟨l, hl, rfl⟩ := Option.map_eq_some_iff.1 hlocation
    exact ⟨l, placeIn?_of_location hl⟩
  · unfold placeIn?
    cases d.location.filter (·.file = label.file) with
    | some l => exact ⟨l, rfl⟩
    | none =>
      have hmem : label ∈ d.labels.filter (·.file = label.file) :=
        List.mem_filter.2 ⟨hlabel, decide_eq_true rfl⟩
      obtain ⟨l, hl⟩ := Label.exists_main? (List.ne_nil_of_mem hmem)
      exact ⟨l.place, by rw [hl]; rfl⟩

/-- The first place is that of the first source. -/
theorem leading?_eq (d : Diagnostic) : d.leading? = d.files.head?.bind d.placeIn? := by
  unfold leading? files
  cases hlocation : d.location with
  | some l =>
    have hplace : d.placeIn? l.file = some l := placeIn?_of_location hlocation
    rw [Option.map_some, Option.toList_some, List.singleton_append, distinct_cons]
    exact hplace.symm
  | none =>
    cases d.labels with
    | nil => rfl
    | cons first labels =>
      rw [Option.map_none, Option.toList_none, List.nil_append, List.map_cons, distinct_cons]
      rfl

/-- The sources behind the first one follow in order. -/
theorem follow_of_files_eq {others : List SourceId} (h : d.files = file :: others) :
    d.Follow file others := by
  have hrest : others = (distinct (d.labels.map (·.file))).filter (· ≠ file) := by
    unfold files at h
    cases hlocation : d.location with
    | some l =>
      rw [hlocation, Option.map_some, Option.toList_some, List.singleton_append, distinct_cons,
        List.cons.injEq] at h
      rw [← h.2, h.1]
    | none =>
      rw [hlocation, Option.map_none, Option.toList_none, List.nil_append] at h
      have hnodup := nodup_distinct (d.labels.map (·.file))
      rw [h] at hnodup ⊢
      rw [List.filter_cons_of_neg (by simp), eq_comm, List.filter_eq_self]
      intro other hother
      exact decide_eq_true fun heq => (List.nodup_cons.1 hnodup).1 (heq ▸ hother)
  subst hrest
  refine ⟨fun other => ?_, (pairwise_distinct _).filter _⟩
  rw [List.mem_filter, mem_distinct, List.mem_map, decide_eq_true_eq, and_comm]

/-- **The first place is what the diagnostic is about** unless its first primary label stands in
another source than its first label. -/
theorem leading?_eq_primary?_iff (d : Diagnostic) : d.leading? = d.primary? ↔
    (d.location = none → ∀ l ∈ Label.main? d.labels, ∀ first ∈ d.labels.head?,
      l.file = first.file) := by
  unfold leading? primary?
  cases hlocation : d.location with
  | some l => simp
  | none =>
    rw [Option.none_or, Option.none_or]
    cases hlabels : d.labels with
    | nil => simp [Label.main?]
    | cons first labels =>
      have hplace : d.placeIn? first.file =
          (Label.main? ((first :: labels).filter (·.file = first.file))).map (·.place) := by
        rw [placeIn?, hlocation, hlabels, Option.filter_none, Option.none_or]
      have hhead : (first :: labels).head?.bind (fun first => d.placeIn? first.file) =
          d.placeIn? first.file := rfl
      rw [hhead]
      constructor
      · intro heq _ l hl other hother
        obtain rfl := Option.some.inj hother
        rw [Option.mem_def] at hl
        rw [hl] at heq
        exact file_of_placeIn? heq
      · intro hfile
        obtain ⟨l, hl⟩ := Label.exists_main? (List.cons_ne_nil first labels)
        have hfirst : ∀ other ∈ (first :: labels).head?,
            decide (other.file = first.file) = true := by
          intro other hother
          obtain rfl := Option.some.inj hother
          exact decide_eq_true rfl
        rw [hplace, hl, Label.main?_filter hl (decide_eq_true (hfile rfl l hl first rfl)) hfirst]

end Diagnostic

/-! ## The place named in a source -/

section Places

variable {settings : Settings} {registry : Registry} {d : Diagnostic} {file : SourceId} {s : Source}

theorem Diagnostic.map_label_placements (d : Diagnostic) (file : SourceId) (s : Source) :
    (d.placements file s).map (·.label) = d.labels.filter (·.file = file) := by
  have hlabels : (Snippet.labelsOf d file).map Prod.fst = d.labels.filter (·.file = file) := by
    have hfilter := List.filter_map (f := Prod.fst) (p := fun l : Label => l.file = file)
      (l := d.labels.zipIdx)
    rw [List.zipIdx_map_fst] at hfilter
    exact hfilter.symm
  rw [← hlabels, placements, List.map_map]
  rfl

/-- The location of a snippet is that of the place named in its source. -/
theorem Snippet.locate_eq {place : Locator} (h : d.placeIn? file = some place) :
    locate d file s (d.placements file s) =
      place.offset.bind fun offset => (s.location? (s.floorBoundary offset)).toOption := by
  unfold locate
  cases hexplicit : d.location.filter (·.file = file) with
  | some l =>
    rw [Diagnostic.placeIn?, hexplicit, Option.some_or, Option.some.injEq] at h
    rw [h]
  | none =>
    rw [Diagnostic.placeIn?, hexplicit, Option.none_or, ← d.map_label_placements file s,
      Label.main?_map, Option.map_map] at h
    obtain ⟨p, hp, rfl⟩ := Option.map_eq_some_iff.1 h
    obtain ⟨index, label, rfl⟩ := Diagnostic.exists_label_of_mem (mem_of_find?_or_head? hp)
    dsimp only
    rw [hp]
    rfl

theorem Snippet.location_ofFile (settings : Settings) (hs : registry.source? file = some s)
    {place : Locator} (h : d.placeIn? file = some place) :
    (ofFile settings registry d file).location =
      place.offset.bind fun offset => (s.location? (s.floorBoundary offset)).toOption := by
  rw [← locate_eq h]
  simp only [ofFile, hs]
  rfl

/-- **Every source that is there** is shown with the place named in it. -/
theorem Snippet.isNamed_locatorText (settings : Settings) (hs : registry.source? file = some s)
    {place : Locator} (h : d.placeIn? file = some place) :
    place.IsNamed registry (ofFile settings registry d file).locatorText := by
  have hname : (ofFile settings registry d file).name = registry.display file := by
    simp only [ofFile, hs]
  obtain rfl := Diagnostic.file_of_placeIn? h
  rw [locatorText, location_ofFile settings hs h, hname]
  unfold Locator.IsNamed
  cases place.offset with
  | none => rfl
  | some offset =>
    obtain ⟨location, hplace⟩ := s.exists_location?_floorBoundary offset
    refine ⟨s, location, hs, hplace, ?_⟩
    rw [Option.bind_some, hplace]
    rfl

end Places

/-! ## Reports -/

namespace Report

variable {settings : Settings} {registry : Registry} {d : Diagnostic}

/-- What is written of the row that names a place. -/
theorem written_locatorRow (pen : Pen) (isFirst : Bool) (s : Snippet) :
    (locatorRow pen isFirst s).written =
      locatorLine pen.digits (if isFirst then "-->" else ":::") s.locatorText := by
  have harrow : (if isFirst then pen.glyphs.locator else pen.glyphs.locatorMore) =
      if isFirst then ("-->" : Text) else ":::" := by
    unfold Pen.glyphs
    cases pen.settings.charSet <;> rfl
  have hnil : runsText [] = [] := rfl
  rw [Row.written_eq]
  unfold locatorRow Row.lead locatorLine
  dsimp only
  rw [harrow]
  simp only [runsText_cons, hnil, List.map_nil, List.append_nil, List.append_assoc]

/-- The rows of a source that is there name no place. -/
theorem kind_of_mem_body {file : SourceId} {s : Source} (hs : registry.source? file = some s)
    {r : Row} (hr : r ∈ body settings registry d file) :
    r.kind = .border ∨ r.kind.isBody = true :=
  (Snippet.isLaidOut_ofFile settings d hs).kind_of_mem_bodyRows (Snippet.source_ofFile hs) hr

/-- **The places named in a rich report** are those of its sources. -/
theorem filter_locator_rows (hrich : settings.detail = .rich)
    (hregistered : ∀ file ∈ d.files, ∃ s, registry.source? file = some s) :
    (ofDiagnostic settings registry d).rows.filter (·.kind = .locator) =
      d.files.zipIdx.map fun e =>
        locatorRow (pen settings registry d) (e.2 = 0) (.ofFile settings registry d e.1) := by
  have hnone : ∀ rows : List Row, (∀ r ∈ rows, r.kind ≠ .locator) →
      rows.filter (·.kind = .locator) = [] := by
    intro rows hrows
    exact List.filter_eq_nil_iff.2 fun r hr => by simpa using hrows r hr
  have hheader : ∀ r ∈ headerRows settings.theme [] d, r.kind ≠ .locator := by
    intro r hr
    obtain ⟨part, hpart⟩ := exists_kind_headerRows hr
    rw [hpart]
    exact RowKind.noConfusion
  have hnotes : ∀ r ∈ noteRows (pen settings registry d) ((pen settings registry d).digits + 1)
      d.notes, r.kind ≠ .locator := by
    intro r hr
    obtain ⟨index, part, hpart⟩ := exists_kind_noteRows hr
    rw [hpart]
    exact RowKind.noConfusion
  have hpart : ∀ e ∈ d.files.zipIdx, (part settings registry d e).filter (·.kind = .locator) =
      [locatorRow (pen settings registry d) (e.2 = 0) (.ofFile settings registry d e.1)] := by
    intro e he
    obtain ⟨s, hs⟩ := hregistered e.1 (List.fst_mem_of_mem_zipIdx he)
    have hbody : ∀ r ∈ body settings registry d e.1, r.kind ≠ .locator := by
      intro r hr hkind
      rcases kind_of_mem_body hs hr with hk | hk <;> rw [hkind] at hk <;> cases hk
    rw [part, List.filter_cons_of_pos (by simp [locatorRow]), hnone _ hbody]
  rw [rows_ofDiagnostic settings hrich, List.filter_append, List.filter_append, hnone _ hheader,
    hnone _ hnotes, List.nil_append, List.append_nil, allRows_eq, List.filter_flatMap,
    List.flatMap_congr hpart]
  exact List.flatMap_pure_eq_map _ _

/-- A header behind a prefix starts with the prefix and the title. -/
theorem exists_headerRows_eq (theme : Theme) {lead : Text} (hlead : lead ≠ []) (d : Diagnostic) :
    ∃ row below more, headerRows theme lead d = row :: below ∧
      row.written = (lead ++ d.title ++ more).trimEnd := by
  obtain ⟨c, rest, rfl⟩ := List.exists_cons_of_ne_nil hlead
  unfold headerRows
  dsimp only
  split
  · refine ⟨_, [], [], rfl, ?_⟩
    rw [Row.written_eq]
    simp [Row.lead, runsText]
  · next part parts _ =>
    refine ⟨_, _, ": " ++ part, rfl, ?_⟩
    rw [Row.written_eq]
    simp [Row.lead, runsText]

/-- **The reports that are not rich** start with the place named in the first source. -/
theorem exists_rows_eq_of_brief (registry : Registry) (hbrief : settings.detail ≠ .rich)
    {file : SourceId} {others : List SourceId} (hfiles : d.files = file :: others) :
    ∃ row below more, (ofDiagnostic settings registry d).rows = row :: below ∧
      row.written = ((Snippet.ofFile settings registry d file).locatorText ++ ": " ++ d.title
        ++ more).trimEnd := by
  have hlead : lead (Snippet.ofDiagnostic settings registry d) =
      (Snippet.ofFile settings registry d file).locatorText ++ ": " := by
    rw [Snippet.ofDiagnostic, hfiles, List.map_cons]
    rfl
  have hne : (Snippet.ofFile settings registry d file).locatorText ++ (": " : Text) ≠ [] :=
    List.append_ne_nil_of_right_ne_nil _ (List.cons_ne_nil _ _)
  obtain ⟨row, below, more, hrows, hwritten⟩ := exists_headerRows_eq settings.theme hne d
  unfold ofDiagnostic briefRows
  dsimp only
  rw [hlead, hrows]
  cases hdetail : settings.detail with
  | rich => exact absurd hdetail hbrief
  | medium => exact ⟨row, _, more, rfl, hwritten⟩
  | short => exact ⟨row, _, more, rfl, hwritten⟩

/-- The rows that name places: that of the first source, then those of the others. -/
theorem map_written_locator_rows (hrich : settings.detail = .rich)
    (hregistered : ∀ file ∈ d.files, ∃ s, registry.source? file = some s) {file : SourceId}
    {others : List SourceId} (hfiles : d.files = file :: others) :
    ((ofDiagnostic settings registry d).rows.filter (·.kind = .locator)).map Row.written =
      locatorLine (pen settings registry d).digits "-->"
          (Snippet.ofFile settings registry d file).locatorText ::
        others.map fun other => locatorLine (pen settings registry d).digits ":::"
          (Snippet.ofFile settings registry d other).locatorText := by
  have hmore : ∀ e ∈ others.zipIdx 1, (locatorRow (pen settings registry d) (e.2 = 0)
        (.ofFile settings registry d e.1)).written =
      locatorLine (pen settings registry d).digits ":::"
        (Snippet.ofFile settings registry d e.1).locatorText := by
    intro e he
    have hpos : e.2 ≠ 0 := Nat.ne_of_gt (List.le_snd_of_mem_zipIdx he)
    rw [written_locatorRow, decide_eq_false hpos]
    rfl
  rw [filter_locator_rows hrich hregistered, hfiles, List.zipIdx_cons, List.map_cons,
    List.map_cons, written_locatorRow, List.map_map]
  refine congrArg₂ List.cons rfl ((List.map_congr_left hmore).trans ?_)
  conv_rhs => rw [← List.zipIdx_map_fst 1 others, List.map_map]
  rfl

/-- A report names the places of its sources in the order of these. -/
theorem leads_of_files_eq {file : SourceId} {others : List SourceId} {place : Locator}
    (hregistered : ∀ file ∈ d.files, ∃ s, registry.source? file = some s)
    (hfiles : d.files = file :: others) (hplace : d.placeIn? file = some place) :
    (ofDiagnostic settings registry d).Leads settings registry d place others := by
  have hnamed : ∀ file ∈ d.files, ∀ place, d.placeIn? file = some place →
      place.IsNamed registry (Snippet.ofFile settings registry d file).locatorText := by
    intro file hfile place hplace
    obtain ⟨s, hs⟩ := hregistered file hfile
    exact Snippet.isNamed_locatorText settings hs hplace
  have hmem : file ∈ d.files := hfiles ▸ List.mem_cons_self
  have hothers : ∀ other ∈ others, other ∈ d.files := fun other hother =>
    hfiles ▸ List.mem_cons_of_mem file hother
  refine ⟨(Snippet.ofFile settings registry d file).locatorText, hnamed file hmem place hplace, ?_⟩
  by_cases hrich : settings.detail = .rich
  · rw [hrich]
    refine ⟨(pen settings registry d).digits,
      others.map fun other => (Snippet.ofFile settings registry d other).locatorText, ?_, ?_⟩
    · rw [List.forall₂_map_right_iff, List.forall₂_same]
      intro other hother
      obtain ⟨place, hplace⟩ := Diagnostic.exists_placeIn? (hothers other hother)
      exact ⟨place, hplace, hnamed other (hothers other hother) place hplace⟩
    · rw [map_written_locator_rows hrich hregistered hfiles, List.map_map]
      rfl
  · obtain ⟨row, below, more, hrows, hwritten⟩ :=
      exists_rows_eq_of_brief registry hrich hfiles
    cases hdetail : settings.detail with
    | rich => exact absurd hdetail hrich
    | medium => exact ⟨row, below, more, hrows, hwritten⟩
    | short => exact ⟨row, below, more, hrows, hwritten⟩

variable (settings registry)

/-- **Every report of registered sources** names the first place of its diagnostic first and the
other sources in the order of their first appearance. This place is what the diagnostic is about
unless the first primary label stands in another source than the first label. -/
theorem leads_with_leading (hplace : d.location ≠ none ∨ d.labels ≠ [])
    (hregistered : ∀ file ∈ d.files, registry.contains file = true) :
    (∃ place others, d.leading? = some place ∧ d.Follow place.file others ∧
      (ofDiagnostic settings registry d).Leads settings registry d place others) ∧
    (d.leading? = d.primary? ↔
      (d.location = none → ∀ l ∈ Label.main? d.labels, ∀ first ∈ d.labels.head?,
        l.file = first.file)) := by
  refine ⟨?_, d.leading?_eq_primary?_iff⟩
  have hsources : ∀ file ∈ d.files, ∃ s, registry.source? file = some s := fun file hfile =>
    registry.contains_iff.1 (hregistered file hfile)
  obtain ⟨file, others, hfiles⟩ := List.exists_cons_of_ne_nil (d.files_ne_nil hplace)
  have hfile : file ∈ d.files := hfiles ▸ List.mem_cons_self
  obtain ⟨place, hlead⟩ := Diagnostic.exists_placeIn? hfile
  have hleading : d.leading? = some place := by
    rw [d.leading?_eq, hfiles, List.head?_cons, Option.bind_some, hlead]
  refine ⟨place, others, hleading, ?_, leads_of_files_eq hsources hfiles hlead⟩
  rw [Diagnostic.file_of_placeIn? hlead]
  exact Diagnostic.follow_of_files_eq hfiles

/-- Two sources with labels of both kinds. The report names the first primary label of the first
source, which the diagnostic is about, and then the other source. -/
theorem leads_with_leading_two :
    let a : Source := ⟨.snippet "a", "xy", by decide, ⟨1⟩, false⟩
    let b : Source := ⟨.snippet "b", "z", by decide, ⟨2⟩, false⟩
    let registry : Registry := ⟨[⟨a, a.name, none⟩, ⟨b, b.name, none⟩]⟩
    let first : Label := { span := ⟨⟨1⟩, 0, 1, by decide, by decide⟩, emphasis := .secondary }
    let second : Label := { span := ⟨⟨1⟩, 1, 2, by decide, by decide⟩ }
    let third : Label := { span := ⟨⟨2⟩, 0, 1, by decide, by decide⟩ }
    let d : Diagnostic := { level := .error, labels := [first, second, third] }
    d.primary? = some ⟨⟨1⟩, some 1⟩ ∧ ∃ others, d.Follow ⟨1⟩ others ∧
      (ofDiagnostic {} registry d).Leads {} registry d ⟨⟨1⟩, some 1⟩ others := by
  intro a b registry first second third d
  obtain ⟨⟨place, others, hlead, hfollow, hleads⟩, hiff⟩ :=
    leads_with_leading {} registry (d := d) (Or.inr (by decide)) (by decide)
  have hprimary : d.primary? = some ⟨⟨1⟩, some 1⟩ := by decide
  have hsame : d.leading? = d.primary? := hiff.2 (by decide)
  rw [hsame, hprimary, Option.some.injEq] at hlead
  subst hlead
  exact ⟨hprimary, others, hfollow, hleads⟩

/-- **What the diagnostic is about** need not be named first. The first label is secondary and
stands in one source, the only primary label in another one: the report starts with the former. -/
theorem not_leads_with_primary : ¬ ∀ (settings : Settings) (registry : Registry) (d : Diagnostic)
    (place : Locator), (∀ file ∈ d.files, registry.contains file = true) →
    d.primary? = some place → ∃ others, d.Follow place.file others ∧
      (ofDiagnostic settings registry d).Leads settings registry d place others := by
  intro hall
  let a : Source := ⟨.snippet "a", "x", by decide, ⟨1⟩, false⟩
  let b : Source := ⟨.snippet "b", "y", by decide, ⟨2⟩, false⟩
  let registry : Registry := ⟨[⟨a, a.name, none⟩, ⟨b, b.name, none⟩]⟩
  let context : Label := { span := ⟨⟨1⟩, 0, 1, by decide, by decide⟩, emphasis := .secondary }
  let subject : Label := { span := ⟨⟨2⟩, 0, 1, by decide, by decide⟩ }
  let d : Diagnostic := { level := .error, labels := [context, subject] }
  let settings : Settings := { detail := .short }
  have hprimary : d.primary? = some ⟨⟨2⟩, some 0⟩ := by decide
  obtain ⟨others, -, t, hnamed, row, below, more, hrows, hwritten⟩ :=
    hall settings registry d ⟨⟨2⟩, some 0⟩ (by decide) hprimary
  have hfirst : (ofDiagnostic settings registry d).rows.head?.map Row.written =
      some ("a:1:1: error" : Text) := by decide +kernel
  rw [hrows, List.head?_cons, Option.map_some, Option.some.injEq, hwritten] at hfirst
  obtain ⟨s, location, -, -, rfl⟩ := hnamed
  have hdisplay : registry.display ⟨2⟩ = ("b" : Text) := by decide
  rw [hdisplay] at hfirst
  have hstart := Text.head?_trimEnd (t := "b" ++ ":" ++ location.display ++ ": " ++ d.title ++ more)
    (show CodePoint.isBlank 'b' = false by decide) rfl
  rw [hfirst] at hstart
  exact absurd hstart (by decide)

end Report

end SourceReport
