import SourceReport.Proofs.Report.PaintedMarks
import SourceReport.Proofs.Report.Placing

/-!
# Reports drawn by painting

A report can be drawn by look-ups and strokes: its rows are those of the snippets that are laid out,
margins and cells are painted, and the messages are drawn one after the other, each of which is
taken from those still to come. Any of the steps may be a fault.

* `Snippet.drawMarks` draws the labels of one line, `drawEndings` the messages of those of several
  lines, `drawLine` all rows of a source line.
* `Report.drawRows` draws the rows of a report, `Report.draw` lays it out before.

Results:
* `Snippet.IsLaidOut.drawMarks_eq`, `drawEndings_eq`, `drawLine_eq`: the rows of a source line are
  drawn without fault.
* `Snippet.IsLaidOut.drawBody_eq`: so is a body all of whose lines are there.
* `Report.draw_eq`: so is every report, and it is the one that asks each cell.
-/

namespace SourceReport

/-! ## Drawing -/

namespace Snippet

variable (pen : Pen) (s : Snippet)

/-- Draws the rows of a message: the first one has a margin and cells of its own. -/
def drawMessage (p : Placement) (lead : Text)
    (first below : Except DrawFault (List Cell × List Cell)) : Except DrawFault (List Row) :=
  p.messageRows.zipIdx.mapM fun (row, n) => do
    let (margin, cells) ← if n = 0 then first else below
    return ⟨.message p.index n, pen.gutter none, margin, cells, [⟨lead ++ row, none⟩]⟩

/-- Draws the messages of labels of one line, in order. -/
def drawMarkMessages (margin : List Cell) (marks : Marks) (column : Nat) :
    List Placement → Except DrawFault (List Row)
  | [] => return []
  | p :: later => do
    let rows ← drawMessage pen p " "
      ((margin, ·) <$> Marks.paintConnectors pen marks column later p)
      ((margin, ·) <$> Marks.paintHanging pen marks column later)
    return rows ++ (← drawMarkMessages margin marks column later)

/-- Draws the underlines and messages of the labels of one line. -/
def drawMarks (line : Nat) (pending : List Nat) (marks : Marks) : Except DrawFault (List Row) := do
  if marks.isEmpty then return []
  let underline ← Marks.paintUnderline pen marks
  let margin ← paintBetween pen s pen.glyphs.vertical line pending
  let row : Row := ⟨.underline line, pen.gutter none, margin, underline, []⟩
  let speaking := Placement.messageOrder (marks.map (·.1))
  if speaking.isEmpty then return [row]
  let last ← largest (← speaking.mapM fun p => (·.attach) <$> marks.rangeOf p)
  return row :: (← drawMarkMessages pen margin marks (last + 3) speaking)

/-- Draws the messages of labels of several lines, in order. Each is taken from those pending. -/
def drawEndings (line : Nat) : (pending : List Nat) → List Placement → Except DrawFault (List Row)
  | _, [] => return []
  | pending, p :: later => do
    let pending := pending.filter (· ≠ p.index)
    let rows ← drawMessage pen p [] ((·, []) <$> paintMessage pen s line p pending)
      ((·, []) <$> paintBetween pen s pen.glyphs.vertical line pending)
    return rows ++ (← drawEndings line pending later)

/-- Draws the rows of a source line. -/
def drawLine (source : Source) (line : Nat) : Except DrawFault (List Row) := do
  let found ← DrawFault.ofLookup (source.line? line)
  let display := DisplayLine.ofLine pen.settings.tabWidth found.raw
  let margin ← paintSource pen s line
  let ending := s.multiline.filter fun p => p.lastLine = line ∧ p.hasMessage
  let pending := ending.map (·.index)
  let marks ← drawMarks pen s line pending (marksOn pen s line display)
  let laned := (← s.withLanes ending).mergeSort fun a b => b.2 ≤ a.2
  let messages ← drawEndings pen s line pending (laned.map (·.1))
  return ⟨.source line, pen.gutter (some (line + 1)), margin, [], [⟨display.text, none⟩]⟩
    :: marks ++ messages

/-- Draws the rows of an entry of the window. -/
def drawEntry (source : Source) : WindowEntry → Except DrawFault (List Row)
  | .line index => drawLine pen s source index
  | .skipped first count => do
    let margin ← paintBetween pen s pen.glyphs.verticalGap (first - 1) []
    return [{ skippedRow pen s first count with margin := margin }]

/-- Draws the rows of a snippet below its locator. -/
def drawBody : Except DrawFault (List Row) :=
  match s.source with
  | none => return pen.borders ++ [pen.unavailableRow]
  | some source => do
    if s.labels.isEmpty then return []
    let entries ← s.window.mapM (drawEntry pen s source)
    return pen.borders ++ entries.flatten ++ pen.borders

end Snippet

namespace Report

/-- Draws the rows of the snippets, each below its locator. -/
def drawSnippets (pen : Pen) (snippets : List Snippet) : Except DrawFault (List Row) := do
  let parts ← snippets.zipIdx.mapM fun (s, n) => do
    return locatorRow pen (n = 0) s :: (← Snippet.drawBody pen s)
  return parts.flatten

/-- Draws the rows of a report. -/
def drawRows (pen : Pen) (d : Diagnostic) (snippets : List Snippet) :
    Except DrawFault (List Row) :=
  match pen.settings.detail with
  | .rich => do
    let middle ← drawSnippets pen snippets
    return headerRows pen.settings.theme [] d ++ middle ++ noteRows pen (pen.digits + 1) d.notes
  | .medium => return briefRows pen d snippets true
  | .short => return briefRows pen d snippets false

/-- Lays out a report and draws it, with the styles of the labels. -/
def draw (settings : Settings) (registry : Registry) (styles : List Style) (d : Diagnostic) :
    Except DrawFault Report := do
  let laid ← d.files.mapM (Snippet.layOut settings registry d)
  let snippets := laid.map (·.1)
  let rows ← drawRows ⟨settings, styles, digits snippets⟩ d snippets
  return ⟨rows, laid.flatMap (·.2)⟩

end Report

/-! ## Rows of messages -/

namespace Marks

variable (pen : Pen) (display : DisplayLine) (labels : List Placement)

theorem map_index_ofLabels :
    (ofLabels pen display labels).map (·.1.index) = labels.map (·.index) := by
  rw [ofLabels, List.map_map]
  rfl

theorem messageOrder_ofLabels :
    Placement.messageOrder ((ofLabels pen display labels).map (·.1)) =
      (ofLabels pen display labels).withMessages.map (·.1) := by
  rw [map_fst_ofLabels, withMessages_ofLabels, map_fst_ofLabels]

end Marks

namespace Snippet

variable (pen : Pen) {s : Snippet} {line : Nat}

/-- **The rows of a message** are drawn if what stands beside them is. -/
theorem drawMessage_eq (p : Placement) {first below : Except DrawFault (List Cell × List Cell)}
    {margin margins cells cellsBelow : List Cell} (lead : Text)
    (hfirst : first = .ok (margin, cells)) (hbelow : below = .ok (margins, cellsBelow)) :
    drawMessage pen p lead first below =
      .ok (messageRows pen p margin margins cells cellsBelow lead) := by
  unfold drawMessage messageRows
  rw [List.mapIdx_eq_zipIdx_map, hfirst, hbelow]
  refine mapM_eq_ok fun e _ => ?_
  obtain ⟨row, n⟩ := e
  dsimp only
  split <;> rfl

/-- **The messages of labels of one line** are drawn without fault. -/
theorem drawMarkMessages_eq {marks hung : Marks} {column : Nat} (margin : List Cell)
    (hmarks : (marks.map (·.1.index)).Nodup) (hsub : ∀ e ∈ hung, e ∈ marks)
    (hcolumn : ∀ e ∈ hung, e.2.attach < column) :
    drawMarkMessages pen margin marks column (hung.map (·.1)) =
      .ok (markMessages pen margin column hung) := by
  induction hung with
  | nil => rfl
  | cons e later ih =>
    have hsub' : ∀ e ∈ later, e ∈ marks := fun e he => hsub e (List.mem_cons_of_mem _ he)
    have hcolumn' : ∀ e ∈ later, e.2.attach < column :=
      fun e he => hcolumn e (List.mem_cons_of_mem _ he)
    have hfirst := Marks.paintConnectors_eq pen hmarks hsub' hcolumn' (hsub e List.mem_cons_self)
      (hcolumn e List.mem_cons_self)
    have hbelow := Marks.paintHanging_eq pen hmarks hsub' hcolumn'
    have hrows := drawMessage_eq pen e.1 " "
      (congrArg (Functor.map (margin, ·)) hfirst) (congrArg (Functor.map (margin, ·)) hbelow)
    rw [List.map_cons, drawMarkMessages, hrows, ih hsub' hcolumn']
    rfl

namespace IsLaidOut

variable (h : s.IsLaidOut)

include h

section Pending

variable {indices : List Nat} {pending : List Placement}
  (hpending : ∀ p ∈ s.labels, p.index ∈ indices ↔ p ∈ pending)

include hpending

/-- **The underlines and messages of the labels of one line** are drawn without fault. -/
theorem drawMarks_eq (line : Nat) {marks : Marks} (hmarks : (marks.map (·.1.index)).Nodup)
    (horder : Placement.messageOrder (marks.map (·.1)) = marks.withMessages.map (·.1)) :
    drawMarks pen s line indices marks = .ok (markRows pen s line pending marks) := by
  have hsub : ∀ e ∈ marks.withMessages, e ∈ marks := fun _ => Marks.mem_of_mem_withMessages
  unfold drawMarks markRows
  by_cases hempty : marks.isEmpty = true
  · rw [if_pos hempty, if_pos hempty]
    rfl
  rw [if_neg hempty, if_neg hempty,
    Marks.paintUnderline_eq pen hmarks (fun hnil => hempty (hnil ▸ rfl)) hsub horder,
    h.paintBetween_eq pen hpending, horder]
  dsimp only [bind, Except.bind]
  by_cases hsilent : marks.withMessages = []
  · rw [hsilent]
    rfl
  · have hspeaking : ¬ (marks.withMessages.map (·.1)).isEmpty = true := by simpa using hsilent
    have hattach : ((marks.withMessages.map (·.1)).mapM fun p => (·.attach) <$> marks.rangeOf p) =
        .ok (marks.withMessages.map (·.2.attach)) := by
      rw [List.mapM_map]
      refine mapM_eq_ok fun e he => ?_
      rw [Function.comp_apply, Marks.rangeOf_eq hmarks (hsub e he)]
      rfl
    have hlast : largest (marks.withMessages.map (·.2.attach)) =
        .ok ((marks.withMessages.map (·.2.attach)).foldl max 0) :=
      largest_eq (by simpa using hsilent)
    have hcolumn : ∀ e ∈ marks.withMessages, e.2.attach < marks.withMessages.messageColumn := by
      intro e he
      have hle : e.2.attach ≤ (marks.withMessages.map (·.2.attach)).foldl max 0 :=
        le_foldl_max (List.mem_map_of_mem he)
      unfold Marks.messageColumn
      omega
    have hmessages := drawMarkMessages_eq pen
      (betweenMargin pen s pen.glyphs.vertical line pending) hmarks hsub hcolumn
    unfold Marks.messageColumn at hmessages
    rw [if_neg hspeaking, hattach]
    dsimp only
    rw [hlast]
    dsimp only
    rw [hmessages]
    rfl

end Pending

/-- **The messages of labels of several lines** are drawn without fault. -/
theorem drawEndings_eq (line : Nat) {endings : Lanes} (hsub : ∀ e ∈ endings, e ∈ s.lanes)
    (hnodup : (endings.map (·.1)).Nodup) {pending : List Nat}
    (hpending : ∀ p ∈ s.labels, p.index ∈ pending ↔ p ∈ endings.map (·.1)) :
    drawEndings pen s line pending (endings.map (·.1)) =
      .ok (endingMessages pen s line endings) := by
  induction endings generalizing pending with
  | nil => rfl
  | cons e later ih =>
    obtain ⟨p, lane⟩ := e
    have hlane := hsub (p, lane) List.mem_cons_self
    have hp := (h.mem_of_mem_lanes hlane).1
    obtain ⟨hnew, hlater⟩ := List.nodup_cons.1 hnodup
    have hrest : ∀ q ∈ s.labels, q.index ∈ pending.filter (· ≠ p.index) ↔ q ∈ later.map (·.1) := by
      intro q hq
      rw [List.mem_filter, decide_eq_true_eq, hpending q hq, List.map_cons, List.mem_cons]
      constructor
      · rintro ⟨rfl | hmem, hne⟩
        · exact absurd rfl hne
        · exact hmem
      · intro hmem
        refine ⟨Or.inr hmem, fun hindex => hnew ?_⟩
        rwa [← h.eq_of_index_eq hq hp hindex]
    have hrows := drawMessage_eq pen p []
      (congrArg (Functor.map (·, [])) (h.paintMessage_eq pen hrest line hlane))
      (congrArg (Functor.map (·, [])) (h.paintBetween_eq pen hrest pen.glyphs.vertical line))
    rw [List.map_cons, drawEndings]
    dsimp only
    rw [hrows, ih (fun e he => hsub e (List.mem_cons_of_mem _ he)) hlater hrest]
    rfl

/-! ## Source lines -/

/-- Every label is one of those that end in a line once at most. -/
theorem nodup_map_fst_endings (line : Nat) : ((s.endings line).map (·.1)).Nodup := by
  refine List.pairwise_map.2 (List.Pairwise.imp_of_mem ?_ (h.pairwise_endings line))
  rintro ⟨p, j⟩ ⟨q, k⟩ hp hq hlt rfl
  have hsame : j = k := h.lane_unique (mem_endings.1 hp).1 (mem_endings.1 hq).1
  exact Nat.lt_irrefl k (hsame ▸ hlt)

/-- The labels that end in a line and have a message. -/
theorem mem_map_fst_endings {p : Placement} :
    p ∈ (s.endings line).map (·.1) ↔
      p ∈ s.multiline.filter fun p => p.lastLine = line ∧ p.hasMessage := by
  rw [List.mem_filter, decide_eq_true_eq, List.mem_map]
  constructor
  · rintro ⟨⟨q, lane⟩, hq, rfl⟩
    exact ⟨h.mem_multiline (mem_endings.1 hq).1, (mem_endings.1 hq).2⟩
  · rintro ⟨hp, hend⟩
    obtain ⟨lane, hlane⟩ := h.exists_lane hp
    exact ⟨(p, lane), mem_endings.2 ⟨hlane, hend⟩, rfl⟩

/-- They are in order once they are sorted by the lanes that are found. -/
theorem exists_sorted_endings (line : Nat) :
    ∃ laned, s.withLanes (s.multiline.filter fun p => p.lastLine = line ∧ p.hasMessage) =
      .ok laned ∧ (laned.mergeSort fun a b => b.2 ≤ a.2) = s.endings line := by
  obtain ⟨laned, hlaned, hfst, hmem⟩ := h.withLanes_eq
    (s.multiline.filter fun p => p.lastLine = line ∧ p.hasMessage)
    fun p hp => (List.mem_filter.1 hp).1
  have hlabels : s.labels.Nodup := List.Nodup.of_map _ h.indices
  have hnodup : laned.Nodup := by
    refine List.Nodup.of_map (·.1) ?_
    rw [hfst]
    exact (hlabels.filter _).filter _
  have hperm : laned.Perm (s.endings line) := by
    refine (List.perm_ext_iff_of_nodup hnodup
      (List.Nodup.of_map _ (h.nodup_map_fst_endings line))).2 fun e => ?_
    rw [hmem, List.mem_filter, decide_eq_true_eq, mem_endings]
    exact ⟨fun ⟨⟨_, hend⟩, hlane⟩ => ⟨hlane, hend⟩,
      fun ⟨hlane, hend⟩ => ⟨⟨h.mem_multiline hlane, hend⟩, hlane⟩⟩
  have hsorted := laned.pairwise_sorted (· ≥ ·)
  refine ⟨laned, hlaned, ((List.mergeSort_perm _ _).trans hperm).eq_of_pairwise ?_ hsorted
    ((h.pairwise_endings line).imp Nat.le_of_lt)⟩
  -- Labels that end in one line have lanes of their own.
  intro a b ha hb hle hge
  have ha := mem_endings.1 (hperm.mem_iff.1 (List.mem_mergeSort.1 ha))
  have hb := mem_endings.1 hb
  have hlane : a.2 = b.2 := Nat.le_antisymm hge hle
  have hatouches : a.1.touches line = true :=
    h.touches_of_endsAt ha.1 (by simp [Placement.endsAt, ha.2.1])
  have hbtouches : b.1.touches line = true :=
    h.touches_of_endsAt hb.1 (by simp [Placement.endsAt, hb.2.1])
  exact Prod.ext (h.eq_of_touches (hlane ▸ ha.1) hb.1 hatouches hbtouches) hlane

/-- **The rows of a source line** that is there are drawn without fault. -/
theorem drawLine_eq {source : Source} {l : Line} (hl : source.line? line = .ok l) :
    drawLine pen s source line = .ok (lineRows pen s source line) := by
  obtain ⟨n, hn, hget⟩ := Source.line?_eq_ok_iff.1 hl
  obtain rfl : line = n := Int.ofNat.inj hn
  obtain ⟨laned, hlaned, hsorted⟩ := h.exists_sorted_endings line
  have hpending : ∀ p ∈ s.labels,
      p.index ∈ (s.multiline.filter fun p => p.lastLine = line ∧ p.hasMessage).map (·.index) ↔
        p ∈ (s.endings line).map (·.1) := by
    intro p hp
    rw [h.mem_map_fst_endings, List.mem_map]
    constructor
    · rintro ⟨q, hq, hindex⟩
      have hlabel := (List.mem_filter.1 (List.mem_filter.1 hq).1).1
      rwa [← h.eq_of_index_eq hlabel hp hindex]
    · exact fun hp => ⟨p, hp, rfl⟩
  have hmessages := h.drawEndings_eq pen line
    (fun e he => (mem_endings.1 he).1) (h.nodup_map_fst_endings line) hpending
  have hindices : ((marksOn pen s line (.ofLine pen.settings.tabWidth l.raw)).map
      (·.1.index)).Nodup := by
    rw [marksOn, Marks.map_index_ofLabels]
    exact h.indices.sublist (List.filter_sublist.map _)
  have hmarks := h.drawMarks_eq pen hpending line hindices
    (Marks.messageOrder_ofLabels pen _ _)
  unfold drawLine lineRows
  rw [hl, hget]
  dsimp only [DrawFault.ofLookup, Except.mapError, bind, Except.bind, Option.map_some,
    Option.getD_some]
  rw [h.paintSource_eq, hmarks, hlaned]
  dsimp only
  rw [hsorted, hmessages]
  rfl

/-! ## Bodies -/

/-- **A body** whose lines are there is drawn without fault. -/
theorem drawBody_eq {source : Source} (hsource : s.source = some source)
    (hlines : ∀ line : Nat, .line line ∈ s.window → ∃ l, source.line? line = .ok l) :
    drawBody pen s = .ok (bodyRows pen s) := by
  by_cases hne : s.labels = []
  · unfold drawBody bodyRows
    rw [hsource, hne]
    rfl
  have hempty : ¬ s.labels.isEmpty = true := by simpa using hne
  have hentries : s.window.mapM (drawEntry pen s source) =
      .ok (s.window.map (entryRows pen s source)) := by
    refine mapM_eq_ok fun e he => ?_
    cases e with
    | line index =>
      obtain ⟨l, hl⟩ := hlines index he
      exact h.drawLine_eq pen hl
    | skipped first count =>
      have hnone : ∀ p ∈ s.labels, p.index ∈ ([] : List Nat) ↔ p ∈ ([] : List Placement) :=
        fun p _ => iff_of_false List.not_mem_nil List.not_mem_nil
      rw [drawEntry, h.paintBetween_eq pen hnone]
      rfl
  unfold drawBody
  rw [bodyRows_eq hsource hne, hsource]
  dsimp only
  rw [if_neg hempty, hentries]
  dsimp only [bind, Except.bind]
  rw [← List.flatMap_def]
  rfl

end IsLaidOut

/-- **The body of every snippet** of a diagnostic is drawn without fault. -/
theorem drawBody_ofFile (settings : Settings) (registry : Registry) (d : Diagnostic)
    (file : SourceId) :
    drawBody pen (ofFile settings registry d file) =
      .ok (bodyRows pen (ofFile settings registry d file)) := by
  cases hs : registry.source? file with
  | none =>
    have hnone : (ofFile settings registry d file).source = none := by simp only [ofFile, hs]
    unfold drawBody bodyRows
    rw [hnone]
    rfl
  | some source =>
    exact (isLaidOut_ofFile settings d hs).drawBody_eq pen (source_ofFile hs)
      (d.findsAll settings hs).shown

end Snippet

namespace Report

/-- **The rows of a report** are drawn without fault, whatever pen they are drawn with. -/
theorem drawRows_eq (pen : Pen) (settings : Settings) (registry : Registry) (d : Diagnostic) :
    drawRows pen d (Snippet.ofDiagnostic settings registry d) =
      .ok (match pen.settings.detail with
        | .rich => richRows pen d (Snippet.ofDiagnostic settings registry d)
        | .medium => briefRows pen d (Snippet.ofDiagnostic settings registry d) true
        | .short => briefRows pen d (Snippet.ofDiagnostic settings registry d) false) := by
  have hsnippets : drawSnippets pen (Snippet.ofDiagnostic settings registry d) =
      .ok (Snippet.allRows pen (Snippet.ofDiagnostic settings registry d)) := by
    unfold drawSnippets Snippet.allRows
    rw [mapM_eq_ok (g := fun e => locatorRow pen (e.2 = 0) e.1 :: Snippet.bodyRows pen e.1) ?_]
    · rw [List.flatMap_def]
      rfl
    · intro e he
      obtain ⟨file, -, hfile⟩ := List.mem_map.1 (List.fst_mem_of_mem_zipIdx he)
      have hbody := Snippet.drawBody_ofFile pen settings registry d file
      rw [hfile] at hbody
      dsimp only
      rw [hbody]
      rfl
  unfold drawRows
  cases pen.settings.detail with
  | rich =>
    dsimp only
    rw [hsnippets]
    rfl
  | medium => rfl
  | short => rfl

/-- **Every report** is drawn without fault. -/
theorem draw_eq (settings : Settings) (registry : Registry) (d : Diagnostic) :
    draw settings registry (labelStyles settings d) d = .ok (ofDiagnostic settings registry d) := by
  have hlaid : d.files.mapM (Snippet.layOut settings registry d) =
      .ok (d.files.map fun file =>
        (Snippet.ofFile settings registry d file, Snippet.issues registry d file)) :=
    mapM_eq_ok fun file _ => Snippet.layOut_eq settings registry d file
  have hsnippets : (d.files.map fun file => (Snippet.ofFile settings registry d file,
      Snippet.issues registry d file)).map (·.1) = Snippet.ofDiagnostic settings registry d := by
    rw [List.map_map]
    rfl
  unfold draw
  rw [hlaid]
  dsimp only [bind, Except.bind]
  rw [hsnippets, drawRows_eq, List.flatMap_map]
  rfl

end Report

end SourceReport
