import SourceReport.Proofs.Report.Labels
import SourceReport.Proofs.Report.Margin

/-!
# Connectors reach from end to end

The connector of a label of several lines runs in its lane from the line in which the label starts
down to the line in which it ends, or to the first row of its message. The margins are drawn row by
row from the number of the line and from the messages still to come below it, so what a row shows of
a lane depends on which rows stand above and below it in the body.

* `Placement.IsOpenOn` says that a label is open on a row.
* `Snippet.StillClose` says which labels close at or below a row of their last line.

Results:
* `Snippet.IsLaidOut.isOpenOn_iff`: a label is open on a row if it starts above and closes below.
* `Snippet.IsLaidOut.connects_lineRows`, `connects_skippedRow`: the margins of the rows of an entry.
* `Report.connectors_connect`: the connectors of every rich report.
-/

namespace SourceReport

/-- The last row beside which the connector of a label runs: the first row of its message, or the
line in which it ends. -/
def Placement.closing (p : Placement) : RowKind :=
  if p.hasMessage then .message p.index 0 else .source p.lastLine

/-- A row of a body lies between the row where a label opens and the one where it closes, both of
them included. -/
structure Placement.IsOpenOn (p : Placement) (above : List Row) (row : Row) (below : List Row) :
    Prop where
  opens : ∃ r ∈ above ++ [row], r.kind = .source p.firstLine
  closes : ∃ r ∈ row :: below, r.kind = p.closing

theorem exists_mem_append_iff {α : Type} {P : α → Prop} {xs ys : List α} :
    (∃ x ∈ xs ++ ys, P x) ↔ (∃ x ∈ xs, P x) ∨ ∃ x ∈ ys, P x := by
  simp only [List.mem_append, or_and_right, exists_or]

theorem Pen.not_exists_borders {pen : Pen} {kind : RowKind} (h : kind ≠ .border) :
    ¬ ∃ r ∈ pen.borders, r.kind = kind := by
  rintro ⟨r, hr, rfl⟩
  exact h (kind_of_mem_borders hr)

namespace Snippet

variable {pen : Pen} {s : Snippet} {source : Source} {w before after : Window} {e : WindowEntry}
  {line lane : Nat} {p q : Placement} {row : Row} {front back : List Row}

/-- The labels of several lines that close in these rows of their last line. -/
def StillClose (s : Snippet) (rows : List Row) (ps : List Placement) : Prop :=
  ∀ p ∈ s.labels, p.isMultiline = true → ((∃ r ∈ rows, r.kind = p.closing) ↔ p ∈ ps)

/-! ## Messages of labels of several lines -/

/-- A row of a message, and those of its rows that follow. -/
theorem exists_part_of_split {margin margins cells cellsBelow : List Cell} {lead : Text}
    (heq : messageRows pen p margin margins cells cellsBelow lead = front ++ row :: back) :
    ∃ n, row.kind = .message p.index n ∧ row.margin = (if n = 0 then margin else margins) ∧
      ∀ r ∈ back, ∃ m, r.kind = .message p.index (m + 1) := by
  have hplace : ∀ (n : Nat) r, (front ++ row :: back)[n]? = some r →
      r.kind = .message p.index n ∧ r.margin = (if n = 0 then margin else margins) := by
    intro n r hr
    rw [← heq, messageRows, List.getElem?_mapIdx] at hr
    obtain ⟨t, -, rfl⟩ := Option.map_eq_some_iff.1 hr
    exact ⟨rfl, rfl⟩
  obtain ⟨hkind, hmargin⟩ := hplace front.length row (by simp)
  refine ⟨front.length, hkind, hmargin, fun r hr => ?_⟩
  obtain ⟨m, hm⟩ := List.getElem?_of_mem hr
  have hlater := hplace (front.length + (m + 1)) r (by
    rw [List.getElem?_append_right (Nat.le_add_right _ _), Nat.add_sub_cancel_left,
      List.getElem?_cons_succ, hm])
  exact ⟨front.length + m, hlater.1⟩

/-- A row of the messages of labels of several lines belongs to one of them, and the messages of the
later ones follow. -/
theorem exists_ending_of_split {endings : Lanes}
    (heq : endingMessages pen s line endings = front ++ row :: back) :
    ∃ earlier p lane later n rest, endings = earlier ++ (p, lane) :: later ∧
      row.kind = .message p.index n ∧
      row.margin = (if n = 0 then messageMargin pen s line p lane (later.map (·.1))
        else betweenMargin pen s pen.glyphs.vertical line (later.map (·.1))) ∧
      back = rest ++ endingMessages pen s line later ∧
      ∀ r ∈ rest, ∃ m, r.kind = .message p.index (m + 1) := by
  induction endings generalizing front with
  | nil => simp [endingMessages] at heq
  | cons e later ih =>
    obtain ⟨p, lane⟩ := e
    rcases exists_of_append_eq heq with ⟨rest, hrows, rfl⟩ | ⟨front', hrows, -⟩
    · obtain ⟨n, hkind, hmargin, hrest⟩ := exists_part_of_split hrows
      exact ⟨[], p, lane, later, n, rest, rfl, hkind, hmargin, rfl, hrest⟩
    · obtain ⟨earlier, q, lane', later', n, rest, rfl, hkind, hmargin, hback, hrest⟩ := ih hrows
      exact ⟨(p, lane) :: earlier, q, lane', later', n, rest, rfl, hkind, hmargin, hback, hrest⟩

/-- All rows of underlines and of messages of labels of one line have the same margin. -/
theorem margin_of_mem_markRows {pending : List Placement} {marks : Marks} {r : Row}
    (hr : r ∈ markRows pen s line pending marks) :
    r.margin = betweenMargin pen s pen.glyphs.vertical line pending := by
  have hmessages : ∀ (margin : List Cell) (column : Nat) (marks : Marks),
      ∀ r ∈ markMessages pen margin column marks, r.margin = margin := by
    intro margin column marks
    induction marks with
    | nil => intro r hr; cases hr
    | cons m later ih =>
      intro r hr
      rcases List.mem_append.1 hr with hr | hr
      · obtain ⟨n, hn, rfl⟩ := List.mem_mapIdx.1 hr
        exact ite_self margin
      · exact ih r hr
  unfold markRows at hr
  split at hr
  · cases hr
  · rcases List.mem_cons.1 hr with rfl | hr
    · rfl
    · exact hmessages _ _ _ r hr

namespace IsLaidOut

variable (h : s.IsLaidOut)

include h

/-! ## Open labels -/

/-- **Which labels close in an entry.** -/
theorem exists_closing_iff (hp : p ∈ s.labels) :
    (∃ r ∈ w.flatMap (entryRows pen s source), r.kind = p.closing) ↔ .line p.lastLine ∈ w := by
  unfold Placement.closing
  split
  · next hmessage => exact h.exists_message_iff hp hmessage
  · exact h.exists_source_iff

/-- A source line stands at the top of its entry. -/
theorem exists_opening_iff (heq : entryRows pen s source e = front ++ row :: back) :
    (∃ r ∈ front ++ [row], r.kind = .source line) ↔ e = .line line := by
  constructor
  · rintro ⟨r, hr, hkind⟩
    have hmem : r ∈ entryRows pen s source e := by
      rw [heq]
      rcases List.mem_append.1 hr with hr | hr
      · exact List.mem_append_left _ hr
      · rw [List.mem_singleton.1 hr]
        simp
    have hline := h.exists_source_iff.1 ⟨r, List.mem_flatMap.2 ⟨e, List.mem_singleton.2 rfl, hmem⟩,
      hkind⟩
    exact (List.mem_singleton.1 hline).symm
  · rintro rfl
    obtain ⟨display, underlines, messages, hrows, -, -⟩ := h.exists_lineRows_eq pen source line
    rw [entryRows, hrows] at heq
    refine ⟨sourceRow pen s line display, ?_, rfl⟩
    cases front with
    | nil => rw [(List.cons.inj heq).1]; simp
    | cons first front => rw [(List.cons.inj heq).1]; simp

/-- **A label is open on a row** if it starts above and closes below the row or in its own line. -/
theorem isOpenOn_iff (hw : s.window = before ++ e :: after)
    (heq : entryRows pen s source e = front ++ row :: back) (hp : p ∈ s.labels) :
    p.IsOpenOn (pen.borders ++ (before.flatMap (entryRows pen s source) ++ front)) row
        (back ++ after.flatMap (entryRows pen s source) ++ pen.borders) ↔
      p.firstLine < e.stop ∧ ((∃ r ∈ row :: back, r.kind = p.closing) ∨ e.stop ≤ p.lastLine) := by
  have hascending := h.ascending
  have hfirst := h.mem_window p hp _ (Or.inl rfl)
  have hlast := h.mem_window p hp _ (Or.inr rfl)
  rw [hw] at hascending hfirst hlast
  have hopens : (∃ r ∈ pen.borders ++ (before.flatMap (entryRows pen s source) ++ front) ++ [row],
      r.kind = .source p.firstLine) ↔ p.firstLine < e.stop := by
    have hborders : ¬ ∃ r ∈ pen.borders, r.kind = .source p.firstLine :=
      Pen.not_exists_borders RowKind.noConfusion
    rw [List.append_assoc, exists_mem_append_iff, or_iff_right hborders, List.append_assoc,
      exists_mem_append_iff, h.exists_source_iff, h.exists_opening_iff heq, eq_comm,
      ← List.mem_singleton, ← List.mem_append, hascending.line_mem_upTo_iff, and_iff_right hfirst]
  have hcloses : (∃ r ∈ row :: (back ++ after.flatMap (entryRows pen s source) ++ pen.borders),
      r.kind = p.closing) ↔ (∃ r ∈ row :: back, r.kind = p.closing) ∨ e.stop ≤ p.lastLine := by
    have hborders : ¬ ∃ r ∈ pen.borders, r.kind = p.closing := by
      refine Pen.not_exists_borders ?_
      unfold Placement.closing
      split <;> exact RowKind.noConfusion
    rw [← List.cons_append, ← List.cons_append, exists_mem_append_iff, or_iff_left hborders,
      exists_mem_append_iff, h.exists_closing_iff hp, hascending.line_mem_below_iff,
      and_iff_right hlast]
  exact ⟨fun ho => ⟨hopens.1 ho.opens, hcloses.1 ho.closes⟩,
    fun ho => ⟨hopens.2 ho.1, hcloses.2 ho.2⟩⟩

/-! ## The rows of a line -/

/-- The messages of labels of several lines close these labels, and no other ones. -/
theorem stillClose_endingMessages (pen : Pen) {endings : Lanes}
    (hsub : ∀ e ∈ endings, e ∈ s.endings line) :
    s.StillClose (endingMessages pen s line endings) (endings.map (·.1)) := by
  have hshown := map_shown_endingMessages pen s line
    fun e he => h.isMultiline_of_mem_endings (hsub e he)
  intro p hp hmulti
  constructor
  · rintro ⟨r, hr, hkind⟩
    obtain ⟨q, hq, n, hn⟩ := exists_message_of_mem hshown hr
    obtain ⟨e, he, rfl⟩ := List.mem_map.1 hq
    have hspeaks : e.1 ∈ s.speakers line :=
      List.mem_append_right _ (List.mem_map.2 ⟨e, hsub e he, rfl⟩)
    unfold Placement.closing at hkind
    split at hkind
    · rw [hn] at hkind
      injection hkind with hindex
      rwa [← h.eq_of_index_eq (h.mem_speakers.1 hspeaks).1 hp hindex]
    · rw [hn] at hkind
      cases hkind
  · intro hmem
    obtain ⟨e, he, rfl⟩ := List.mem_map.1 hmem
    obtain ⟨t, more, hhead⟩ := e.1.exists_block_eq_cons
    have hrow : (RowKind.message e.1.index 0, t) ∈
        (endingMessages pen s line endings).map Row.shown := by
      rw [hshown]
      exact List.mem_flatMap.2 ⟨e.1, hmem, by simp [hhead]⟩
    obtain ⟨r, hr, heq⟩ := List.mem_map.1 hrow
    refine ⟨r, hr, ?_⟩
    rw [Placement.closing, if_pos (mem_endings.1 (hsub e he)).2.2]
    exact congrArg Prod.fst heq

/-- The rows of underlines and of messages of labels of one line close no other labels. -/
theorem stillClose_append_markRows {pending ps : List Placement} {display : DisplayLine}
    {rows more : List Row}
    (hrows : ∀ r ∈ rows, r ∈ markRows pen s line pending (marksOn pen s line display))
    (hmore : s.StillClose more ps) : s.StillClose (rows ++ more) ps := by
  have hsingle : ∀ p ∈ s.labels.filter (fun p => !p.isMultiline && p.firstLine = line),
      p.isMultiline = false := fun p hp => (mem_lineLabels.1 hp).2.1
  obtain ⟨underlines, messages, heq, hunderlines, hshown⟩ :=
    exists_markRows_eq pen s line pending display hsingle
  intro p hp hmulti
  have hnone : ¬ ∃ r ∈ rows, r.kind = p.closing := by
    rintro ⟨r, hr, hkind⟩
    have hmem := hrows r hr
    rw [marksOn, heq] at hmem
    unfold Placement.closing at hkind
    rcases List.mem_append.1 hmem with hmem | hmem
    · rw [hunderlines r hmem] at hkind
      split at hkind <;> cases hkind
    · obtain ⟨q, hq, n, hn⟩ := exists_message_of_mem hshown hmem
      rw [hn] at hkind
      split at hkind
      · injection hkind with hindex
        have hq := mem_lineLabels.1 (Placement.mem_messageOrder.1 hq).1
        rw [← h.eq_of_index_eq hq.1 hp hindex, hq.2.1] at hmulti
        cases hmulti
      · cases hkind
  rw [exists_mem_append_iff, or_iff_right hnone]
  exact hmore p hp hmulti

/-- The first row of a message closes its label, and no other row of a message closes one. -/
theorem message_eq_closing_iff {n : Nat} (hq : q ∈ s.labels) (hmessage : q.hasMessage = true)
    (hp : p ∈ s.labels) : RowKind.message q.index n = p.closing ↔ n = 0 ∧ p = q := by
  unfold Placement.closing
  constructor
  · intro heq
    split at heq
    · injection heq with hindex hn
      exact ⟨hn, (h.eq_of_index_eq hq hp hindex).symm⟩
    · cases heq
  · rintro ⟨rfl, rfl⟩
    rw [if_pos hmessage]

/-- The rows of a message from one of them on: they close their label if the first one is there. -/
theorem stillClose_append_messageRows {n : Nat} {rest more : List Row} {ps : List Placement}
    (hq : q ∈ s.labels) (hmessage : q.hasMessage = true) (hrow : row.kind = .message q.index n)
    (hrest : ∀ r ∈ rest, ∃ m, r.kind = .message q.index (m + 1)) (hmore : s.StillClose more ps) :
    s.StillClose (row :: (rest ++ more)) (if n = 0 then q :: ps else ps) := by
  intro p hp hmulti
  have hnone : ¬ ∃ r ∈ rest, r.kind = p.closing := by
    rintro ⟨r, hr, hkind⟩
    obtain ⟨m, hm⟩ := hrest r hr
    rw [hm, h.message_eq_closing_iff hq hmessage hp] at hkind
    cases hkind.1
  have hsplit : (∃ r ∈ row :: (rest ++ more), r.kind = p.closing) ↔
      (n = 0 ∧ p = q) ∨ p ∈ ps := by
    rw [List.exists_mem_cons_iff, exists_mem_append_iff, or_iff_right hnone, hmore p hp hmulti, hrow,
      h.message_eq_closing_iff hq hmessage hp]
  rw [hsplit]
  split
  · next hn => rw [List.mem_cons, and_iff_right hn]
  · next hn => exact or_iff_right fun hand => hn hand.1

/-- Rows below a line connect the labels that start above and close below. -/
theorem connects_of_between {pending : List Placement}
    (hpending : ∀ p ∈ pending, p.lastLine = line)
    (hmargin : row.margin = betweenMargin pen s pen.glyphs.vertical line pending)
    (hclose : s.StillClose (row :: back) pending) :
    row.Connects pen s.lanes fun p => p.firstLine < line + 1 ∧
      ((∃ r ∈ row :: back, r.kind = p.closing) ∨ line + 1 ≤ p.lastLine) := by
  refine (h.connects_between pen (by simp [Glyphs.inCells]) hmargin).congr fun p k hp => ?_
  obtain ⟨hmem, hmulti⟩ := h.mem_of_mem_lanes hp
  have hordered := h.ordered p hmem
  rw [hclose p hmem hmulti, Placement.isOpenBelow, decide_eq_true_eq]
  constructor
  · rintro ⟨hfirst, hin | hlast⟩
    · exact Or.inr ⟨hpending p hin, hin⟩
    · exact Or.inl ⟨by omega, by omega⟩
  · rintro (⟨hfirst, hlast⟩ | ⟨hlast, hin⟩)
    · exact ⟨by omega, Or.inr (by omega)⟩
    · exact ⟨by omega, Or.inl hin⟩

/-- So do the first rows of messages. -/
theorem connects_of_message (hq : (q, lane) ∈ s.endings line) {pending : List Placement}
    (hpending : ∀ p ∈ pending, p.lastLine = line)
    (hmargin : row.margin = messageMargin pen s line q lane pending)
    (hkind : row.kind = .message q.index 0) (hclose : s.StillClose (row :: back) (q :: pending)) :
    row.Connects pen s.lanes fun p => p.firstLine < line + 1 ∧
      ((∃ r ∈ row :: back, r.kind = p.closing) ∨ line + 1 ≤ p.lastLine) := by
  obtain ⟨hlane, hlast, -⟩ := mem_endings.1 hq
  refine (h.connects_message pen hlane hlast hmargin hkind).congr fun p k hp => ?_
  obtain ⟨hmem, hmulti⟩ := h.mem_of_mem_lanes hp
  have hordered := h.ordered p hmem
  rw [hclose p hmem hmulti, Placement.isOpenBelow, decide_eq_true_eq, List.mem_cons]
  constructor
  · rintro ⟨hfirst, (hin | hin) | hbelow⟩
    · exact Or.inl hin
    · exact Or.inr (Or.inr ⟨hpending p hin, hin⟩)
    · exact Or.inr (Or.inl ⟨by omega, by omega⟩)
  · rintro (rfl | ⟨hfirst, hbelow⟩ | ⟨hend, hin⟩)
    · exact ⟨by omega, Or.inl (Or.inl rfl)⟩
    · exact ⟨by omega, Or.inr (by omega)⟩
    · exact ⟨by omega, Or.inl (Or.inr hin)⟩

/-- **The rows of a line connect the labels that are open on them.** -/
theorem connects_lineRows (heq : lineRows pen s source line = front ++ row :: back) :
    row.Connects pen s.lanes fun p => p.firstLine < line + 1 ∧
      ((∃ r ∈ row :: back, r.kind = p.closing) ∨ line + 1 ≤ p.lastLine) := by
  have hends : ∀ p ∈ (s.endings line).map (·.1), p.lastLine = line := by
    intro p hp
    obtain ⟨e, he, rfl⟩ := List.mem_map.1 hp
    exact (mem_endings.1 he).2.1
  have hlines := heq
  unfold lineRows at hlines
  dsimp only at hlines
  generalize DisplayLine.ofLine pen.settings.tabWidth
    ((source.lines[line]?.map (·.raw)).getD []) = display at hlines
  rcases exists_of_append_eq hlines with ⟨rest, htop, rfl⟩ | ⟨front', hmessages, rfl⟩
  · cases front with
    | nil =>
      -- The line itself: whatever closes in its entry closes there or below.
      obtain ⟨hrow, -⟩ := List.cons.inj htop
      have hconnects : row.Connects pen s.lanes fun p => p.touches line = true :=
        h.connects_source pen (by rw [← hrow]; rfl) (by rw [← hrow]; rfl)
      refine hconnects.congr fun p k hp => ?_
      obtain ⟨hmem, hmulti⟩ := h.mem_of_mem_lanes hp
      have hclosing : (∃ r ∈ List.flatMap (entryRows pen s source) [.line line],
          r.kind = p.closing) ↔ .line p.lastLine ∈ [WindowEntry.line line] :=
        h.exists_closing_iff hmem
      rw [List.flatMap_singleton, entryRows, heq, List.nil_append, List.mem_singleton] at hclosing
      rw [hclosing, Placement.touches_iff, WindowEntry.line.injEq]
      omega
    | cons first front =>
      obtain ⟨-, hmarks⟩ := List.cons.inj htop
      have hrows : ∀ r ∈ row :: rest, r ∈ markRows pen s line ((s.endings line).map (·.1))
          (marksOn pen s line display) := by
        intro r hr
        rw [hmarks]
        exact List.mem_append_right _ hr
      exact h.connects_of_between hends (margin_of_mem_markRows (hrows row List.mem_cons_self))
        (h.stillClose_append_markRows hrows (h.stillClose_endingMessages pen fun _ he => he))
  · obtain ⟨earlier, q, lane, later, n, rest, hendings, hkind, hmargin, rfl, hrest⟩ :=
      exists_ending_of_split hmessages
    have hq : (q, lane) ∈ s.endings line := by
      rw [hendings]
      simp
    have hlater : ∀ e ∈ later, e ∈ s.endings line := by
      intro e he
      rw [hendings]
      simp [he]
    have hpending : ∀ p ∈ later.map (·.1), p.lastLine = line := by
      intro p hp
      obtain ⟨e, he, rfl⟩ := List.mem_map.1 hp
      exact (mem_endings.1 (hlater e he)).2.1
    obtain ⟨hlane, -, hmessage⟩ := mem_endings.1 hq
    have hclose := h.stillClose_append_messageRows (h.mem_of_mem_lanes hlane).1 hmessage hkind
      hrest (h.stillClose_endingMessages pen hlater)
    by_cases hn : n = 0
    · subst hn
      exact h.connects_of_message hq hpending hmargin hkind hclose
    · rw [if_neg hn] at hmargin hclose
      exact h.connects_of_between hpending hmargin hclose

/-- **The row in place of skipped lines** connects the labels that start above and close below. -/
theorem connects_skippedRow {first count : Nat} (hw : .skipped first count ∈ s.window) :
    (skippedRow pen s first count).Connects pen s.lanes fun p => p.firstLine < first + count ∧
      ((∃ r ∈ [skippedRow pen s first count], r.kind = p.closing) ∨
        first + count ≤ p.lastLine) := by
  have hconnects : (skippedRow pen s first count).Connects pen s.lanes
      fun p => p.isOpenBelow (first - 1) [] = true :=
    h.connects_between pen (by simp [Glyphs.inCells]) rfl
  refine hconnects.congr fun p k hp => ?_
  have hmem := (h.mem_of_mem_lanes hp).1
  have hpos := h.skipped_pos first count hw
  -- No label starts or ends in a line that is skipped.
  have haway : ∀ line, line = p.firstLine ∨ line = p.lastLine →
      line < first ∨ first + count ≤ line := fun line hend =>
    h.ascending.lt_or_le_of_line_mem hw (h.mem_window p hmem line hend) WindowEntry.noConfusion
  have hfirst := haway _ (Or.inl rfl)
  have hlast := haway _ (Or.inr rfl)
  have hnone : ¬ ∃ r ∈ [skippedRow pen s first count], r.kind = p.closing := by
    rintro ⟨r, hr, hkind⟩
    rw [List.mem_singleton.1 hr] at hkind
    unfold Placement.closing at hkind
    split at hkind <;> cases hkind
  rw [or_iff_right hnone, Placement.isOpenBelow, decide_eq_true_eq]
  simp only [List.not_mem_nil, and_false, or_false]
  omega

/-- **Every row of a body connects the labels that are open on it.** -/
theorem connects (hsource : s.source = some source) {above below : List Row}
    (hrows : bodyRows pen s = above ++ row :: below) (hbody : row.kind.isBody = true) :
    row.Connects pen s.lanes fun p => p.IsOpenOn above row below := by
  obtain ⟨before, e, after, front, back, hw, heq, rfl, rfl⟩ :=
    exists_entry_of_split hsource hrows hbody
  have hentry : row.Connects pen s.lanes fun p => p.firstLine < e.stop ∧
      ((∃ r ∈ row :: back, r.kind = p.closing) ∨ e.stop ≤ p.lastLine) := by
    cases e with
    | line line => exact h.connects_lineRows heq
    | skipped first count =>
      obtain ⟨rfl, rfl, rfl⟩ : front = [] ∧ row = skippedRow pen s first count ∧ back = [] := by
        simpa [entryRows, List.singleton_eq_append_iff] using heq
      exact h.connects_skippedRow (by rw [hw]; simp)
  exact hentry.congr fun p k hp => h.isOpenOn_iff hw heq (h.mem_of_mem_lanes hp).1

end IsLaidOut

end Snippet

/-! ## Reports -/

/-- **Connectors reach from end to end.** In a rich report the rows for each source stand in one
place. On every row of these that shows something, a lane has at most one open label; its cell is
drawn, and the cells of the other lanes are blank, but for runs that start in a lane before. -/
theorem Report.connectors_connect (settings : Settings) (registry : Registry) (d : Diagnostic)
    (hrich : settings.detail = .rich) (file : SourceId) (hfile : file ∈ d.files) :
    body settings registry d file <:+: (ofDiagnostic settings registry d).rows ∧
      ∀ above row below, body settings registry d file = above ++ row :: below →
        row.kind.isBody = true →
        row.Connects (pen settings registry d) (Snippet.ofFile settings registry d file).lanes
          fun p => p.IsOpenOn above row below := by
  constructor
  · obtain ⟨above, below, heq, -⟩ := exists_rows_eq registry hrich hfile
    exact ⟨above, below, heq.symm⟩
  · intro above row below hrows hbody
    cases hs : registry.source? file with
    | none =>
      have hsource : (Snippet.ofFile settings registry d file).source = none := by
        simp only [Snippet.ofFile, hs]
      have hmem : row ∈ body settings registry d file := by rw [hrows]; simp
      rcases Snippet.kind_of_mem_bodyRows_of_none hsource hmem with hk | hk <;>
        rw [hk] at hbody <;> cases hbody
    | some s =>
      exact (Snippet.isLaidOut_ofFile settings d hs).connects (Snippet.source_ofFile hs) hrows hbody

/-- Two labels meet, and one of them goes on where lines are skipped: its cell is drawn there. -/
theorem Report.connectors_connect_skipped :
    let s : Source := ⟨.snippet "a", "a\nb\nc\nd\ne\nf\ng\nh\n", by decide, ⟨1⟩, false⟩
    let upper : Label := { span := ⟨⟨1⟩, 0, 3, by decide, by decide⟩, message := some "x" }
    let lower : Label := { span := ⟨⟨1⟩, 2, 14, by decide, by decide⟩ }
    let d : Diagnostic := { level := .error, labels := [upper, lower] }
    let snippet := Snippet.ofFile {} ⟨[⟨s, s.name, none⟩]⟩ d ⟨1⟩
    ({} : Settings).detail = .rich ∧ (⟨1⟩ : SourceId) ∈ d.files ∧
      ∃ above row below, body {} ⟨[⟨s, s.name, none⟩]⟩ d ⟨1⟩ = above ++ row :: below ∧
        row.kind = .skipped 3 2 ∧ (Placement.ofLabel s 1 lower).IsOpenOn above row below ∧
        ∃ lane c, (Placement.ofLabel s 1 lower, lane) ∈ snippet.lanes ∧
          row.margin[2 * lane]? = some c ∧ c.glyph.isBlank = false := by
  intro s upper lower d snippet
  have hs : (⟨[⟨s, s.name, none⟩]⟩ : Registry).source? ⟨1⟩ = some s := rfl
  have hlaid := Snippet.isLaidOut_ofFile {} d hs
  have hsource : snippet.source = some s := Snippet.source_ofFile hs
  have hwindow : snippet.window = [.line 0, .line 1, .line 2] ++ .skipped 3 2 ::
      [.line 5, .line 6, .line 7] := by decide +kernel
  have hplace : Placement.ofLabel s 1 lower ∈ snippet.labels ∧
      (Placement.ofLabel s 1 lower).isMultiline = true ∧
      (Placement.ofLabel s 1 lower).firstLine < 5 ∧ 5 ≤ (Placement.ofLabel s 1 lower).lastLine := by
    decide +kernel
  obtain ⟨lane, hlane⟩ := Lanes.exists_mem_assign hplace.1 hplace.2.1
  rw [← hlaid.lanes] at hlane
  -- The row stands behind the rows of the first three lines.
  have hentry : Snippet.entryRows (pen {} ⟨[⟨s, s.name, none⟩]⟩ d) snippet s (.skipped 3 2) =
      [] ++ Snippet.skippedRow (pen {} ⟨[⟨s, s.name, none⟩]⟩ d) snippet 3 2 :: [] := rfl
  have hrows := Snippet.bodyRows_eq_of_entry hsource hwindow hentry (List.ne_nil_of_mem hplace.1)
  have hfile : (⟨1⟩ : SourceId) ∈ d.files := by decide
  have hopen := (hlaid.isOpenOn_iff hwindow hentry hplace.1).2 ⟨hplace.2.2.1, Or.inr hplace.2.2.2⟩
  have hconnects := (connectors_connect {} ⟨[⟨s, s.name, none⟩]⟩ d rfl ⟨1⟩ hfile).2 _ _ _ hrows rfl
  obtain ⟨c, hc, hglyph⟩ := hconnects.drawn lane _ hlane hopen
  exact ⟨rfl, hfile, _, _, _, hrows, rfl, hopen, lane, c, hlane, hc, hglyph⟩

end SourceReport
