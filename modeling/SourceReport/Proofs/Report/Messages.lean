import Mathlib.Data.List.Basic
import SourceReport.Proofs.Layout.Lanes
import SourceReport.Proofs.Report.Row
import SourceReport.Proofs.Report.Snippet
import SourceReport.Report.Body

/-!
# Messages below a line

The messages of the labels that end in a source line are printed below it, one block of rows for
each label. The blocks of labels of one line come first, in the order of their messages; then those
of labels of several lines, from the innermost lane outwards.

* `Row.shown` is what a row is for and its text, `Placement.block` is what is shown of a message.
* `Placement.StandsAbove` is the order of the blocks below a line, `Snippet.speakers` lists the
  labels whose messages stand there.

Results:
* `mem_speakers`, `pairwise_speakers`: who speaks below a line, and in which order.
* `exists_lineRows_eq`: the rows of a line are the line, its underlines and the blocks of messages.
* `exists_block_of_mem_speakers`: each of them is there once, and `exists_blocks_of_standsAbove`: in
  order.
-/

namespace SourceReport

/-- What a row is for, and its text. -/
def Row.shown (r : Row) : RowKind × Text := (r.kind, runsText r.text)

namespace Placement

/-- What stands in front of each row of a message. -/
def messageLead (p : Placement) : Text := if p.isMultiline then [] else " "

/-- What is shown of the message of a label: one row for each line of it. -/
def block (p : Placement) : List (RowKind × Text) :=
  p.messageRows.mapIdx fun n line => (.message p.index n, p.messageLead ++ line)

theorem mem_block {p : Placement} {kind : RowKind} {t : Text} (h : (kind, t) ∈ p.block) :
    ∃ n, kind = .message p.index n := by
  obtain ⟨n, _, heq⟩ := List.mem_mapIdx.1 h
  exact ⟨n, (Prod.mk.inj heq).1.symm⟩

/-- A message has a first row, even if nothing is on it. -/
theorem exists_block_eq_cons (p : Placement) :
    ∃ t more, p.block = (.message p.index 0, t) :: more := by
  obtain ⟨line, lines, hlines⟩ := List.exists_cons_of_ne_nil
    (List.splitOn_ne_nil ('\n' : CodePoint) (p.message?.getD []))
  unfold block messageRows Text.rows
  rw [hlines, List.mapIdx_cons]
  exact ⟨_, _, rfl⟩

/-- The message of a label stands above that of another one which ends in the same line. -/
def StandsAbove (lanes : Lanes) (p q : Placement) : Prop :=
  match p.isMultiline, q.isMultiline with
  | false, false => p.SpeaksBefore q
  | false, true => True
  | true, false => False
  | true, true => ∃ j k, lanes.lane? p = some j ∧ lanes.lane? q = some k ∧ k < j

theorem StandsAbove.not_symm {lanes : Lanes} {p q : Placement} (h : p.StandsAbove lanes q) :
    ¬ q.StandsAbove lanes p := by
  unfold StandsAbove at h ⊢
  cases hp : p.isMultiline <;> cases hq : q.isMultiline <;>
    simp only [hp, hq, not_false_eq_true] at h ⊢
  · unfold SpeaksBefore at h ⊢
    omega
  · rintro ⟨j, k, hj, hk, hlt⟩
    obtain ⟨j', k', hj', hk', hlt'⟩ := h
    rw [hj, Option.some.injEq] at hk'
    rw [hk, Option.some.injEq] at hj'
    omega

end Placement

/-! ## Who speaks below a line -/

namespace Snippet

variable {s : Snippet} {line lane : Nat} {p q : Placement}

/-- The labels whose messages stand below a line, from the top. -/
def speakers (s : Snippet) (line : Nat) : List Placement :=
  Placement.messageOrder (s.labels.filter fun p => !p.isMultiline && p.firstLine = line)
    ++ (s.endings line).map (·.1)

theorem mem_endings :
    (p, lane) ∈ s.endings line ↔
      (p, lane) ∈ s.lanes ∧ p.lastLine = line ∧ p.hasMessage = true := by
  unfold endings
  simp

theorem mem_lineLabels :
    p ∈ s.labels.filter (fun p => !p.isMultiline && p.firstLine = line) ↔
      p ∈ s.labels ∧ p.isMultiline = false ∧ p.lastLine = line := by
  rw [List.mem_filter]
  simp only [Bool.and_eq_true, Bool.not_eq_true', decide_eq_true_eq]
  refine and_congr_right fun _ => and_congr_right fun hsingle => ?_
  rw [show p.firstLine = p.lastLine by simpa [Placement.isMultiline] using hsingle]

namespace IsLaidOut

variable (h : s.IsLaidOut)

include h

/-- **Every label that ends in a line and has a message** speaks below it, and no other one does. -/
theorem mem_speakers :
    p ∈ s.speakers line ↔ p ∈ s.labels ∧ p.hasMessage = true ∧ p.lastLine = line := by
  unfold speakers
  rw [List.mem_append, Placement.mem_messageOrder, mem_lineLabels]
  constructor
  · rintro (⟨⟨hmem, -, hline⟩, hmessage⟩ | hending)
    · exact ⟨hmem, hmessage, hline⟩
    · obtain ⟨⟨q, lane⟩, hq, rfl⟩ := List.mem_map.1 hending
      obtain ⟨hlane, hline, hmessage⟩ := mem_endings.1 hq
      exact ⟨(h.mem_of_mem_lanes hlane).1, hmessage, hline⟩
  · rintro ⟨hmem, hmessage, hline⟩
    cases hmulti : p.isMultiline with
    | false => exact Or.inl ⟨⟨hmem, rfl, hline⟩, hmessage⟩
    | true =>
      obtain ⟨lane, hlane⟩ := Lanes.exists_mem_assign hmem hmulti
      rw [← h.lanes] at hlane
      exact Or.inr (List.mem_map.2 ⟨(p, lane), mem_endings.2 ⟨hlane, hline, hmessage⟩, rfl⟩)

theorem isMultiline_of_mem_endings {e : Placement × Nat} (he : e ∈ s.endings line) :
    e.1.isMultiline = true :=
  (h.mem_of_mem_lanes (mem_endings.1 he).1).2

/-- Labels that end in one line have different lanes, so their order is strict. -/
theorem pairwise_endings (line : Nat) : (s.endings line).Pairwise fun a b => b.2 < a.2 := by
  have hsorted : (s.endings line).Pairwise fun a b => b.2 ≤ a.2 :=
    Lanes.pairwise_sorted (· ≥ ·) _
  have hapart : (s.endings line).Pairwise fun a b => a.2 ≠ b.2 := by
    refine ((List.mergeSort_perm _ _).pairwise_iff fun hab heq => hab heq.symm).2 ?_
    refine List.pairwise_filter.2 ?_
    rw [h.lanes]
    refine List.Pairwise.imp_of_mem ?_ (Lanes.pairwise_assign s.labels)
    intro a b ha hb hbelow haline hbline heq
    simp only [decide_eq_true_eq] at haline hbline
    have hlt := hbelow heq
    have hle := h.ordered b.1 (Lanes.mem_of_mem_assign hb).1
    omega
  exact (hsorted.and hapart).imp fun ⟨hle, hne⟩ => Nat.lt_of_le_of_ne hle (Ne.symm hne)

/-- **The blocks are in order.** -/
theorem pairwise_speakers (line : Nat) :
    (s.speakers line).Pairwise fun p q => p.StandsAbove s.lanes q := by
  have hsingle : ∀ p ∈ Placement.messageOrder
      (s.labels.filter fun p => !p.isMultiline && p.firstLine = line), p.isMultiline = false :=
    fun p hp => (mem_lineLabels.1 (Placement.mem_messageOrder.1 hp).1).2.1
  have hlane : ∀ e ∈ s.endings line, s.lanes.lane? e.1 = some e.2 := by
    intro e he
    have hmem := (mem_endings.1 he).1
    rw [h.lanes] at hmem ⊢
    exact (Lanes.lane?_assign_eq_some_iff h.indices).2 hmem
  refine List.pairwise_append.2 ⟨?_, List.pairwise_map.2 ?_, ?_⟩
  · have hnodup : ((s.labels.filter fun p => !p.isMultiline && p.firstLine = line).map
        (·.index)).Nodup := h.indices.sublist (List.filter_sublist.map _)
    refine List.Pairwise.imp_of_mem ?_ (Placement.pairwise_messageOrder hnodup)
    intro p q hp hq hbefore
    unfold Placement.StandsAbove
    rw [hsingle p hp, hsingle q hq]
    exact hbefore
  · refine List.Pairwise.imp_of_mem ?_ (h.pairwise_endings line)
    intro a b ha hb hlt
    unfold Placement.StandsAbove
    rw [h.isMultiline_of_mem_endings ha, h.isMultiline_of_mem_endings hb]
    exact ⟨a.2, b.2, hlane a ha, hlane b hb, hlt⟩
  · intro p hp q hq
    obtain ⟨e, he, rfl⟩ := List.mem_map.1 hq
    unfold Placement.StandsAbove
    rw [hsingle p hp, h.isMultiline_of_mem_endings he]
    trivial

/-- The labels of a snippet are told apart by their indices. -/
theorem index_ne (hp : p ∈ s.labels) (hq : q ∈ s.labels) (hne : p ≠ q) : p.index ≠ q.index := by
  have hapart : s.labels.Pairwise fun p q => p.index ≠ q.index := List.pairwise_map.1 h.indices
  have hsymm : Std.Symm fun p q : Placement => p.index ≠ q.index := ⟨fun _ _ hpq => hpq.symm⟩
  exact hapart.forall hp hq hne

end IsLaidOut

end Snippet

/-! ## The rows of messages -/

namespace Marks

variable (pen : Pen)

theorem map_fst_ofLabels (display : DisplayLine) (labels : List Placement) :
    (ofLabels pen display labels).map (·.1) = labels := by
  rw [ofLabels, List.map_map, Function.comp_def, List.map_id']

/-- The labels with messages keep their cells. -/
theorem withMessages_ofLabels (display : DisplayLine) (labels : List Placement) :
    (ofLabels pen display labels).withMessages =
      ofLabels pen display (Placement.messageOrder labels) := by
  have hlookup : ∀ p ∈ Placement.messageOrder labels,
      ((ofLabels pen display labels).lookup p).map (fun range => (p, range)) =
        some (p, .ofPlacement display pen.settings.attach p) := by
    intro p hp
    rw [ofLabels, List.lookup_graph _ (Placement.mem_messageOrder.1 hp).1]
    rfl
  rw [withMessages, map_fst_ofLabels, List.filterMap_congr hlookup, ofLabels]
  exact congrFun List.filterMap_eq_map _

end Marks

namespace Snippet

variable (pen : Pen) (s : Snippet)

theorem map_shown_messageRows (p : Placement) (margin margins cells cellsBelow : List Cell)
    (lead : Text) :
    (messageRows pen p margin margins cells cellsBelow lead).map Row.shown =
      p.messageRows.mapIdx fun n line => (.message p.index n, lead ++ line) := by
  refine List.ext_getElem? fun n => ?_
  rw [messageRows, List.getElem?_map, List.getElem?_mapIdx, List.getElem?_mapIdx, Option.map_map]
  refine congrFun (congrArg Option.map (funext fun line => ?_)) _
  simp [Row.shown, runsText]

/-- The messages of labels of one line are their blocks. -/
theorem map_shown_markMessages (margin : List Cell) (column : Nat) {marks : Marks}
    (h : ∀ m ∈ marks, m.1.isMultiline = false) :
    (markMessages pen margin column marks).map Row.shown = (marks.map (·.1)).flatMap (·.block) := by
  induction marks with
  | nil => rfl
  | cons m later ih =>
    obtain ⟨p, range⟩ := m
    have hp : p.isMultiline = false := h _ List.mem_cons_self
    rw [markMessages, List.map_append, map_shown_messageRows, List.map_cons, List.flatMap_cons,
      ih fun m hm => h m (List.mem_cons_of_mem _ hm), Placement.block, Placement.messageLead, hp]
    rfl

/-- The messages of labels of several lines are their blocks. -/
theorem map_shown_endingMessages (line : Nat) {endings : Lanes}
    (h : ∀ e ∈ endings, e.1.isMultiline = true) :
    (endingMessages pen s line endings).map Row.shown = (endings.map (·.1)).flatMap (·.block) := by
  induction endings with
  | nil => rfl
  | cons e later ih =>
    obtain ⟨p, lane⟩ := e
    have hp : p.isMultiline = true := h _ List.mem_cons_self
    rw [endingMessages, List.map_append, map_shown_messageRows, List.map_cons, List.flatMap_cons,
      ih fun e he => h e (List.mem_cons_of_mem _ he), Placement.block, Placement.messageLead, hp]
    rfl

/-- The row of underlines and the messages of the labels of one line. -/
theorem exists_markRows_eq (line : Nat) (pending : List Placement) (display : DisplayLine)
    {labels : List Placement} (hsingle : ∀ p ∈ labels, p.isMultiline = false) :
    ∃ underlines messages,
      markRows pen s line pending (.ofLabels pen display labels) = underlines ++ messages ∧
      (∀ r ∈ underlines, r.kind = .underline line) ∧
      messages.map Row.shown = (Placement.messageOrder labels).flatMap (·.block) := by
  unfold markRows
  split
  · next hnil =>
    rw [Marks.ofLabels, List.isEmpty_map, List.isEmpty_iff] at hnil
    subst hnil
    exact ⟨[], [], rfl, fun _ hr => (by cases hr), by simp [Placement.messageOrder,
      Placement.sortOn]⟩
  · dsimp only
    rw [Marks.withMessages_ofLabels]
    refine ⟨[_], _, rfl, fun r hr => ?_, ?_⟩
    · rw [List.mem_singleton.1 hr]
    · rw [map_shown_markMessages, Marks.map_fst_ofLabels]
      intro m hm
      obtain ⟨p, hp, rfl⟩ := List.mem_map.1 hm
      exact hsingle p (Placement.mem_messageOrder.1 hp).1

/-- **The rows of a line**: the line, the underlines of its labels, and the blocks of the messages
that stand below it. -/
theorem IsLaidOut.exists_lineRows_eq {s : Snippet} (h : s.IsLaidOut) (source : Source)
    (line : Nat) :
    ∃ display underlines messages,
      lineRows pen s source line = sourceRow pen s line display :: (underlines ++ messages) ∧
      (∀ r ∈ underlines, r.kind = .underline line) ∧
      messages.map Row.shown = (s.speakers line).flatMap (·.block) := by
  have hsingle : ∀ p ∈ s.labels.filter (fun p => !p.isMultiline && p.firstLine = line),
      p.isMultiline = false := fun p hp => (mem_lineLabels.1 hp).2.1
  obtain ⟨underlines, marks, hmarks, hunderlines, hshown⟩ := exists_markRows_eq pen s line
    ((s.endings line).map (·.1))
    (.ofLine pen.settings.tabWidth ((source.lines[line]?.map (·.raw)).getD [])) hsingle
  refine ⟨.ofLine pen.settings.tabWidth ((source.lines[line]?.map (·.raw)).getD []), underlines,
    marks ++ endingMessages pen s line (s.endings line), ?_, hunderlines, ?_⟩
  · unfold lineRows marksOn
    dsimp only
    rw [hmarks, List.cons_append, List.append_assoc]
  · rw [List.map_append, hshown, map_shown_endingMessages pen s line
      fun e he => h.isMultiline_of_mem_endings he, speakers, List.flatMap_append]

/-- A row of the blocks of some labels belongs to one of them. -/
theorem exists_message_of_mem {rows : List Row} {ps : List Placement}
    (h : rows.map Row.shown = ps.flatMap (·.block)) {r : Row} (hr : r ∈ rows) :
    ∃ p ∈ ps, ∃ n, r.kind = .message p.index n := by
  have hmem : r.shown ∈ ps.flatMap (·.block) := h ▸ List.mem_map.2 ⟨r, hr, rfl⟩
  obtain ⟨p, hp, hblock⟩ := List.mem_flatMap.1 hmem
  exact ⟨p, hp, Placement.mem_block hblock⟩

namespace IsLaidOut

variable {s} (h : s.IsLaidOut)

include h

/-- What kinds of rows belong to a line. -/
theorem kind_of_mem_lineRows {source : Source} {line : Nat} {r : Row}
    (hr : r ∈ lineRows pen s source line) :
    r.kind = .source line ∨ r.kind = .underline line ∨
      ∃ p ∈ s.speakers line, ∃ n, r.kind = .message p.index n := by
  obtain ⟨display, underlines, messages, heq, hunderlines, hshown⟩ :=
    h.exists_lineRows_eq pen source line
  rw [heq] at hr
  rcases List.mem_cons.1 hr with rfl | hr
  · exact Or.inl rfl
  · rcases List.mem_append.1 hr with hr | hr
    · exact Or.inr (Or.inl (hunderlines r hr))
    · exact Or.inr (Or.inr (exists_message_of_mem hshown hr))

/-- **The message of a label** is one block of rows below its last line. -/
theorem exists_block_of_mem_speakers (source : Source) {line : Nat} {p : Placement}
    (hp : p ∈ s.speakers line) :
    ∃ top between block below, lineRows pen s source line = top :: (between ++ block ++ below) ∧
      top.kind = .source line ∧ block.map Row.shown = p.block ∧
      ∀ r ∈ between ++ below, r.kind = .underline line ∨
        ∃ i n, i ≠ p.index ∧ r.kind = .message i n := by
  obtain ⟨display, underlines, messages, heq, hunderlines, hshown⟩ :=
    h.exists_lineRows_eq pen source line
  have hsorted := h.pairwise_speakers line
  obtain ⟨before, after, hsplit⟩ := List.append_of_mem hp
  rw [hsplit, List.flatMap_append, List.flatMap_cons, List.map_eq_append_iff] at hshown
  obtain ⟨front, rest, rfl, hfront, hrest⟩ := hshown
  obtain ⟨block, back, rfl, hblock, hback⟩ := List.map_eq_append_iff.1 hrest
  refine ⟨sourceRow pen s line display, underlines ++ front, block, back, ?_, rfl, hblock, ?_⟩
  · rw [heq, List.append_assoc, List.append_assoc]
  · -- The labels above and below in the list are other ones, as the order is strict.
    rw [hsplit] at hsorted
    obtain ⟨-, htail, hcross⟩ := List.pairwise_append.1 hsorted
    have hother : ∀ q ∈ before ++ after, q.index ≠ p.index := by
      intro q hq
      have hmem : q ∈ s.speakers line := by
        rw [hsplit]
        rcases List.mem_append.1 hq with hq | hq <;> simp [hq]
      refine h.index_ne (h.mem_speakers.1 hmem).1 (h.mem_speakers.1 hp).1 ?_
      rintro rfl
      rcases List.mem_append.1 hq with hq | hq
      · have hself := hcross q hq q List.mem_cons_self
        exact hself.not_symm hself
      · have hself := (List.pairwise_cons.1 htail).1 q hq
        exact hself.not_symm hself
    intro r hr
    simp only [List.mem_append] at hr
    rcases hr with (hr | hr) | hr
    · exact Or.inl (hunderlines r hr)
    · obtain ⟨q, hq, n, hn⟩ := exists_message_of_mem hfront hr
      exact Or.inr ⟨q.index, n, hother q (List.mem_append_left _ hq), hn⟩
    · obtain ⟨q, hq, n, hn⟩ := exists_message_of_mem hback hr
      exact Or.inr ⟨q.index, n, hother q (List.mem_append_right _ hq), hn⟩

/-- **The blocks below a line are in order.** -/
theorem exists_blocks_of_standsAbove (source : Source) {line : Nat} {p q : Placement}
    (hp : p ∈ s.speakers line) (hq : q ∈ s.speakers line) (hpq : p.StandsAbove s.lanes q) :
    ∃ above upper between lower below,
      lineRows pen s source line = above ++ upper ++ between ++ lower ++ below ∧
      upper.map Row.shown = p.block ∧ lower.map Row.shown = q.block := by
  obtain ⟨display, underlines, messages, heq, -, hshown⟩ := h.exists_lineRows_eq pen source line
  have hsorted := h.pairwise_speakers line
  obtain ⟨before, after, hsplit⟩ := List.append_of_mem hp
  have hafter : q ∈ after := by
    rw [hsplit] at hsorted hq
    obtain ⟨-, -, hcross⟩ := List.pairwise_append.1 hsorted
    rcases List.mem_append.1 hq with hq | hq
    · exact absurd (hcross q hq p List.mem_cons_self) hpq.not_symm
    · rcases List.mem_cons.1 hq with rfl | hq
      · exact absurd hpq hpq.not_symm
      · exact hq
  obtain ⟨middle, last, rfl⟩ := List.append_of_mem hafter
  rw [hsplit] at hshown
  simp only [List.flatMap_append, List.flatMap_cons, List.map_eq_append_iff] at hshown
  obtain ⟨front, _, rfl, -, upper, _, rfl, hupper, between, _, rfl, -, lower, below, rfl, hlower,
    -⟩ := hshown
  refine ⟨sourceRow pen s line display :: (underlines ++ front), upper, between, lower, below, ?_,
    hupper, hlower⟩
  rw [heq]
  simp only [List.cons_append, List.append_assoc]

end IsLaidOut

end Snippet

end SourceReport
