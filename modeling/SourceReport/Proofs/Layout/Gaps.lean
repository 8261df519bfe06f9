import Mathlib.Data.Finset.Sort
import Mathlib.Order.Interval.Finset.Nat
import SourceReport.Proofs.Layout.Window

/-!
# Gaps between the lines to be shown

The lines that labels show are gathered in a set: a label of one line adds that line, a label of
several lines its two ends with the context that the source has. A scan through the sorted set
compares each line with the one before, fills a short gap and skips a long one. The window that it
leaves covers the source from the first of the lines to the last one.

* `Placement.Reveals` tells which lines a label shows, `Placement.reveal` adds them to a set and
  `gatherLines` does so for all labels.
* `Window.extend` is a step of the scan.
* `Window.Covers` says what a window has to show of the lines it is made for.

Results:
* `mem_visibleLines_iff`, `visibleLines_eq_sort`: the lines to be shown are those gathered, sorted.
* `Window.ofLines_eq_foldl`: the window is what the scan leaves.
* `Window.between_cases`: a gap is filled or skipped.
* `Window.Covers.cons`, `covers_ofLines`: one more line in front, then any number of lines.
* `Source.isShown_ofLines`: all of this for labels in a source.
-/

namespace SourceReport

/-! ## The lines that labels show -/

namespace Placement

/-- The lines that a label shows of a source with so many lines. -/
inductive Reveals (lineCount : Nat) (before after : Int) (p : Placement) : Nat → Prop
  /-- A label of one line shows that line. -/
  | single : p.isMultiline = false → Reveals lineCount before after p p.firstLine
  /-- A label of several lines shows those of its two ends. -/
  | anchor {line : Nat} : p.isMultiline = true → line = p.firstLine ∨ line = p.lastLine →
      Reveals lineCount before after p line
  /-- It also shows the lines around an end that the source has. -/
  | context {anchor line : Nat} : p.isMultiline = true →
      anchor = p.firstLine ∨ anchor = p.lastLine → max (anchor - max before 0) 0 ≤ (line : Int) →
      (line : Int) ≤ min (anchor + max after 0) (lineCount - 1) →
      Reveals lineCount before after p line

/-- Adds an end of a label and the lines around it to the lines gathered so far. -/
def revealAround (lineCount : Nat) (before after : Int) (shown : Finset Nat) (anchor : Nat) :
    Finset Nat :=
  insert anchor shown ∪
    Finset.Ico (anchor - before.toNat) (min (anchor + after.toNat + 1) lineCount)

/-- Adds what a label shows to the lines gathered so far. -/
def reveal (lineCount : Nat) (before after : Int) (shown : Finset Nat) (p : Placement) :
    Finset Nat :=
  if p.isMultiline then
    [p.firstLine, p.lastLine].foldl (revealAround lineCount before after) shown
  else insert p.firstLine shown

variable {p : Placement} {lineCount line : Nat} {before after : Int}

theorem mem_revealAround {shown : Finset Nat} {anchor : Nat} :
    line ∈ revealAround lineCount before after shown anchor ↔ line ∈ shown ∨ line = anchor ∨
      max (anchor - max before 0) 0 ≤ (line : Int) ∧
        (line : Int) ≤ min (anchor + max after 0) (lineCount - 1) := by
  rw [revealAround, Finset.mem_union, Finset.mem_insert, Finset.mem_Ico, or_assoc, or_left_comm]
  refine or_congr_right (or_congr_right ?_)
  omega

theorem reveals_iff : p.Reveals lineCount before after line ↔
    if p.isMultiline then ∃ anchor, (anchor = p.firstLine ∨ anchor = p.lastLine) ∧
      (line = anchor ∨ max (anchor - max before 0) 0 ≤ (line : Int) ∧
        (line : Int) ≤ min (anchor + max after 0) (lineCount - 1))
    else line = p.firstLine := by
  constructor
  · rintro (hsingle | ⟨hseveral, hend⟩ | ⟨hseveral, hend, hlow, hhigh⟩)
    · rw [if_neg (by simp [hsingle])]
    · rw [if_pos hseveral]
      exact ⟨line, hend, Or.inl rfl⟩
    · rw [if_pos hseveral]
      exact ⟨_, hend, Or.inr ⟨hlow, hhigh⟩⟩
  · split
    · next hseveral =>
      rintro ⟨anchor, hend, rfl | ⟨hlow, hhigh⟩⟩
      · exact .anchor hseveral hend
      · exact .context hseveral hend hlow hhigh
    · next hsingle =>
      rintro rfl
      exact .single (Bool.eq_false_of_not_eq_true hsingle)

/-- **One more label** adds the lines that it shows. -/
theorem mem_reveal {shown : Finset Nat} : line ∈ reveal lineCount before after shown p ↔
    line ∈ shown ∨ p.Reveals lineCount before after line := by
  rw [reveals_iff, reveal]
  split
  · simp only [List.foldl_cons, List.foldl_nil, mem_revealAround, or_assoc, or_and_right,
      exists_or, exists_eq_left]
  · rw [Finset.mem_insert, or_comm]

/-- A line of the source is shown if it is an end of the label or belongs to the context. -/
theorem shows_iff_reveals (h : line < lineCount) :
    p.shows before after line = true ↔ p.Reveals lineCount before after line := by
  rw [reveals_iff, shows]
  split
  · simp only [List.any_eq_true, List.mem_cons, List.not_mem_nil, or_false, decide_eq_true_iff]
    refine exists_congr fun anchor => and_congr_right fun _ => ?_
    omega
  · exact decide_eq_true_iff

/-- A label in a source shows lines of that source. -/
theorem Reveals.lt (h : p.Reveals lineCount before after line)
    (hp : p.firstLine < lineCount ∧ p.lastLine < lineCount) : line < lineCount := by
  rcases h with _ | ⟨-, hend⟩ | ⟨-, -, -, hhigh⟩ <;> omega

end Placement

/-- The lines that labels show, gathered label by label. -/
def gatherLines (ps : List Placement) (lineCount : Nat) (before after : Int) : Finset Nat :=
  ps.foldl (Placement.reveal lineCount before after) ∅

section Visible

variable {ps : List Placement} {lineCount line : Nat} {before after : Int}

theorem mem_foldl_reveal (shown : Finset Nat) :
    line ∈ ps.foldl (Placement.reveal lineCount before after) shown ↔
      line ∈ shown ∨ ∃ p ∈ ps, p.Reveals lineCount before after line := by
  induction ps generalizing shown with
  | nil => simp
  | cons p ps ih => rw [List.foldl_cons, ih, Placement.mem_reveal, or_assoc, List.exists_mem_cons_iff]

/-- **The lines gathered** are those that some label shows. -/
theorem mem_gatherLines : line ∈ gatherLines ps lineCount before after ↔
    ∃ p ∈ ps, p.Reveals lineCount before after line := by
  simp [gatherLines, mem_foldl_reveal]

/-- **The lines to be shown** are those that some label shows. -/
theorem mem_visibleLines_iff
    (hps : ∀ p ∈ ps, p.firstLine < lineCount ∧ p.lastLine < lineCount) :
    line ∈ visibleLines ps lineCount before after ↔
      ∃ p ∈ ps, p.Reveals lineCount before after line := by
  rw [visibleLines, List.mem_filter, List.mem_range, List.any_eq_true]
  constructor
  · rintro ⟨hlt, p, hp, hshows⟩
    exact ⟨p, hp, (Placement.shows_iff_reveals hlt).1 hshows⟩
  · rintro ⟨p, hp, hreveals⟩
    have hlt : line < lineCount := hreveals.lt (hps p hp)
    exact ⟨hlt, p, hp, (Placement.shows_iff_reveals hlt).2 hreveals⟩

/-- **Sorting the lines gathered** gives the lines to be shown. -/
theorem visibleLines_eq_sort
    (hps : ∀ p ∈ ps, p.firstLine < lineCount ∧ p.lastLine < lineCount) :
    visibleLines ps lineCount before after = (gatherLines ps lineCount before after).sort := by
  have hsame : (visibleLines ps lineCount before after).toFinset =
      gatherLines ps lineCount before after := by
    ext line
    rw [List.mem_toFinset, mem_visibleLines_iff hps, mem_gatherLines]
  have hsorted : (visibleLines ps lineCount before after).Pairwise (· < ·) := pairwise_visibleLines
  rw [← hsame]
  exact ((List.toFinset_sort _ (hsorted.imp Nat.ne_of_lt)).2 (hsorted.imp Nat.le_of_lt)).symm

end Visible

/-! ## Windows -/

namespace WindowEntry

/-- The lines that an entry stands for. -/
def lines : WindowEntry → List Nat
  | .line index => [index]
  | .skipped first count => List.range' first count

/-- Whether the entry is a line that is printed. -/
def isPrinted : WindowEntry → Bool
  | .line _ => true
  | .skipped .. => false

/-- One of two entries is a line that is printed. -/
def HaveLine (a b : WindowEntry) : Prop := a.isPrinted = true ∨ b.isPrinted = true

end WindowEntry

namespace Window

variable {threshold : Int} {previous next : Nat} {w : Window}

/-- The lines from the first to the last of ascending ones. -/
def runOf : List Nat → List Nat
  | [] => []
  | first :: rest => List.range' first (rest.getLastD first + 1 - first)

/-- What a window shows of the lines that it is made for. -/
structure Covers (threshold : Int) (lines : List Nat) (w : Window) : Prop where
  /-- Its entries stand for all lines from the first to the last one, each once and in order. -/
  expands : w.flatMap WindowEntry.lines = runOf lines
  prints : ∀ line ∈ lines, .line line ∈ w
  /-- A skipped run is longer than the threshold, and the lines around it are printed. -/
  skips : ∀ first count : Nat, .skipped first count ∈ w → max threshold 0 < count ∧ 0 < first ∧
    [.line (first - 1), .skipped first count, .line (first + count)] <:+: w
  /-- No two neighbours are skipped runs. -/
  apart : w.IsChain WindowEntry.HaveLine
  /-- Other lines are printed where they fill a gap of no more lines than the threshold. -/
  fills : ∀ line, .line line ∈ w → line ∉ lines → ∃ above below, [above, below] <:+: lines ∧
    above < line ∧ line < below ∧ (below : Int) - above - 1 ≤ max threshold 0

/-- Puts a line under a window, with the lines between it and the previous one. -/
def extend (threshold : Int) : Window × Option Nat → Nat → Window × Option Nat
  | (w, none), line => (w ++ [.line line], some line)
  | (w, some previous), line =>
    let gap : Int := line - previous - 1
    let threshold := max threshold 0
    let filling : Window :=
      if 0 < gap ∧ gap ≤ threshold then (List.range' (previous + 1) gap.toNat).map .line
      else if threshold < gap then [.skipped (previous + 1) gap.toNat]
      else []
    (w ++ filling ++ [.line line], some line)

/-- **A gap** is filled with its lines, or it is one entry if it has more lines than the
threshold. -/
theorem between_cases (threshold : Int) (h : previous < next) :
    ((next : Int) - previous - 1 ≤ max threshold 0 ∧ between threshold previous next =
      (List.range' (previous + 1) (next - (previous + 1))).map .line) ∨
    (max threshold 0 < (next : Int) - previous - 1 ∧ between threshold previous next =
      [.skipped (previous + 1) (next - (previous + 1))]) := by
  unfold between
  dsimp only
  rw [Nat.sub_sub]
  split
  · next hcount =>
    refine Or.inl ⟨by omega, ?_⟩
    rw [hcount]
    rfl
  · split
    · refine Or.inl ⟨by omega, ?_⟩
      rw [List.range'_eq_map_range, List.map_map]
      rfl
    · exact Or.inr ⟨by omega, rfl⟩

theorem extend_eq (w : Window) (previous line : Nat) :
    extend threshold (w, some previous) line =
      (w ++ between threshold previous line ++ [.line line], some line) := by
  unfold extend
  dsimp only
  congr 3
  rcases Nat.lt_or_ge previous line with hlt | hle
  · have hgap : ((line : Int) - previous - 1).toNat = line - (previous + 1) := by omega
    rcases between_cases threshold hlt with ⟨hfit, heq⟩ | ⟨hfit, heq⟩
    · rw [heq, hgap]
      split
      · rfl
      · next hnone =>
        have hzero : line - (previous + 1) = 0 := by omega
        rw [if_neg (by omega), hzero]
        rfl
    · rw [heq, hgap, if_neg (by omega), if_pos hfit]
  · -- Lines out of order leave no gap, and the threshold is never below zero.
    rw [between_of_le hle, if_neg (by omega), if_neg (by omega)]

theorem foldl_extend (lines : List Nat) (w : Window) (previous : Nat) :
    (lines.foldl (extend threshold) (w, some previous)).1 =
      w ++ onward threshold previous lines := by
  induction lines generalizing w previous with
  | nil => rw [onward, List.append_nil]; rfl
  | cons line rest ih => rw [List.foldl_cons, extend_eq, ih, onward]; simp

/-- **The window of some lines** is what the scan through them leaves. -/
theorem ofLines_eq_foldl (threshold : Int) (lines : List Nat) :
    ofLines threshold lines = (lines.foldl (extend threshold) ([], none)).1 := by
  cases lines with
  | nil => rfl
  | cons line rest => exact (foldl_extend rest [.line line] line).symm

theorem flatMap_lines_between (h : previous < next) :
    (between threshold previous next).flatMap WindowEntry.lines =
      List.range' (previous + 1) (next - (previous + 1)) := by
  rcases between_cases threshold h with ⟨-, heq⟩ | ⟨-, heq⟩
  · rw [heq, List.flatMap_map]
    exact List.flatMap_singleton' _
  · rw [heq]
    exact List.append_nil _

/-- The run of ascending lines goes on in front of the first one. -/
theorem runOf_cons_cons {first : Nat} {rest : List Nat}
    (h : (first :: next :: rest).Pairwise (· < ·)) :
    runOf (first :: next :: rest) =
      first :: (List.range' (first + 1) (next - (first + 1)) ++ runOf (next :: rest)) := by
  obtain ⟨hfirst, hrest⟩ := List.pairwise_cons.1 h
  have hlt : first < next := hfirst next List.mem_cons_self
  have hle : next ≤ rest.getLastD next := by
    rcases List.mem_cons.1 (List.getLastD_mem_cons (l := rest) (a := next)) with heq | hmem
    · exact Nat.le_of_eq heq.symm
    · exact Nat.le_of_lt ((List.pairwise_cons.1 hrest).1 _ hmem)
  -- The run is the first line, the gap behind it and the run from the next line on.
  have hlength : rest.getLastD next + 1 - first =
      next - (first + 1) + (rest.getLastD next + 1 - next) + 1 := by omega
  have hnext : first + 1 + (next - (first + 1)) = next := by omega
  rw [runOf, runOf, List.getLastD_cons, hlength, List.range'_succ, ← List.range'_append_1, hnext]

/-- Printed lines do not put skipped runs side by side. -/
theorem isChain_append_of_isPrinted {v : Window} (hv : ∀ e ∈ v, e.isPrinted = true)
    (hw : w.IsChain WindowEntry.HaveLine) : (v ++ w).IsChain WindowEntry.HaveLine := by
  refine List.isChain_append.2 ⟨?_, hw, fun a ha b _ => Or.inl (hv a (List.mem_of_getLast? ha))⟩
  exact (List.pairwise_of_forall_mem_list fun a ha b _ => Or.inl (hv a ha)).isChain

/-- A gap puts no two skipped runs side by side. -/
theorem isChain_between (h : previous < next)
    (hw : (WindowEntry.line next :: w).IsChain WindowEntry.HaveLine) :
    (.line previous :: (between threshold previous next ++ .line next :: w)).IsChain
      WindowEntry.HaveLine := by
  rcases between_cases threshold h with ⟨-, heq⟩ | ⟨-, heq⟩
  · rw [heq, ← List.cons_append]
    refine isChain_append_of_isPrinted (fun e he => ?_) hw
    rcases List.mem_cons.1 he with rfl | he
    · rfl
    · obtain ⟨line, -, rfl⟩ := List.mem_map.1 he
      rfl
  · rw [heq]
    exact .cons_cons (Or.inl rfl) (.cons_cons (Or.inr rfl) hw)

/-- A gap with a skipped run is one that is too long, and the run is all of it. -/
theorem between_eq_of_skipped_mem {first count : Nat} (h : previous < next)
    (hmem : .skipped first count ∈ between threshold previous next) :
    between threshold previous next = [.skipped first count] ∧ first = previous + 1 ∧
      first + count = next ∧ max threshold 0 < count := by
  rcases between_cases threshold h with ⟨-, heq⟩ | ⟨hlong, heq⟩
  · rw [heq] at hmem
    obtain ⟨line, -, hline⟩ := List.mem_map.1 hmem
    cases hline
  · rw [heq] at hmem ⊢
    obtain ⟨rfl, rfl⟩ := WindowEntry.skipped.inj (List.mem_singleton.1 hmem)
    exact ⟨rfl, rfl, by omega, by omega⟩

/-- A gap with a printed line is one that is short enough. -/
theorem gap_le_of_line_mem {line : Nat} (h : previous < next)
    (hmem : .line line ∈ between threshold previous next) :
    (next : Int) - previous - 1 ≤ max threshold 0 := by
  rcases between_cases threshold h with ⟨hfit, -⟩ | ⟨-, heq⟩
  · exact hfit
  · rw [heq] at hmem
    cases List.mem_singleton.1 hmem

/-- **One more line in front** of the lines that a window shows. -/
theorem Covers.cons {first : Nat} {rest : List Nat}
    (hsorted : (first :: next :: rest).Pairwise (· < ·))
    (h : Covers threshold (next :: rest) (.line next :: w)) :
    Covers threshold (first :: next :: rest)
      (.line first :: (between threshold first next ++ .line next :: w)) := by
  have hlt : first < next := (List.pairwise_cons.1 hsorted).1 next List.mem_cons_self
  have hsuffix : .line next :: w <:+
      .line first :: (between threshold first next ++ .line next :: w) :=
    ⟨.line first :: between threshold first next, by simp⟩
  refine ⟨?expands, ?prints, ?skips, isChain_between hlt h.apart, ?fills⟩
  case expands =>
    rw [List.flatMap_cons, List.flatMap_append, h.expands, flatMap_lines_between hlt,
      runOf_cons_cons hsorted]
    rfl
  case prints =>
    rintro line (_ | ⟨_, hline⟩)
    · exact List.mem_cons_self
    · exact hsuffix.subset (h.prints line hline)
  case skips =>
    intro skipped count hmem
    rcases List.mem_append.1 ((List.mem_cons.1 hmem).resolve_left WindowEntry.noConfusion) with
      hmem | hmem
    · obtain ⟨heq, rfl, hnext, hlong⟩ := between_eq_of_skipped_mem hlt hmem
      refine ⟨hlong, Nat.succ_pos first, ⟨[], w, ?_⟩⟩
      rw [heq, hnext]
      rfl
    · obtain ⟨hlong, hpos, hinfix⟩ := h.skips skipped count hmem
      exact ⟨hlong, hpos, hinfix.trans hsuffix.isInfix⟩
  case fills =>
    intro line hmem hother
    obtain ⟨hfirst, hrest⟩ := not_or.1 (mt List.mem_cons.2 hother)
    rcases List.mem_append.1 ((List.mem_cons.1 hmem).resolve_left fun heq =>
      hfirst (WindowEntry.line.inj heq)) with hmem | hmem
    · obtain ⟨habove, -, hbelow⟩ := mem_between hmem hlt
      exact ⟨first, next, ⟨[], rest, rfl⟩, habove, hbelow, gap_le_of_line_mem hlt hmem⟩
    · obtain ⟨above, below, hinfix, hgap⟩ := h.fills line hmem hrest
      exact ⟨above, below, hinfix.trans (List.suffix_cons first _).isInfix, hgap⟩

/-- **The window of ascending lines** covers the source from the first to the last of them. -/
theorem covers_ofLines (threshold : Int) {lines : List Nat} (h : lines.Pairwise (· < ·)) :
    Covers threshold lines (ofLines threshold lines) := by
  induction lines with
  | nil =>
    refine ⟨rfl, ?_, ?_, .nil, ?_⟩
    · rintro line ⟨⟩
    · rintro skipped count ⟨⟩
    · rintro line ⟨⟩
  | cons first rest ih =>
    cases rest with
    | nil =>
      refine ⟨by simp [ofLines, onward, WindowEntry.lines, runOf], ?_, ?_, .singleton _, ?_⟩
      · rintro line (_ | ⟨_, ⟨⟩⟩)
        exact List.mem_cons_self
      · rintro skipped count (_ | ⟨_, ⟨⟩⟩)
      · rintro line (_ | ⟨_, ⟨⟩⟩) hother
        exact absurd List.mem_cons_self hother
    | cons next rest => exact Covers.cons h (ih (List.pairwise_cons.1 h).2)

example : ofLines 1 [0, 2, 6] = [.line 0, .line 1, .line 2, .skipped 3 3, .line 6] := by decide

end Window

/-! ## Labels in a source -/

namespace Source

/-- The places of labels in a source. -/
def placements (s : Source) (labels : List (Label × Nat)) : List Placement :=
  labels.map fun (label, index) => .ofLabel s index label

/-- What is shown of a source with labels in it. -/
structure IsShown (s : Source) (before after threshold : Int) (ps : List Placement)
    (lines : List Nat) (w : Window) : Prop where
  ascending : lines.Pairwise (· < ·)
  inside : ∀ line ∈ lines, line < s.lineCount
  reveals : ∀ line, line ∈ lines ↔ ∃ p ∈ ps, p.Reveals s.lineCount before after line
  covers : w.Covers threshold lines
  /-- The lines of the ends of a label are printed, and no run that is skipped holds them. -/
  ends : ∀ p ∈ ps, ∀ line, line = p.firstLine ∨ line = p.lastLine → .line line ∈ w ∧
    ∀ first count, .skipped first count ∈ w → ¬(first ≤ line ∧ line < first + count)

variable {s : Source} {labels : List (Label × Nat)}

/-- **The lines of a label** are lines of its source. -/
theorem lines_lt_of_mem_placements {p : Placement} (h : p ∈ s.placements labels) :
    p.firstLine < s.lineCount ∧ p.lastLine < s.lineCount := by
  obtain ⟨⟨label, index⟩, -, rfl⟩ := List.mem_map.1 h
  obtain ⟨first, hfirst⟩ := Placement.exists_firstLine s index label
  obtain ⟨last, hlast⟩ := Placement.exists_lastLine s index label
  exact ⟨(List.getElem?_eq_some_iff.1 hfirst).1, (List.getElem?_eq_some_iff.1 hlast).1⟩

/-- **What labels show of their source.** The lines to be shown ascend inside the source; they are
those of labels of one line, the ends of labels of several lines and the lines around them. The
window of these lines covers the source from the first to the last of them. No end of a label is
skipped. -/
theorem isShown_ofLines (s : Source) (labels : List (Label × Nat)) (before after threshold : Int) :
    s.IsShown before after threshold (s.placements labels)
      (visibleLines (s.placements labels) s.lineCount before after)
      (.ofLines threshold (visibleLines (s.placements labels) s.lineCount before after)) where
  ascending := pairwise_visibleLines
  inside _ hline := List.mem_range.1 (List.mem_filter.1 hline).1
  reveals _ := mem_visibleLines_iff fun _ => lines_lt_of_mem_placements
  covers := Window.covers_ofLines threshold pairwise_visibleLines
  ends p hp line hend := by
    have hlt : line < s.lineCount := by
      obtain ⟨hfirst, hlast⟩ := lines_lt_of_mem_placements hp
      rcases hend with rfl | rfl
      · exact hfirst
      · exact hlast
    have hprinted : .line line ∈ Window.ofLines threshold
        (visibleLines (s.placements labels) s.lineCount before after) :=
      Window.mem_ofLines (mem_visibleLines hp hend hlt)
    refine ⟨hprinted, fun first count hskipped ⟨hle, hlt⟩ => ?_⟩
    rcases (Window.isAscending_ofLines pairwise_visibleLines).lt_or_le_of_line_mem hskipped hprinted
      WindowEntry.noConfusion with habove | hbelow
    · exact Nat.not_lt.2 hle habove
    · exact Nat.not_lt.2 hbelow hlt

end Source

end SourceReport
