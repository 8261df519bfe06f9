import SourceReport.Proofs.Source.Lookup
import SourceReport.Report.Snippet

/-!
# Lines that are shown

A label stands in lines that its source has, and shows those in which it starts and ends. The window
of a snippet prints every line to be shown, in ascending order, and its last number is the largest
one it prints.

* `Window.IsAscending` says that the entries of a window go downwards in the source.

Results:
* `Placement.exists_firstLine`, `exists_lastLine`: the lines of the ends of a label are there.
* `Placement.columns_eq_of_length_eq_zero`: an empty label ends in the column where it starts.
* `mem_visibleLines`, `Window.mem_ofLines`: the lines of the ends of a label are printed.
* `Window.isAscending_ofLines`: no line is printed twice.
* `Snippet.lt_lastNumber`: no line number is larger than the last one.
-/

namespace SourceReport

/-! ## Placements -/

namespace Placement

variable {s : Source} {index : Nat} {label : Label}

/-- **The first line of a label** is one of its source. -/
theorem exists_firstLine (s : Source) (index : Nat) (label : Label) :
    ∃ l, s.lines[(ofLabel s index label).firstLine]? = some l :=
  ⟨_, s.getElem?_index_lineFrom _⟩

/-- An empty label ends in the column where it starts. -/
theorem columns_eq_of_length_eq_zero (h : (ofLabel s index label).length = 0) :
    (ofLabel s index label).startColumn = (ofLabel s index label).stopColumn := by
  unfold ofLabel length at h
  unfold ofLabel
  dsimp only at h ⊢
  have hstop : max (s.floorBoundary label.span.stop) (s.floorBoundary label.span.start) =
      s.floorBoundary label.span.start := by omega
  rw [hstop, Nat.max_eq_right (Nat.sub_le _ 1)]

/-- The last line of a label is one of its source. -/
theorem exists_lastLine (s : Source) (index : Nat) (label : Label) :
    ∃ l, s.lines[(ofLabel s index label).lastLine]? = some l :=
  ⟨_, s.getElem?_index_lineFrom _⟩

/-- **A label does not end before the line where it starts.** -/
theorem firstLine_le_lastLine (s : Source) (index : Nat) (label : Label) :
    (ofLabel s index label).firstLine ≤ (ofLabel s index label).lastLine :=
  Source.index_lineFrom_mono (Nat.le_max_right _ _)

/-- A label shows the lines of its ends. -/
theorem shows_of_isEnd {p : Placement} {line : Nat} (h : line = p.firstLine ∨ line = p.lastLine)
    (before after : Int) : p.shows before after line = true := by
  unfold shows
  split
  · rw [List.any_eq_true]
    refine ⟨line, ?_, by simp⟩
    rcases h with rfl | rfl <;> simp
  · next hsingle =>
    have heq : p.firstLine = p.lastLine := by simpa [isMultiline] using hsingle
    rw [← heq, or_self] at h
    simp [h]

end Placement

section Visible

variable {ps : List Placement} {lineCount : Nat} {before after : Int}

/-- **The lines of the ends of a label** are to be shown. -/
theorem mem_visibleLines {p : Placement} {line : Nat} (hp : p ∈ ps)
    (hend : line = p.firstLine ∨ line = p.lastLine) (hlt : line < lineCount) :
    line ∈ visibleLines ps lineCount before after := by
  refine List.mem_filter.2 ⟨List.mem_range.2 hlt, ?_⟩
  exact List.any_eq_true.2 ⟨p, hp, p.shows_of_isEnd hend before after⟩

/-- The lines to be shown are in ascending order. -/
theorem pairwise_visibleLines : (visibleLines ps lineCount before after).Pairwise (· < ·) :=
  List.pairwise_lt_range.filter _

end Visible

/-! ## Windows -/

namespace WindowEntry

/-- The first line of an entry. -/
def start : WindowEntry → Nat
  | .line index => index
  | .skipped first _ => first

/-- The line after the last one of an entry. -/
def stop : WindowEntry → Nat
  | .line index => index + 1
  | .skipped first count => first + count

end WindowEntry

namespace Window

variable {threshold : Int} {line : Nat}

/-- Every entry stands for some lines, and they come after those of the entries before. -/
structure IsAscending (w : Window) : Prop where
  pairs : w.Pairwise fun a b => a.stop ≤ b.start
  sized : ∀ e ∈ w, e.start < e.stop

theorem mem_onward {lines : List Nat} (h : line ∈ lines) (previous : Nat) :
    .line line ∈ onward threshold previous lines := by
  induction lines generalizing previous with
  | nil => cases h
  | cons first rest ih =>
    refine List.mem_append_right _ ?_
    rcases List.mem_cons.1 h with rfl | h
    · exact List.mem_cons_self
    · exact List.mem_cons_of_mem _ (ih h first)

/-- **Every line to be shown** has its entry. -/
theorem mem_ofLines {lines : List Nat} (h : line ∈ lines) :
    .line line ∈ ofLines threshold lines := by
  cases lines with
  | nil => cases h
  | cons first rest =>
    rcases List.mem_cons.1 h with rfl | h
    · exact List.mem_cons_self
    · exact List.mem_cons_of_mem _ (mem_onward h first)

/-- An entry stands behind a line that has been shown, and before a line still to come. -/
theorem mem_between {previous next : Nat} {e : WindowEntry}
    (h : e ∈ between threshold previous next) (hlt : previous < next) :
    previous < e.start ∧ e.start < e.stop ∧ e.stop ≤ next := by
  unfold between at h
  dsimp only at h
  split at h
  · cases h
  · split at h
    · obtain ⟨n, hn, rfl⟩ := List.mem_map.1 h
      rw [List.mem_range] at hn
      simp only [WindowEntry.start, WindowEntry.stop]
      omega
    · rw [List.mem_singleton] at h
      subst h
      simp only [WindowEntry.start, WindowEntry.stop]
      omega

theorem between_of_le {previous next : Nat} (h : next ≤ previous) :
    between threshold previous next = [] := by
  unfold between
  simp [show next - previous - 1 = 0 by omega]

/-- Nothing is shown behind the lines to be shown. -/
theorem stop_le_of_mem_onward {lines : List Nat} {previous bound : Nat} {e : WindowEntry}
    (hlines : ∀ l ∈ lines, l < bound) (h : e ∈ onward threshold previous lines) :
    e.stop ≤ bound := by
  induction lines generalizing previous with
  | nil => cases h
  | cons first rest ih =>
    have hfirst : first < bound := hlines first List.mem_cons_self
    rcases List.mem_append.1 h with h | h
    · by_cases hlt : previous < first
      · exact Nat.le_trans (mem_between h hlt).2.2 (Nat.le_of_lt hfirst)
      · rw [between_of_le (Nat.le_of_not_lt hlt)] at h
        cases h
    · rcases List.mem_cons.1 h with rfl | h
      · exact hfirst
      · exact ih (fun l hl => hlines l (List.mem_cons_of_mem _ hl)) h

theorem stop_le_of_mem_ofLines {lines : List Nat} {bound : Nat} {e : WindowEntry}
    (hlines : ∀ l ∈ lines, l < bound) (h : e ∈ ofLines threshold lines) : e.stop ≤ bound := by
  cases lines with
  | nil => cases h
  | cons first rest =>
    rcases List.mem_cons.1 h with rfl | h
    · exact hlines first List.mem_cons_self
    · exact stop_le_of_mem_onward (fun l hl => hlines l (List.mem_cons_of_mem _ hl)) h

theorem pairwise_between (previous next : Nat) :
    (between threshold previous next).Pairwise fun a b => a.stop ≤ b.start := by
  unfold between
  dsimp only
  split
  · exact List.Pairwise.nil
  · split
    · refine List.pairwise_map.2 (List.pairwise_lt_range.imp ?_)
      intro m n hmn
      simp only [WindowEntry.start, WindowEntry.stop]
      omega
    · exact List.pairwise_singleton _ _

/-- What is shown of ascending lines goes on behind the line before them. -/
theorem isAscending_onward (threshold : Int) {lines : List Nat} {previous : Nat}
    (h : (previous :: lines).Pairwise (· < ·)) :
    (onward threshold previous lines).IsAscending ∧
      ∀ e ∈ onward threshold previous lines, previous < e.start := by
  induction lines generalizing previous with
  | nil => exact ⟨⟨List.Pairwise.nil, fun _ he => by cases he⟩, fun _ he => by cases he⟩
  | cons line rest ih =>
    obtain ⟨hprevious, hrest⟩ := List.pairwise_cons.1 h
    have hlt : previous < line := hprevious line List.mem_cons_self
    obtain ⟨⟨hpairs, hsized⟩, hbehind⟩ := ih hrest
    unfold onward
    refine ⟨⟨List.pairwise_append.2 ⟨pairwise_between previous line,
      List.pairwise_cons.2 ⟨hbehind, hpairs⟩, fun a ha b hb => ?_⟩, fun e he => ?_⟩,
      fun e he => ?_⟩
    · have hstop : a.stop ≤ line := (mem_between ha hlt).2.2
      rcases List.mem_cons.1 hb with rfl | hb
      · exact hstop
      · exact Nat.le_trans hstop (Nat.le_of_lt (hbehind b hb))
    · rcases List.mem_append.1 he with he | he
      · exact (mem_between he hlt).2.1
      · rcases List.mem_cons.1 he with rfl | he
        · exact Nat.lt_succ_self line
        · exact hsized e he
    · rcases List.mem_append.1 he with he | he
      · exact (mem_between he hlt).1
      · rcases List.mem_cons.1 he with rfl | he
        · exact hlt
        · exact Nat.lt_trans hlt (hbehind e he)

/-- **A window goes downwards**: no line is shown twice, or skipped and shown. -/
theorem isAscending_ofLines {lines : List Nat} (h : lines.Pairwise (· < ·)) :
    (ofLines threshold lines).IsAscending := by
  cases lines with
  | nil => exact ⟨List.Pairwise.nil, fun _ he => by cases he⟩
  | cons line rest =>
    obtain ⟨⟨hpairs, hsized⟩, hbehind⟩ := isAscending_onward threshold h
    refine ⟨List.pairwise_cons.2 ⟨hbehind, hpairs⟩, fun e he => ?_⟩
    rcases List.mem_cons.1 he with rfl | he
    · exact Nat.lt_succ_self line
    · exact hsized e he

/-- Lines are skipped behind a line that is shown, never at the top of the source. -/
theorem pos_of_mem_ofLines_skipped {lines : List Nat} (h : lines.Pairwise (· < ·))
    {first count : Nat} (hmem : .skipped first count ∈ ofLines threshold lines) : 0 < first := by
  cases lines with
  | nil => cases hmem
  | cons line rest =>
    obtain ⟨-, hbehind⟩ := isAscending_onward threshold h
    rcases List.mem_cons.1 hmem with heq | hmem
    · cases heq
    · exact Nat.lt_of_le_of_lt (Nat.zero_le line) (hbehind _ hmem)

namespace IsAscending

variable {w before after : Window} {e : WindowEntry}

/-- No entry is repeated. -/
theorem nodup (h : w.IsAscending) : w.Nodup := by
  refine List.Pairwise.imp_of_mem ?_ h.pairs
  rintro a b ha - hle rfl
  exact absurd (h.sized a ha) (Nat.not_lt.2 hle)

/-- A line that is printed stands above or below any other entry. -/
theorem lt_or_le_of_line_mem (h : w.IsAscending) (he : e ∈ w) (hline : .line line ∈ w)
    (hne : e ≠ .line line) : line < e.start ∨ e.stop ≤ line := by
  obtain ⟨before, after, rfl⟩ := List.append_of_mem he
  obtain ⟨-, htail, hcross⟩ := List.pairwise_append.1 h.pairs
  rcases List.mem_append.1 hline with hmem | hmem
  · exact Or.inl (hcross _ hmem e List.mem_cons_self)
  · rcases List.mem_cons.1 hmem with heq | hmem
    · exact absurd heq.symm hne
    · exact Or.inr ((List.pairwise_cons.1 htail).1 _ hmem)

/-- The lines printed down to an entry are those that come before its end. -/
theorem line_mem_upTo_iff (h : IsAscending (before ++ e :: after)) :
    .line line ∈ before ++ [e] ↔ .line line ∈ before ++ e :: after ∧ line < e.stop := by
  obtain ⟨-, htail, hcross⟩ := List.pairwise_append.1 h.pairs
  obtain ⟨hafter, -⟩ := List.pairwise_cons.1 htail
  constructor
  · intro hmem
    rcases List.mem_append.1 hmem with hmem | hmem
    · refine ⟨List.mem_append_left _ hmem, ?_⟩
      have hstop : line + 1 ≤ e.start := hcross _ hmem e List.mem_cons_self
      have := h.sized e (by simp)
      omega
    · obtain rfl := List.mem_singleton.1 hmem
      exact ⟨by simp, Nat.lt_succ_self line⟩
  · rintro ⟨hmem, hlt⟩
    rcases List.mem_append.1 hmem with hmem | hmem
    · exact List.mem_append_left _ hmem
    · rcases List.mem_cons.1 hmem with rfl | hmem
      · simp
      · have : e.stop ≤ line := hafter _ hmem
        omega

/-- The lines printed below an entry are those from its end on. -/
theorem line_mem_below_iff (h : IsAscending (before ++ e :: after)) :
    .line line ∈ after ↔ .line line ∈ before ++ e :: after ∧ e.stop ≤ line := by
  obtain ⟨-, htail, hcross⟩ := List.pairwise_append.1 h.pairs
  obtain ⟨hafter, -⟩ := List.pairwise_cons.1 htail
  constructor
  · intro hmem
    exact ⟨by simp [hmem], hafter _ hmem⟩
  · rintro ⟨hmem, hle⟩
    have hlt : ¬ line < e.stop := by omega
    rcases List.mem_append.1 hmem with hmem | hmem
    · exact absurd ((h.line_mem_upTo_iff).1 (List.mem_append_left _ hmem)).2 hlt
    · rcases List.mem_cons.1 hmem with rfl | hmem
      · exact absurd (Nat.lt_succ_self line) hlt
      · exact hmem

end IsAscending

/-- No element of a list is larger than the largest one. -/
theorem exists_max?_filterMap {α : Type} {f : α → Option Nat} {xs : List α} {x : α} {n : Nat}
    (h : x ∈ xs) (hx : f x = some n) :
    ∃ last, (xs.filterMap f).max? = some last ∧ n ≤ last := by
  have hmem : n ∈ xs.filterMap f := List.mem_filterMap.2 ⟨x, h, hx⟩
  obtain ⟨last, hlast⟩ := Option.isSome_iff_exists.1 (List.isSome_max?_of_mem hmem)
  refine ⟨last, hlast, ?_⟩
  have hle := List.le_max?_getD_of_mem (k := 0) hmem
  rwa [hlast] at hle

theorem exists_lastLine? {w : Window} (h : .line line ∈ w) :
    ∃ last, w.lastLine? = some last ∧ line ≤ last :=
  exists_max?_filterMap h rfl

end Window

/-! ## Snippets -/

namespace Snippet

/-- **No line number** is larger than the last one. -/
theorem lt_lastNumber {s : Snippet} {line : Nat} (h : .line line ∈ s.window) :
    line < s.lastNumber := by
  obtain ⟨last, hlast, hle⟩ := Window.exists_lastLine? h
  rw [lastNumber, hlast]
  exact Nat.lt_succ_of_le hle

end Snippet

/-! ## Sources of a diagnostic -/

theorem mem_foldl_distinct {α : Type} [DecidableEq α] {x : α} (xs seen : List α) :
    x ∈ xs.foldl (fun seen x => if x ∈ seen then seen else seen ++ [x]) seen ↔
      x ∈ seen ∨ x ∈ xs := by
  induction xs generalizing seen with
  | nil => simp
  | cons y xs ih =>
    rw [List.foldl_cons, ih]
    split
    · next hy =>
      constructor
      · rintro (h | h)
        · exact Or.inl h
        · exact Or.inr (List.mem_cons_of_mem y h)
      · rintro (h | h)
        · exact Or.inl h
        · rcases List.mem_cons.1 h with rfl | h
          · exact Or.inl hy
          · exact Or.inr h
    · simp [or_assoc]

/-- Dropping repetitions drops no element. -/
theorem mem_distinct {α : Type} [DecidableEq α] {x : α} {xs : List α} :
    x ∈ distinct xs ↔ x ∈ xs := by
  rw [distinct, mem_foldl_distinct]
  simp

theorem nodup_foldl_distinct {α : Type} [DecidableEq α] (xs : List α) {seen : List α}
    (h : seen.Nodup) :
    (xs.foldl (fun seen x => if x ∈ seen then seen else seen ++ [x]) seen).Nodup := by
  induction xs generalizing seen with
  | nil => exact h
  | cons y xs ih =>
    rw [List.foldl_cons]
    split
    · exact ih h
    · next hy =>
      refine ih (List.pairwise_append.2 ⟨h, List.pairwise_singleton _ _, fun a ha b hb => ?_⟩)
      rw [List.mem_singleton.1 hb]
      exact fun heq => hy (heq ▸ ha)

/-- No element is repeated. -/
theorem nodup_distinct {α : Type} [DecidableEq α] (xs : List α) : (distinct xs).Nodup :=
  nodup_foldl_distinct xs List.nodup_nil

theorem Diagnostic.mem_files {d : Diagnostic} {label : Label} (h : label ∈ d.labels) :
    label.file ∈ d.files :=
  mem_distinct.2 (List.mem_append_right _ (List.mem_map.2 ⟨label, h, rfl⟩))

/-- Every source is shown once. -/
theorem Diagnostic.nodup_files (d : Diagnostic) : d.files.Nodup := nodup_distinct _

end SourceReport
