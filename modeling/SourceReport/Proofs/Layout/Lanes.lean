import Mathlib.Data.List.Nodup
import Mathlib.Data.List.Pairwise
import Mathlib.Data.List.Perm.Subperm
import Mathlib.Data.List.Sort
import SourceReport.Layout.Lanes
import SourceReport.Proofs.Layout.Order

/-!
# Lanes are few and apart

Labels of several lines take the first free lane one after the other, in the order in which they
start. While they do so, the last line of each lane is that of the label which took it last
(`Lanes.Holds`). A label that opens a new lane thus finds a label in each of the lanes before it
that goes on at least to the line where it starts, and all of these cover that line.

* `Placement.Meets` says that two labels share a line, `Placement.depth` how many labels of several
  lines cover a line.
* `Lanes.Separates` is what lanes should be: apart for labels that meet, and as few as possible.

Results:
* `pairwise_assign`: of two labels in one lane the earlier one ends before the other one starts.
* `exists_touches_of_mem_assign`: a line where a label starts is covered in every lane before its
  own.
* `separates_assign`: the lanes of labels are apart and as few as possible.
-/

namespace SourceReport

namespace Placement

/-- Two labels share a line. -/
def Meets (p q : Placement) : Prop := ∃ line, p.touches line = true ∧ q.touches line = true

/-- How many labels of several lines cover a line. -/
def depth (ps : List Placement) (line : Nat) : Nat :=
  ps.countP fun p => p.isMultiline && p.touches line

theorem touches_iff {p : Placement} {line : Nat} :
    p.touches line = true ↔ p.firstLine ≤ line ∧ line ≤ p.lastLine := by
  simp [touches]

end Placement

namespace Lanes

variable {ends : List Nat} {ps : List Placement} {p q : Placement} {line lane last : Nat}

/-! ## One step -/

theorem firstFree_eq_findIdx (line : Nat) (ends : List Nat) :
    firstFree line ends = ends.findIdx (· < line) :=
  List.findIdx_eq_getD_findIdx?.symm

theorem firstFree_le (line : Nat) (ends : List Nat) : firstFree line ends ≤ ends.length := by
  rw [firstFree_eq_findIdx]
  exact List.findIdx_le_length

/-- The last label of a free lane ended on an earlier line. -/
theorem lt_of_getElem?_firstFree (h : ends[firstFree line ends]? = some last) : last < line := by
  rw [firstFree_eq_findIdx] at h
  obtain ⟨hlt, rfl⟩ := List.getElem?_eq_some_iff.1 h
  simpa using List.findIdx_getElem (w := hlt)

/-- The lanes before the first free one are taken. -/
theorem le_of_lt_firstFree (hlane : lane < firstFree line ends) (h : ends[lane]? = some last) :
    line ≤ last := by
  rw [firstFree_eq_findIdx] at hlane
  obtain ⟨_, rfl⟩ := List.getElem?_eq_some_iff.1 h
  simpa using List.not_of_lt_findIdx hlane

theorem getElem?_occupy (h : lane ≤ ends.length) (last k : Nat) :
    (occupy lane last ends)[k]? = if k = lane then some last else ends[k]? := by
  unfold occupy
  split
  · next hlt => simp [List.getElem?_set, hlt, eq_comm]
  · next hge =>
    obtain rfl : lane = ends.length := by omega
    rw [List.getElem?_append]
    split
    · next hk => rw [if_neg (Nat.ne_of_lt hk)]
    · next hk =>
      split
      · next heq => simp [heq]
      · next hne =>
        rw [List.getElem?_eq_none (by simp; omega), List.getElem?_eq_none (by omega)]

theorem length_occupy (lane last : Nat) (ends : List Nat) (h : lane ≤ ends.length) :
    (occupy lane last ends).length = max ends.length (lane + 1) := by
  unfold occupy
  split
  · rw [List.length_set]
    omega
  · rw [List.length_append, List.length_singleton]
    omega

/-! ## All steps -/

/-- Every label gets one lane. -/
theorem map_fst_fill (ends : List Nat) (ps : List Placement) : (fill ends ps).map (·.1) = ps := by
  induction ps generalizing ends with
  | nil => rfl
  | cons p ps ih => rw [fill, List.map_cons, ih]

theorem mem_of_mem_fill (h : (p, lane) ∈ fill ends ps) : p ∈ ps := by
  rw [← map_fst_fill ends ps]
  exact List.mem_map_of_mem h

/-- A label in a lane starts after the line up to which the lane was taken. -/
theorem lt_firstLine_of_mem_fill (hsorted : ps.Pairwise fun p q => p.firstLine ≤ q.firstLine)
    (hmem : (q, lane) ∈ fill ends ps) (hlast : ends[lane]? = some last) : last < q.firstLine := by
  induction ps generalizing ends last with
  | nil => cases hmem
  | cons p ps ih =>
    obtain ⟨hfirst, hrest⟩ := List.pairwise_cons.1 hsorted
    rcases List.mem_cons.1 hmem with heq | hmem
    · obtain ⟨rfl, rfl⟩ := Prod.mk.inj heq
      exact lt_of_getElem?_firstFree hlast
    · have hoccupy := getElem?_occupy (firstFree_le p.firstLine ends) p.lastLine lane
      split at hoccupy
      · -- The lane is taken once more in between: it was free for a label that starts no later.
        next hlane =>
        rw [hlane] at hlast
        have hfree : last < p.firstLine := lt_of_getElem?_firstFree hlast
        exact Nat.lt_of_lt_of_le hfree (hfirst q (mem_of_mem_fill hmem))
      · exact ih hrest hmem (hoccupy.trans hlast)

/-- Of two labels in one lane the earlier one ends before the other one starts. -/
theorem pairwise_fill (hsorted : ps.Pairwise fun p q => p.firstLine ≤ q.firstLine)
    (ends : List Nat) :
    (fill ends ps).Pairwise fun a b => a.2 = b.2 → a.1.lastLine < b.1.firstLine := by
  induction ps generalizing ends with
  | nil => exact List.Pairwise.nil
  | cons p ps ih =>
    obtain ⟨_, hrest⟩ := List.pairwise_cons.1 hsorted
    refine List.pairwise_cons.2 ⟨fun b hb hlane => ?_, ih hrest _⟩
    dsimp only at hlane
    refine lt_firstLine_of_mem_fill hrest hb ?_
    rw [getElem?_occupy (firstFree_le p.firstLine ends), if_pos hlane.symm]

/-- New lanes are opened one after the other. -/
theorem exists_mem_fill_of_le (hmem : (p, lane) ∈ fill ends ps) {k : Nat} (hopen : ends.length ≤ k)
    (hle : k ≤ lane) : ∃ q, (q, k) ∈ fill ends ps := by
  induction ps generalizing ends with
  | nil => cases hmem
  | cons first ps ih =>
    have hfree := firstFree_le first.firstLine ends
    rcases List.mem_cons.1 hmem with heq | hmem
    · obtain ⟨-, rfl⟩ := Prod.mk.inj heq
      obtain rfl : k = firstFree first.firstLine ends := by omega
      exact ⟨first, List.mem_cons_self⟩
    · have hlength := length_occupy (firstFree first.firstLine ends) first.lastLine ends hfree
      by_cases hk : (occupy (firstFree first.firstLine ends) first.lastLine ends).length ≤ k
      · obtain ⟨q, hq⟩ := ih hmem hk
        exact ⟨q, List.mem_cons_of_mem _ hq⟩
      · obtain rfl : k = firstFree first.firstLine ends := by omega
        exact ⟨first, List.mem_cons_self⟩

/-- The last line of each lane is that of a label which has the lane. -/
def Holds (taken : Lanes) (ends : List Nat) : Prop :=
  ∀ (lane last : Nat), ends[lane]? = some last → ∃ q, (q, lane) ∈ taken ∧ q.lastLine = last

theorem holds_nil (taken : Lanes) : Holds taken [] := by
  intro lane last h
  simp at h

/-- A step of the assignment keeps track of who holds the lanes. -/
theorem Holds.occupy {taken : Lanes} (h : Holds taken ends) (hlane : lane ≤ ends.length)
    (p : Placement) : Holds (taken ++ [(p, lane)]) (occupy lane p.lastLine ends) := by
  intro k last hlast
  rw [getElem?_occupy hlane] at hlast
  split at hlast
  · next hk =>
    exact ⟨p, by rw [hk]; simp, Option.some.inj hlast⟩
  · obtain ⟨q, hq, hend⟩ := h k last hlast
    exact ⟨q, List.mem_append_left _ hq, hend⟩

/-- **The lanes before that of a label** are taken where it starts: each has a label that covers the
line. -/
theorem exists_touches_of_mem_fill {taken : Lanes}
    (hsorted : ps.Pairwise fun p q => p.firstLine ≤ q.firstLine)
    (hbefore : ∀ e ∈ taken, ∀ p ∈ ps, e.1.firstLine ≤ p.firstLine) (hholds : Holds taken ends)
    (hmem : (p, lane) ∈ fill ends ps) {k : Nat} (hk : k < lane) :
    ∃ q, (q, k) ∈ taken ++ fill ends ps ∧ q.touches p.firstLine = true := by
  induction ps generalizing ends taken with
  | nil => cases hmem
  | cons first ps ih =>
    obtain ⟨hfirst, hrest⟩ := List.pairwise_cons.1 hsorted
    have hfree := firstFree_le first.firstLine ends
    rcases List.mem_cons.1 hmem with heq | hmem
    · obtain ⟨rfl, rfl⟩ := Prod.mk.inj heq
      have hlast : ends[k]? = some ends[k] := List.getElem?_eq_getElem (by omega)
      obtain ⟨q, hq, hend⟩ := hholds k _ hlast
      refine ⟨q, List.mem_append_left _ hq, Placement.touches_iff.2 ⟨?_, ?_⟩⟩
      · exact hbefore _ hq p List.mem_cons_self
      · rw [hend]
        exact le_of_lt_firstFree hk hlast
    · have hbefore' : ∀ e ∈ taken ++ [(first, firstFree first.firstLine ends)], ∀ p ∈ ps,
          e.1.firstLine ≤ p.firstLine := by
        intro e he p hp
        rcases List.mem_append.1 he with he | he
        · exact hbefore e he p (List.mem_cons_of_mem _ hp)
        · rw [List.mem_singleton.1 he]
          exact hfirst p hp
      obtain ⟨q, hq, htouches⟩ := ih hrest hbefore' (hholds.occupy hfree first) hmem
      refine ⟨q, ?_, htouches⟩
      rwa [List.append_assoc, List.singleton_append] at hq

/-! ## The assignment -/

theorem map_fst_assign (ps : List Placement) :
    (assign ps).map (·.1) = Placement.laneOrder ps :=
  map_fst_fill _ _

/-- A lane is given to the labels of several lines, to each of them once. -/
theorem map_fst_assign_perm (ps : List Placement) :
    ((assign ps).map (·.1)).Perm (ps.filter (·.isMultiline)) := by
  rw [map_fst_assign]
  exact Placement.laneOrder_perm ps

theorem mem_of_mem_assign (h : (p, lane) ∈ assign ps) : p ∈ ps ∧ p.isMultiline = true := by
  rw [← Placement.mem_laneOrder, ← map_fst_assign]
  exact List.mem_map_of_mem h

theorem exists_mem_assign (hp : p ∈ ps) (h : p.isMultiline = true) :
    ∃ lane, (p, lane) ∈ assign ps := by
  have hmem : p ∈ (assign ps).map (·.1) := by
    rw [map_fst_assign]
    exact Placement.mem_laneOrder.2 ⟨hp, h⟩
  obtain ⟨⟨q, lane⟩, hq, rfl⟩ := List.mem_map.1 hmem
  exact ⟨lane, hq⟩

/-- **Labels in one lane** stand one below the other. -/
theorem pairwise_assign (ps : List Placement) :
    (assign ps).Pairwise fun a b => a.2 = b.2 → a.1.lastLine < b.1.firstLine :=
  pairwise_fill (Placement.pairwise_laneOrder ps) []

/-- Two labels in one lane, in either order. -/
theorem lt_or_lt_of_mem_assign (hp : (p, lane) ∈ assign ps) (hq : (q, lane) ∈ assign ps)
    (hne : p ≠ q) : p.lastLine < q.firstLine ∨ q.lastLine < p.firstLine := by
  have hpairs : (assign ps).Pairwise fun a b => a.2 = b.2 →
      a.1.lastLine < b.1.firstLine ∨ b.1.lastLine < a.1.firstLine :=
    (pairwise_assign ps).imp fun h heq => Or.inl (h heq)
  have hsymm : Std.Symm fun a b : Placement × Nat => a.2 = b.2 →
      a.1.lastLine < b.1.firstLine ∨ b.1.lastLine < a.1.firstLine :=
    ⟨fun _ _ h heq => (h heq.symm).symm⟩
  exact hpairs.forall hp hq (fun heq => hne (Prod.mk.inj heq).1) rfl

/-- **A line where a label starts** is covered in every lane before its own. -/
theorem exists_touches_of_mem_assign (hmem : (p, lane) ∈ assign ps) {k : Nat} (hk : k < lane) :
    ∃ q, (q, k) ∈ assign ps ∧ q.touches p.firstLine = true :=
  exists_touches_of_mem_fill (Placement.pairwise_laneOrder ps) (fun _ he => by cases he)
    (holds_nil []) hmem hk

/-- The lane of a label is looked up. -/
theorem lane?_eq_some_iff {lanes : Lanes} (h : (lanes.map (·.1)).Nodup) :
    lanes.lane? p = some lane ↔ (p, lane) ∈ lanes := by
  induction lanes with
  | nil => simp [lane?]
  | cons e lanes ih =>
    obtain ⟨q, k⟩ := e
    rw [List.map_cons, List.nodup_cons] at h
    unfold lane? at ih ⊢
    rw [List.lookup_cons, List.mem_cons]
    by_cases hpq : p = q
    · subst hpq
      have hnot : (p, lane) ∉ lanes := fun hmem => h.1 (List.mem_map.2 ⟨_, hmem, rfl⟩)
      simp [hnot, eq_comm]
    · rw [beq_false_of_ne hpq]
      simp [hpq, ih h.2]

/-! ## The number of lanes -/

theorem lt_foldl_count_iff {lanes : Lanes} {k n : Nat} :
    k < lanes.foldl (fun n e => max n (e.2 + 1)) n ↔ k < n ∨ ∃ e ∈ lanes, k ≤ e.2 := by
  induction lanes generalizing n with
  | nil => simp
  | cons e lanes ih =>
    have hmax : k < max n (e.2 + 1) ↔ k < n ∨ k ≤ e.2 := by omega
    rw [List.foldl_cons, ih, List.exists_mem_cons_iff, hmax, or_assoc]

/-- The lanes in use are those up to some label's. -/
theorem lt_count_iff_le {lanes : Lanes} {k : Nat} : k < lanes.count ↔ ∃ e ∈ lanes, k ≤ e.2 := by
  rw [count, lt_foldl_count_iff]
  simp

theorem lt_count {lanes : Lanes} (h : (p, lane) ∈ lanes) : lane < lanes.count :=
  lt_count_iff_le.2 ⟨_, h, Nat.le_refl lane⟩

/-- **No lane is left out.** -/
theorem lt_count_assign_iff {k : Nat} : k < (assign ps).count ↔ ∃ q, (q, k) ∈ assign ps := by
  constructor
  · intro h
    obtain ⟨⟨p, lane⟩, hmem, hle⟩ := lt_count_iff_le.1 h
    exact exists_mem_fill_of_le hmem (Nat.zero_le k) hle
  · rintro ⟨q, hq⟩
    exact lt_count hq

/-- The lanes that a line crosses. -/
def across (lanes : Lanes) (line : Nat) : List Nat :=
  (lanes.filter fun e => e.1.touches line).map (·.2)

theorem length_across_assign (ps : List Placement) (line : Nat) :
    ((assign ps).across line).length = Placement.depth ps line := by
  have hperm := (map_fst_assign_perm ps).countP_eq (·.touches line)
  rw [List.countP_map, List.countP_filter] at hperm
  rw [across, List.length_map, ← List.countP_eq_length_filter]
  simpa only [Placement.depth, Function.comp_def, Bool.and_comm] using hperm

theorem nodup_across_assign (ps : List Placement) (line : Nat) :
    ((assign ps).across line).Nodup := by
  refine List.pairwise_map.2 (List.pairwise_filter.2 ((pairwise_assign ps).imp ?_))
  intro a b hab ha hb hlane
  have hend := (Placement.touches_iff.1 ha).2
  have hstart := (Placement.touches_iff.1 hb).1
  have := hab hlane
  omega

/-- No line is covered by more labels than there are lanes. -/
theorem depth_le_count (ps : List Placement) (line : Nat) :
    Placement.depth ps line ≤ (assign ps).count := by
  have hsubset : (assign ps).across line ⊆ List.range (assign ps).count := by
    intro k hk
    obtain ⟨⟨q, k'⟩, hq, rfl⟩ := List.mem_map.1 hk
    exact List.mem_range.2 (lt_count (List.mem_filter.1 hq).1)
  rw [← length_across_assign, ← List.length_range (n := (assign ps).count)]
  exact ((nodup_across_assign ps line).subperm hsubset).length_le

/-- **Some line is covered in all lanes.** -/
theorem exists_range_subset_across (hordered : ∀ p ∈ ps, p.firstLine ≤ p.lastLine) :
    ∃ line, List.range (assign ps).count ⊆ (assign ps).across line := by
  cases hcount : (assign ps).count with
  | zero => exact ⟨0, by simp⟩
  | succ n =>
    -- The label in the last lane found all other lanes taken.
    obtain ⟨p, hp⟩ := lt_count_assign_iff.1 (show n < (assign ps).count by omega)
    refine ⟨p.firstLine, fun k hk => ?_⟩
    have hle : k ≤ n := Nat.lt_succ_iff.1 (List.mem_range.1 hk)
    rcases Nat.lt_or_eq_of_le hle with hlt | rfl
    · obtain ⟨q, hq, htouches⟩ := exists_touches_of_mem_assign hp hlt
      exact List.mem_map.2 ⟨(q, k), List.mem_filter.2 ⟨hq, htouches⟩, rfl⟩
    · have htouches : p.touches p.firstLine = true :=
        Placement.touches_iff.2 ⟨Nat.le_refl _, hordered p (mem_of_mem_assign hp).1⟩
      exact List.mem_map.2 ⟨(p, k), List.mem_filter.2 ⟨hp, htouches⟩, rfl⟩

/-- Labels sorted by their lanes, up or down, are in that order. -/
theorem pairwise_sorted (r : Nat → Nat → Prop) [DecidableRel r] [Std.Total r] [IsTrans Nat r]
    (lanes : Lanes) : (lanes.mergeSort fun a b => r a.2 b.2).Pairwise fun a b => r a.2 b.2 :=
  List.pairwise_mergeSort' (Order.Preimage Prod.snd r) lanes

/-! ## Lanes as they should be -/

/-- Lanes for labels: apart for labels that meet, without holes, and as few as possible. -/
structure Separates (lanes : Lanes) (ps : List Placement) : Prop where
  /-- A lane is given to the labels of several lines, to each of them once, and to no others. -/
  given : (lanes.map (·.1)).Perm (ps.filter (·.isMultiline))
  isSome_lane? : ∀ p ∈ ps, (lanes.lane? p).isSome = p.isMultiline
  /-- Labels that share a line have different lanes. -/
  apart : ∀ p ∈ ps, ∀ q ∈ ps, p.index ≠ q.index → p.Meets q → ∀ k, lanes.lane? p = some k →
    lanes.lane? q ≠ some k
  /-- The lanes in use are numbered from zero on. -/
  in_use : ∀ k, k < lanes.count ↔ ∃ p ∈ ps, lanes.lane? p = some k
  /-- The labels on some line need all of the lanes, and those on no line more. -/
  depth_le : ∀ line, Placement.depth ps line ≤ lanes.count
  exists_depth : ∃ line, Placement.depth ps line = lanes.count
  /-- No other choice of lanes makes do with fewer. -/
  fewest : ∀ (f : Placement → Nat) (n : Nat), (∀ p ∈ ps, p.isMultiline = true → f p < n) →
    (∀ p ∈ ps, ∀ q ∈ ps, p.isMultiline = true → q.isMultiline = true → p.index ≠ q.index →
      p.Meets q → f p ≠ f q) → lanes.count ≤ n

section Separates

variable (hordered : ∀ p ∈ ps, p.firstLine ≤ p.lastLine) (hindices : (ps.map (·.index)).Nodup)

include hindices

theorem nodup_map_fst_assign : ((assign ps).map (·.1)).Nodup := by
  rw [(map_fst_assign_perm ps).nodup_iff]
  exact (List.Nodup.of_map _ hindices).filter _

theorem lane?_assign_eq_some_iff : (assign ps).lane? p = some lane ↔ (p, lane) ∈ assign ps :=
  lane?_eq_some_iff (nodup_map_fst_assign hindices)

theorem isSome_lane?_assign (hp : p ∈ ps) : ((assign ps).lane? p).isSome = p.isMultiline := by
  rw [Bool.eq_iff_iff, Option.isSome_iff_exists]
  constructor
  · rintro ⟨k, hk⟩
    exact (mem_of_mem_assign ((lane?_assign_eq_some_iff hindices).1 hk)).2
  · intro h
    obtain ⟨k, hk⟩ := exists_mem_assign hp h
    exact ⟨k, (lane?_assign_eq_some_iff hindices).2 hk⟩

/-- Labels that cover a line need different lanes, whatever the choice. -/
theorem depth_le_of_apart {f : Placement → Nat} {n : Nat}
    (hlt : ∀ p ∈ ps, p.isMultiline = true → f p < n)
    (hapart : ∀ p ∈ ps, ∀ q ∈ ps, p.isMultiline = true → q.isMultiline = true →
      p.index ≠ q.index → p.Meets q → f p ≠ f q) (line : Nat) : Placement.depth ps line ≤ n := by
  rw [Placement.depth, List.countP_eq_length_filter]
  have hsubset : (ps.filter fun p => p.isMultiline && p.touches line).map f ⊆ List.range n := by
    intro k hk
    obtain ⟨p, hp, rfl⟩ := List.mem_map.1 hk
    obtain ⟨hmem, hcovers⟩ := List.mem_filter.1 hp
    exact List.mem_range.2 (hlt p hmem (Bool.and_eq_true_iff.1 hcovers).1)
  have hnodup : ((ps.filter fun p => p.isMultiline && p.touches line).map f).Nodup := by
    refine List.pairwise_map.2 (List.Pairwise.imp_of_mem ?_
      ((List.pairwise_map.1 hindices).sublist List.filter_sublist))
    intro p q hp hq hne
    obtain ⟨hpmem, hpcovers⟩ := List.mem_filter.1 hp
    obtain ⟨hqmem, hqcovers⟩ := List.mem_filter.1 hq
    obtain ⟨hpmulti, hptouches⟩ := Bool.and_eq_true_iff.1 hpcovers
    obtain ⟨hqmulti, hqtouches⟩ := Bool.and_eq_true_iff.1 hqcovers
    exact hapart p hpmem q hqmem hpmulti hqmulti hne ⟨line, hptouches, hqtouches⟩
  have hle := (hnodup.subperm hsubset).length_le
  rwa [List.length_map, List.length_range] at hle

include hordered

/-- **Lanes are apart and as few as possible.** The labels of a diagnostic stand in ascending lines
(`Placement.firstLine_le_lastLine`) and have indices of their own. -/
theorem separates_assign : (assign ps).Separates ps := by
  have hdepth : ∃ line, Placement.depth ps line = (assign ps).count := by
    obtain ⟨line, hsubset⟩ := exists_range_subset_across hordered
    have hle := (List.nodup_range.subperm hsubset).length_le
    rw [List.length_range, length_across_assign] at hle
    exact ⟨line, Nat.le_antisymm (depth_le_count ps line) hle⟩
  refine ⟨map_fst_assign_perm ps, fun p hp => isSome_lane?_assign hindices hp, ?_, ?_,
    depth_le_count ps, hdepth, ?_⟩
  · intro p _ q _ hne ⟨line, hp, hq⟩ k hpk hqk
    rw [lane?_assign_eq_some_iff hindices] at hpk hqk
    rw [Placement.touches_iff] at hp hq
    rcases lt_or_lt_of_mem_assign hpk hqk fun heq => hne (congrArg _ heq) with h | h <;> omega
  · intro k
    rw [lt_count_assign_iff]
    constructor
    · rintro ⟨p, hp⟩
      exact ⟨p, (mem_of_mem_assign hp).1, (lane?_assign_eq_some_iff hindices).2 hp⟩
    · rintro ⟨p, _, hp⟩
      exact ⟨p, (lane?_assign_eq_some_iff hindices).1 hp⟩
  · intro f n hlt hapart
    obtain ⟨line, hline⟩ := hdepth
    rw [← hline]
    exact depth_le_of_apart hindices hlt hapart line

end Separates

/-- A lane is taken again after its label has ended, so three labels make do with two lanes. -/
theorem separates_assign_again :
    let place (index first last : Nat) : Placement :=
      ⟨index, { span := ⟨⟨0⟩, 0, 0, by decide, by decide⟩ }, 0, 0, first, last, 0, 0⟩
    let ps := [place 2 3 5, place 0 0 2, place 3 4 4, place 1 1 3]
    (∀ p ∈ ps, p.firstLine ≤ p.lastLine) ∧ (ps.map (·.index)).Nodup ∧ (assign ps).Separates ps ∧
      (assign ps).map (fun e => (e.1.index, e.2)) = [(0, 0), (1, 1), (2, 0)] := by
  intro place ps
  have hordered : ∀ p ∈ ps, p.firstLine ≤ p.lastLine := by decide
  have hindices : (ps.map (·.index)).Nodup := by decide
  have horder : Placement.laneOrder ps = [place 0 0 2, place 1 1 3, place 2 3 5] := by
    simp [Placement.laneOrder, Placement.sortOn, ps, place, Placement.isMultiline, List.mergeSort,
      List.MergeSort.Internal.splitInTwo, Placement.laneKey, keyLe]
  refine ⟨hordered, hindices, separates_assign hordered hindices, ?_⟩
  rw [assign, horder]
  rfl

end Lanes

end SourceReport
