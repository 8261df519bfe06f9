import SourceReport.Proofs.Layout.Lanes

/-!
# Labels that start together are nested

Labels that start in one line choose their lanes one directly after the other. Whichever lanes
earlier labels have left free, the first of them takes the lowest one, which leaves all lanes up to
that one taken in the line. So the next one finds its lane further in, and the labels are nested in
the order in which they choose.

* `Placement.Encloses` is that order, `Lanes.Nests` says that lanes follow it.

Results:
* `Lanes.pairwise_fill_lt`: of labels that start in one line each one gets a higher lane than those
  before, from any state of the lanes.
* `Lanes.nests_assign`: labels that start together are nested.
-/

namespace SourceReport

namespace Placement

variable {ps : List Placement} {p q : Placement}

/-- Of two labels that start in one line the first one encloses the second one: a lower order, then
the higher priority, then the longer span, then declared earlier. -/
def Encloses (p q : Placement) : Prop :=
  p.label.order < q.label.order ∨ p.label.order = q.label.order ∧
    (q.label.rank < p.label.rank ∨ p.label.rank = q.label.rank ∧
      (q.length < p.length ∨ p.length = q.length ∧ p.index < q.index))

theorem Encloses.not_symm (h : p.Encloses q) : ¬ q.Encloses p := by
  unfold Encloses at h ⊢
  omega

/-- Of labels that start in one line the one that chooses first encloses the other one. -/
theorem encloses_of_keyLe (hindex : p.index ≠ q.index) (hline : p.firstLine = q.firstLine)
    (h : keyLe (laneKey p) (laneKey q) = true) : p.Encloses q := by
  simp only [laneKey, keyLe_cons_iff] at h
  unfold Encloses
  omega

/-- **Labels choose their lanes** in the order in which they enclose each other. -/
theorem pairwise_laneOrder_encloses (h : (ps.map (·.index)).Nodup) :
    (laneOrder ps).Pairwise fun p q => p.firstLine = q.firstLine → p.Encloses q := by
  have hfilter : ((ps.filter (·.isMultiline)).map (·.index)).Nodup :=
    h.sublist (List.filter_sublist.map _)
  exact (pairwise_index_sortOn laneKey hfilter).imp₂
    (fun p q hne hle hline => encloses_of_keyLe hne hline hle) (pairwise_sortOn _ _)

end Placement

namespace Lanes

variable {ends : List Nat} {ps : List Placement} {p q : Placement} {line lane k : Nat}

/-- The lanes up to one are taken in a line. -/
def TakenUpTo (ends : List Nat) (line k : Nat) : Prop :=
  ∀ lane ≤ k, ∃ last, ends[lane]? = some last ∧ line ≤ last

/-- A free lane lies behind those that are taken. -/
theorem TakenUpTo.lt_firstFree (h : TakenUpTo ends line k) : k < firstFree line ends := by
  refine Nat.lt_of_not_le fun hle => ?_
  obtain ⟨last, hlast, htaken⟩ := h _ hle
  exact Nat.not_le.2 (lt_of_getElem?_firstFree hlast) htaken

/-- They stay taken when a label takes another lane. -/
theorem TakenUpTo.occupy (h : TakenUpTo ends line k) (hlane : k < lane)
    (hle : lane ≤ ends.length) (last : Nat) : TakenUpTo (occupy lane last ends) line k := by
  intro j hj
  rw [getElem?_occupy hle, if_neg (by omega)]
  exact h j hj

/-- A label that takes a lane leaves all lanes up to it taken. -/
theorem takenUpTo_occupy_firstFree (hp : p.firstLine ≤ p.lastLine) :
    TakenUpTo (occupy (firstFree p.firstLine ends) p.lastLine ends) p.firstLine
      (firstFree p.firstLine ends) := by
  have hfree := firstFree_le p.firstLine ends
  intro lane hlane
  rw [getElem?_occupy hfree]
  split
  · exact ⟨_, rfl, hp⟩
  · next hne =>
    have hlast : ends[lane]? = some ends[lane] := List.getElem?_eq_getElem (by omega)
    exact ⟨_, hlast, le_of_lt_firstFree (by omega) hlast⟩

/-- A label that starts in a line gets no lane among those that are taken there. -/
theorem lt_of_mem_fill (hsorted : ps.Pairwise fun p q => p.firstLine ≤ q.firstLine)
    (hstart : ∀ p ∈ ps, line ≤ p.firstLine) (htaken : TakenUpTo ends line k)
    (hmem : (q, lane) ∈ fill ends ps) (hline : q.firstLine = line) : k < lane := by
  induction ps generalizing ends with
  | nil => cases hmem
  | cons p ps ih =>
    obtain ⟨hfirst, hrest⟩ := List.pairwise_cons.1 hsorted
    rcases List.mem_cons.1 hmem with heq | hmem
    · obtain ⟨rfl, rfl⟩ := Prod.mk.inj heq
      subst hline
      exact htaken.lt_firstFree
    · -- The label before starts in the same line, as `q` does not start earlier.
      have hsame : p.firstLine = line := by
        have hle := hstart p List.mem_cons_self
        have hge := hfirst q (mem_of_mem_fill hmem)
        omega
      have hlane : k < firstFree p.firstLine ends := by
        rw [hsame]
        exact htaken.lt_firstFree
      exact ih hrest (fun r hr => hstart r (List.mem_cons_of_mem p hr))
        (htaken.occupy hlane (firstFree_le _ _) _) hmem

/-- **Of labels that start in one line** each one gets a higher lane than those before, whichever
lanes are free. -/
theorem pairwise_fill_lt (hsorted : ps.Pairwise fun p q => p.firstLine ≤ q.firstLine)
    (hordered : ∀ p ∈ ps, p.firstLine ≤ p.lastLine) (ends : List Nat) :
    (fill ends ps).Pairwise fun a b => a.1.firstLine = b.1.firstLine → a.2 < b.2 := by
  induction ps generalizing ends with
  | nil => exact List.Pairwise.nil
  | cons p ps ih =>
    obtain ⟨hfirst, hrest⟩ := List.pairwise_cons.1 hsorted
    have hp : p.firstLine ≤ p.lastLine := hordered p List.mem_cons_self
    refine List.pairwise_cons.2 ⟨fun b hb hline => ?_,
      ih hrest (fun q hq => hordered q (List.mem_cons_of_mem p hq)) _⟩
    exact lt_of_mem_fill hrest hfirst (takenUpTo_occupy_firstFree hp) hb hline.symm

/-! ## Lanes as they should be nested -/

/-- Labels that start in one line have lanes in the order in which they enclose each other. -/
structure Nests (lanes : Lanes) (ps : List Placement) : Prop where
  lt_iff : ∀ p ∈ ps, ∀ q ∈ ps, p.isMultiline = true → q.isMultiline = true →
    p.firstLine = q.firstLine → ∃ j k, lanes.lane? p = some j ∧ lanes.lane? q = some k ∧
      (j < k ↔ p.Encloses q)
  /-- Where nothing else is asked for, the shorter one is the inner one. -/
  shorter : ∀ p ∈ ps, ∀ q ∈ ps, p.isMultiline = true → q.isMultiline = true →
    p.firstLine = q.firstLine → p.label.order = q.label.order → p.label.rank = q.label.rank →
    q.length < p.length → ∃ j k, lanes.lane? p = some j ∧ lanes.lane? q = some k ∧ j < k

section Nests

variable (hordered : ∀ p ∈ ps, p.firstLine ≤ p.lastLine) (hindices : (ps.map (·.index)).Nodup)

include hordered hindices

/-- Of two labels that start in one line the one in the lower lane encloses the other one. -/
theorem lt_iff_encloses (hp : (p, lane) ∈ assign ps) (hq : (q, k) ∈ assign ps)
    (hline : p.firstLine = q.firstLine) : lane < k ↔ p.Encloses q := by
  have hlanes : (assign ps).Pairwise fun a b => a.1.firstLine = b.1.firstLine → a.2 < b.2 :=
    pairwise_fill_lt (Placement.pairwise_laneOrder ps)
      (fun p hp => hordered p (Placement.mem_laneOrder.1 hp).1) []
  have horder := Placement.pairwise_laneOrder_encloses hindices
  rw [← map_fst_assign] at horder
  have hencloses : (assign ps).Pairwise fun a b =>
      a.1.firstLine = b.1.firstLine → a.1.Encloses b.1 := List.pairwise_map.1 horder
  -- Lanes and order agree on each pair, whichever of the two stands first in the list.
  let Agree (a b : Placement × Nat) : Prop := a.1.firstLine = b.1.firstLine →
    (a.2 < b.2 ↔ a.1.Encloses b.1) ∧ (b.2 < a.2 ↔ b.1.Encloses a.1)
  have hagree : (assign ps).Pairwise Agree := hlanes.imp₂ (fun a b hlt henc hline =>
    ⟨iff_of_true (hlt hline) (henc hline),
      iff_of_false (Nat.lt_asymm (hlt hline)) (henc hline).not_symm⟩) hencloses
  have hsymm : Std.Symm Agree := ⟨fun a b h hline => (h hline.symm).symm⟩
  by_cases hsame : (p, lane) = (q, k)
  · obtain ⟨rfl, rfl⟩ := Prod.mk.inj hsame
    exact iff_of_false (Nat.lt_irrefl lane) fun h => h.not_symm h
  · exact (hagree.forall hp hq hsame hline).1

/-- **Labels that start together are nested.** The labels of a diagnostic stand in ascending lines
(`Placement.firstLine_le_lastLine`) and have indices of their own. -/
theorem nests_assign : (assign ps).Nests ps := by
  have hlanes : ∀ p ∈ ps, ∀ q ∈ ps, p.isMultiline = true → q.isMultiline = true →
      p.firstLine = q.firstLine → ∃ j k, (assign ps).lane? p = some j ∧
        (assign ps).lane? q = some k ∧ (j < k ↔ p.Encloses q) := by
    intro p hp q hq hpmulti hqmulti hline
    obtain ⟨j, hj⟩ := exists_mem_assign hp hpmulti
    obtain ⟨k, hk⟩ := exists_mem_assign hq hqmulti
    exact ⟨j, k, (lane?_assign_eq_some_iff hindices).2 hj,
      (lane?_assign_eq_some_iff hindices).2 hk, lt_iff_encloses hordered hindices hj hk hline⟩
  refine ⟨hlanes, fun p hp q hq hpmulti hqmulti hline horder hrank hlength => ?_⟩
  obtain ⟨j, k, hj, hk, hlt⟩ := hlanes p hp q hq hpmulti hqmulti hline
  exact ⟨j, k, hj, hk, hlt.2 (Or.inr ⟨horder, Or.inr ⟨hrank, Or.inl hlength⟩⟩)⟩

end Nests

/-- Two lanes are free where two labels start, and the lane between them is not. The longer label
takes the outer one, although it is declared later. -/
theorem nests_assign_between :
    let place (index : Nat) (order : Int) (stop first last : Nat) : Placement :=
      ⟨index, { span := ⟨⟨0⟩, 0, 0, by decide, by decide⟩, order := order }, 0, stop, first, last,
        0, 0⟩
    let ps := [place 0 0 5 0 2, place 1 1 20 0 9, place 2 2 5 0 2, place 3 0 3 4 5, place 4 0 8 4 7]
    (∀ p ∈ ps, p.firstLine ≤ p.lastLine) ∧ (ps.map (·.index)).Nodup ∧ (assign ps).Nests ps ∧
      (assign ps).map (fun e => (e.1.index, e.2)) = [(0, 0), (1, 1), (2, 2), (4, 0), (3, 2)] := by
  intro place ps
  have hordered : ∀ p ∈ ps, p.firstLine ≤ p.lastLine := by decide
  have hindices : (ps.map (·.index)).Nodup := by decide
  have horder : Placement.laneOrder ps =
      [place 0 0 5 0 2, place 1 1 20 0 9, place 2 2 5 0 2, place 4 0 8 4 7, place 3 0 3 4 5] := by
    simp [Placement.laneOrder, Placement.sortOn, ps, place, Placement.isMultiline, List.mergeSort,
      List.MergeSort.Internal.splitInTwo, Placement.laneKey, keyLe, Placement.length]
  refine ⟨hordered, hindices, nests_assign hordered hindices, ?_⟩
  rw [assign, horder]
  rfl

end Lanes

end SourceReport
