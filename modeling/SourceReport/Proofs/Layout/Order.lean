import SourceReport.Layout.Order

/-!
# Sorted labels

Keys are compared from the front, which is a total order on lists of numbers. So the labels sorted
by a key are the same labels in ascending order of their keys.

Results:
* `keyLe_total`, `keyLe_trans`: keys are totally ordered.
* `Placement.pairwise_sortOn`: sorted labels are in ascending order.
* `Placement.pairwise_messageOrder`: labels in the order of their messages.
* `Placement.isFirst_owner?`: a shared cell belongs to the label with the best claim.
* `Placement.pairwise_laneOrder`: no label takes its lane before one that starts earlier.
-/

namespace SourceReport

/-! ## Keys -/

theorem keyLe_cons_iff {a b : Int} {as bs : List Int} :
    keyLe (a :: as) (b :: bs) = true ↔ a < b ∨ a = b ∧ keyLe as bs = true := by
  simp [keyLe]

/-- Of two keys one comes first. -/
theorem keyLe_total (a b : List Int) : (keyLe a b || keyLe b a) = true := by
  rw [Bool.or_eq_true]
  induction a generalizing b with
  | nil => exact Or.inl rfl
  | cons x a ih =>
    cases b with
    | nil => exact Or.inr rfl
    | cons y b =>
      rw [keyLe_cons_iff, keyLe_cons_iff]
      rcases Int.lt_trichotomy x y with h | rfl | h
      · exact Or.inl (Or.inl h)
      · exact (ih b).imp (fun h => Or.inr ⟨rfl, h⟩) fun h => Or.inr ⟨rfl, h⟩
      · exact Or.inr (Or.inl h)

theorem keyLe_trans (a b c : List Int) (hab : keyLe a b = true) (hbc : keyLe b c = true) :
    keyLe a c = true := by
  induction a generalizing b c with
  | nil => rfl
  | cons x a ih =>
    cases b with
    | nil => cases hab
    | cons y b =>
      cases c with
      | nil => cases hbc
      | cons z c =>
        rw [keyLe_cons_iff] at hab hbc ⊢
        rcases hab with hxy | ⟨rfl, hab⟩
        · rcases hbc with hyz | ⟨rfl, -⟩
          · exact Or.inl (Int.lt_trans hxy hyz)
          · exact Or.inl hxy
        · rcases hbc with hxz | ⟨rfl, hbc⟩
          · exact Or.inl hxz
          · exact Or.inr ⟨rfl, ih b c hab hbc⟩

namespace Placement

variable {ps : List Placement} {p : Placement}

/-! ## Sorting -/

theorem sortOn_perm (key : Placement → List Int) (ps : List Placement) :
    (sortOn key ps).Perm ps :=
  List.mergeSort_perm _ _

/-- **Sorted labels** are in ascending order of their keys. -/
theorem pairwise_sortOn (key : Placement → List Int) (ps : List Placement) :
    (sortOn key ps).Pairwise fun p q => keyLe (key p) (key q) = true :=
  List.pairwise_mergeSort (fun p q r => keyLe_trans (key p) (key q) (key r))
    (fun p q => keyLe_total (key p) (key q)) ps

/-- Sorted labels are still told apart by their indices. -/
theorem pairwise_index_sortOn (key : Placement → List Int) (h : (ps.map (·.index)).Nodup) :
    (sortOn key ps).Pairwise fun p q => p.index ≠ q.index :=
  List.pairwise_map.1 (((sortOn_perm key ps).map _).nodup_iff.2 h)

theorem messageOrder_perm (ps : List Placement) :
    (messageOrder ps).Perm (ps.filter (·.hasMessage)) :=
  sortOn_perm _ _

theorem laneOrder_perm (ps : List Placement) : (laneOrder ps).Perm (ps.filter (·.isMultiline)) :=
  sortOn_perm _ _

theorem mem_messageOrder : p ∈ messageOrder ps ↔ p ∈ ps ∧ p.hasMessage = true := by
  rw [(messageOrder_perm ps).mem_iff, List.mem_filter]

theorem mem_laneOrder : p ∈ laneOrder ps ↔ p ∈ ps ∧ p.isMultiline = true := by
  rw [(laneOrder_perm ps).mem_iff, List.mem_filter]

/-- The message of a label comes before that of another one: a lower order first, then the higher
priority, then as declared. -/
def SpeaksBefore (p q : Placement) : Prop :=
  p.label.order < q.label.order ∨ p.label.order = q.label.order ∧
    (q.label.rank < p.label.rank ∨ p.label.rank = q.label.rank ∧ p.index < q.index)

theorem speaksBefore_of_keyLe {p q : Placement} (hindex : p.index ≠ q.index)
    (h : keyLe (messageKey p) (messageKey q) = true) : p.SpeaksBefore q := by
  simp only [messageKey, keyLe_cons_iff] at h
  unfold SpeaksBefore
  omega

/-- **Messages are in order.** -/
theorem pairwise_messageOrder (h : (ps.map (·.index)).Nodup) :
    (messageOrder ps).Pairwise SpeaksBefore := by
  have hfilter : ((ps.filter (·.hasMessage)).map (·.index)).Nodup :=
    h.sublist (List.filter_sublist.map _)
  exact (pairwise_index_sortOn messageKey hfilter).imp₂
    (fun p q hne hle => speaksBefore_of_keyLe hne hle) (pairwise_sortOn _ _)

/-! ## The first one -/

/-- One of some labels, which comes before all others of them. -/
structure IsFirst (before : Placement → Placement → Prop) (among : Placement → Prop)
    (p : Placement) : Prop where
  mem : among p
  before_others : ∀ q, among q → q ≠ p → before p q

theorem isFirst_find? {before : Placement → Placement → Prop} (h : ps.Pairwise before)
    {test : Placement → Bool} (hp : ps.find? test = some p) :
    IsFirst before (fun q => q ∈ ps ∧ test q = true) p := by
  refine ⟨⟨List.mem_of_find?_eq_some hp, List.find?_some hp⟩, fun q hq hne => ?_⟩
  obtain ⟨-, above, below, rfl, habove⟩ := List.find?_eq_some_iff_append.1 hp
  obtain ⟨-, hbelow, -⟩ := List.pairwise_append.1 h
  rcases List.mem_append.1 hq.1 with hmem | hmem
  · have hfalse := habove q hmem
    rw [hq.2] at hfalse
    cases hfalse
  · exact (List.pairwise_cons.1 hbelow).1 q ((List.mem_cons.1 hmem).resolve_left hne)

/-! ## Shared cells -/

/-- The claim to a cell: the higher priority, then the shorter span, then as declared. -/
theorem keyLe_claimKey_iff {p q : Placement} : keyLe p.claimKey q.claimKey = true ↔
    q.label.rank < p.label.rank ∨ p.label.rank = q.label.rank ∧
      (p.label.span.length < q.label.span.length ∨
        p.label.span.length = q.label.span.length ∧ p.index ≤ q.index) := by
  have hnil : keyLe [] [] = true := rfl
  simp only [claimKey, Label.weight, keyLe_cons_iff, hnil, and_true]
  omega

/-- Of two labels that cover a cell the first one has the better claim: the higher priority, then
the shorter span, then declared earlier. -/
def ClaimsBefore (p q : Placement) : Prop :=
  q.label.rank < p.label.rank ∨ p.label.rank = q.label.rank ∧
    (p.label.span.length < q.label.span.length ∨
      p.label.span.length = q.label.span.length ∧ p.index < q.index)

theorem ClaimsBefore.asymm {p q : Placement} (h : p.ClaimsBefore q) : ¬ q.ClaimsBefore p := by
  unfold ClaimsBefore at *
  omega

theorem claimsBefore_of_keyLe {p q : Placement} (hindex : p.index ≠ q.index)
    (h : keyLe (claimKey p) (claimKey q) = true) : p.ClaimsBefore q := by
  rw [keyLe_claimKey_iff] at h
  unfold ClaimsBefore
  omega

/-- **A cell belongs to the label with the best claim.** -/
theorem isFirst_owner? (h : (ps.map (·.index)).Nodup) (hp : owner? ps = some p) :
    IsFirst ClaimsBefore (· ∈ ps) p := by
  have hsorted : (sortOn claimKey ps).Pairwise ClaimsBefore :=
    (pairwise_index_sortOn claimKey h).imp₂ (fun p q hne hle => claimsBefore_of_keyLe hne hle)
      (pairwise_sortOn _ _)
  obtain ⟨rest, hrest⟩ := List.head?_eq_some_iff.1 hp
  have hmem : ∀ q, q ∈ ps ↔ q = p ∨ q ∈ rest := fun q => by
    rw [← (sortOn_perm claimKey ps).mem_iff, hrest, List.mem_cons]
  rw [hrest] at hsorted
  exact ⟨(hmem p).2 (Or.inl rfl), fun q hq hne =>
    (List.pairwise_cons.1 hsorted).1 q (((hmem q).1 hq).resolve_left hne)⟩

/-! ## Lanes -/

/-- **Labels choose their lanes** in the order in which they start. -/
theorem pairwise_laneOrder (ps : List Placement) :
    (laneOrder ps).Pairwise fun p q => p.firstLine ≤ q.firstLine := by
  refine (pairwise_sortOn laneKey _).imp fun {p q} h => ?_
  rw [laneKey, laneKey, keyLe_cons_iff] at h
  omega

end Placement

end SourceReport
