import SourceReport.Source.Span

/-!
# Overlapping spans

Two spans share a byte if an offset lies in both and they are of one source. Bounds that cross are
less than that: an empty span between the ends of another one crosses its bounds and has no byte to
share.

* `Span.SharesByte` says that an offset lies in both spans, `Span.SitsInside` that a span is empty
  and stands between the ends of another one, `Span.commonLength` is the length of the intersection.

Results:
* `Span.contains_clamp`: the bytes of a span that is made of any two numbers.
* `Span.sharesByte_iff`: spans share a byte exactly if their intersection has a length.
* `Span.overlaps_iff`: which spans overlap, and which of them share no byte.
* `Span.not_overlaps_iff_sharesByte`: an empty span that overlaps another one.
-/

namespace SourceReport.Span

variable {a b : Span}

/-- An offset lies in both spans, which are of one source. -/
def SharesByte (a b : Span) : Prop :=
  a.file = b.file ∧ ∃ offset : Int, a.contains offset = true ∧ b.contains offset = true

/-- The span is empty and stands behind the start and before the end of another one. -/
def SitsInside (a b : Span) : Prop :=
  a.file = b.file ∧ a.isEmpty = true ∧ b.start < a.start ∧ a.start < b.stop

/-- The number of bytes in the intersection of the two ranges. -/
def commonLength (a b : Span) : Nat := min a.stop b.stop - max a.start b.start

theorem contains_iff {offset : Int} :
    a.contains offset = true ↔ a.start ≤ offset ∧ offset < a.stop := decide_eq_true_iff

theorem isEmpty_iff : a.isEmpty = true ↔ a.start = a.stop := decide_eq_true_iff

theorem overlaps_eq_true :
    a.overlaps b = true ↔ a.file = b.file ∧ a.start < b.stop ∧ b.start < a.stop :=
  decide_eq_true_iff

/-- **A span made of two numbers** holds the bytes between them that a span can hold at all. -/
theorem contains_clamp {file : SourceId} {start stop offset : Int} :
    (clamp file start stop).contains offset = true ↔
      (start ≤ offset ∧ offset < stop) ∧ 0 ≤ offset ∧ offset < maxOffset := by
  rw [contains_iff]
  simp only [clamp, clampOffset]
  omega

/-- **Spans share a byte** exactly if their intersection has a length: the first offset of it is
shared. -/
theorem sharesByte_iff : a.SharesByte b ↔ a.file = b.file ∧ 0 < a.commonLength b := by
  refine and_congr_right fun _ => ?_
  simp only [contains_iff, commonLength]
  constructor
  · rintro ⟨offset, hoffset⟩
    omega
  · intro hlength
    exact ⟨(max a.start b.start : Nat), by omega⟩

theorem SharesByte.symm (h : a.SharesByte b) : b.SharesByte a := by
  obtain ⟨hfile, offset, ha, hb⟩ := h
  exact ⟨hfile.symm, offset, hb, ha⟩

/-- An empty span shares no byte. -/
theorem not_sharesByte_of_isEmpty (h : a.isEmpty = true) : ¬ a.SharesByte b := by
  rintro ⟨-, offset, ha, -⟩
  rw [isEmpty_iff] at h
  rw [contains_iff] at ha
  omega

/-- Crossing bounds are a common byte or an empty span inside the other one. -/
theorem overlaps_eq_true_iff_or :
    a.overlaps b = true ↔ a.SharesByte b ∨ a.SitsInside b ∨ b.SitsInside a := by
  have ha := a.start_le_stop
  have hb := b.start_le_stop
  rw [overlaps_eq_true, sharesByte_iff]
  simp only [SitsInside, isEmpty_iff, commonLength, eq_comm (a := b.file)]
  by_cases hfile : a.file = b.file
  · simp only [hfile, true_and]
    omega
  · simp only [hfile, false_and, or_self]

/-- **Which spans overlap**: those that share a byte, and an empty span with one that it stands
inside of. The latter are the ones that overlap without a common byte, so that spans which are not
empty overlap exactly if they share a byte, that is, if their intersection has a length. It makes no
difference which of the two is asked. -/
theorem overlaps_iff (a b : Span) :
    (a.overlaps b = true ↔ a.SharesByte b ∨ a.SitsInside b ∨ b.SitsInside a) ∧
    (a.overlaps b = true ∧ ¬ a.SharesByte b ↔ a.SitsInside b ∨ b.SitsInside a) ∧
    (a.SharesByte b ↔ a.file = b.file ∧ 0 < a.commonLength b) ∧
    (a.overlaps b = true ∧ a.isEmpty = true ↔ a.SitsInside b) ∧
    a.overlaps b = b.overlaps a := by
  refine ⟨overlaps_eq_true_iff_or, ?_, sharesByte_iff, ?_, ?_⟩
  · rw [overlaps_eq_true_iff_or]
    constructor
    · rintro ⟨hshares | hinside, hnone⟩
      · exact absurd hshares hnone
      · exact hinside
    · intro hinside
      refine ⟨Or.inr hinside, ?_⟩
      rcases hinside with hinside | hinside
      · exact not_sharesByte_of_isEmpty hinside.2.1
      · exact fun hshares => not_sharesByte_of_isEmpty hinside.2.1 hshares.symm
  · rw [overlaps_eq_true_iff_or]
    constructor
    · rintro ⟨hshares | hinside | hinside, hempty⟩
      · exact absurd hshares (not_sharesByte_of_isEmpty hempty)
      · exact hinside
      · -- Nothing stands inside an empty span.
        have hbounds := hinside.2.2
        rw [isEmpty_iff] at hempty
        omega
    · exact fun hinside => ⟨Or.inr (Or.inl hinside), hinside.2.1⟩
  · rw [Bool.eq_iff_iff, overlaps_eq_true, overlaps_eq_true, eq_comm (a := a.file),
      and_comm (a := a.start < b.stop)]

/-- **An empty span** in the middle of another one overlaps it, and shares no byte with it. -/
theorem not_overlaps_iff_sharesByte :
    let a := SourceId.range ⟨0⟩ 3 8
    let b := SourceId.range ⟨0⟩ 5 5
    ¬ (a.overlaps b = true ↔ a.SharesByte b) := by
  intro a b hiff
  have hoverlaps : a.overlaps b = true := by decide
  have hempty : b.isEmpty = true := by decide
  exact not_sharesByte_of_isEmpty hempty (hiff.1 hoverlaps).symm

end SourceReport.Span
