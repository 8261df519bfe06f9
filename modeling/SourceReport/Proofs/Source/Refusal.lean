import Mathlib.Algebra.Group.Nat.Defs
import SourceReport.Source.Error
import SourceReport.Source.Span

/-!
# Refusals and the numbers they name

A look-up that is refused names the number that it was given, and perhaps the largest one admitted.
The error is built with its message, so it is the one that is meant only if all of its numbers can
be written. The offsets of spans always can; `10 ^ digitLimit` is the first number that cannot.

* `LookupError.IsWritable` says that the numbers of an error can be written.

Results:
* `Text.isWritable_iff`: which integers can be written.
* `LookupError.built_eq_iff`: which error is built for a cause.
-/

namespace SourceReport

theorem Span.start_le_max (span : Span) : span.start ≤ maxOffset :=
  Nat.le_trans span.start_le_stop span.stop_le_max

namespace Text

/-- **An integer can be written** if it has no more than `digitLimit` digits. -/
theorem isWritable_iff {i : Int} : isWritable i = true ↔ i.natAbs < 10 ^ digitLimit := by
  rw [isWritable, decide_eq_true_iff, Nat.pow_eq]

/-- Every integer that is not farther from zero can be written as well. -/
theorem isWritable_of_natAbs_le {i j : Int} (h : i.natAbs ≤ j.natAbs)
    (hj : isWritable j = true) : isWritable i = true :=
  isWritable_iff.2 (Nat.lt_of_le_of_lt h (isWritable_iff.1 hj))

theorem isWritable_neg (i : Int) : isWritable (-i) = isWritable i := by
  rw [isWritable, isWritable, Int.natAbs_neg]

theorem isWritable_of_le_maxOffset {n : Nat} (h : n ≤ maxOffset) : isWritable n = true := by
  have hmax : maxOffset < 10 ^ 10 := by decide
  have hlimit : 10 ^ 10 ≤ 10 ^ digitLimit := Nat.pow_le_pow_right (by decide) (by decide)
  exact isWritable_iff.2 (Nat.lt_of_le_of_lt h (Nat.lt_of_lt_of_le hmax hlimit))

theorem isWritable_pow_digitLimit : isWritable (10 ^ digitLimit : Nat) = false := by
  refine Bool.eq_false_iff.2 fun h => ?_
  have hlt := isWritable_iff.1 h
  rw [Int.natAbs_natCast] at hlt
  exact Nat.lt_irrefl _ hlt

end Text

/-! ## What is built for a cause -/

namespace LookupError

/-- The numbers that an error names can be written. -/
def IsWritable : LookupError → Prop
  | .indexTooLarge given max => Text.isWritable given = true ∧ Text.isWritable max = true
  | .lineTooLarge given max => Text.isWritable given = true ∧ Text.isWritable max = true
  | .columnTooLarge given max => Text.isWritable given = true ∧ Text.isWritable max = true
  | .insideCharacter given => Text.isWritable given = true
  | .digits _ => True

end LookupError

theorem exists_boundMessage_eq_ok {given : Int} {max : Nat} (what : Text)
    (hgiven : Text.isWritable given = true) (hmax : Text.isWritable max = true) :
    ∃ t, boundMessage what given max = .ok t := by
  simp only [boundMessage, Text.writeInt, hgiven, hmax, if_true, bind, Except.bind, pure,
    Except.pure]
  exact ⟨_, rfl⟩

theorem boundMessage_eq_error {given : Int} {max : Nat} (what : Text)
    (h : ¬ (Text.isWritable given = true ∧ Text.isWritable max = true)) :
    boundMessage what given max = .error .writing := by
  unfold boundMessage Text.writeInt
  by_cases hgiven : Text.isWritable given = true
  · have hmax : ¬ Text.isWritable max = true := fun hmax => h ⟨hgiven, hmax⟩
    rw [if_pos hgiven, if_neg hmax]
    rfl
  · rw [if_neg hgiven]
    rfl

namespace LookupError

variable {cause e : LookupError}

/-- The message of an error is written if its numbers can be. -/
theorem exists_write_eq_ok (h : cause.IsWritable) (hcause : ∀ limit, cause ≠ .digits limit) :
    ∃ t, cause.write = .ok t := by
  cases cause with
  | indexTooLarge given max => exact exists_boundMessage_eq_ok _ h.1 h.2
  | lineTooLarge given max => exact exists_boundMessage_eq_ok _ h.1 h.2
  | columnTooLarge given max => exact exists_boundMessage_eq_ok _ h.1 h.2
  | insideCharacter given =>
    have hgiven : Text.isWritable given = true := h
    simp only [write, Text.writeInt, hgiven, if_true, bind, Except.bind, pure, Except.pure]
    exact ⟨_, rfl⟩
  | digits limit => exact absurd rfl (hcause limit)

theorem write_eq_error (h : ¬ cause.IsWritable) : cause.write = .error .writing := by
  cases cause with
  | indexTooLarge given max => exact boundMessage_eq_error _ h
  | lineTooLarge given max => exact boundMessage_eq_error _ h
  | columnTooLarge given max => exact boundMessage_eq_error _ h
  | insideCharacter given =>
    have hgiven : ¬ Text.isWritable given = true := h
    rw [write, Text.writeInt, if_neg hgiven]
    rfl
  | digits limit => exact absurd trivial h

/-- **The error that is built** is the one that is meant if its numbers can be written. -/
theorem built_of_isWritable (h : cause.IsWritable) : cause.built = cause := by
  cases cause with
  | digits limit => rfl
  | _ =>
    obtain ⟨t, ht⟩ := exists_write_eq_ok h fun limit heq => LookupError.noConfusion heq
    rw [built, ht]

theorem built_of_not_isWritable (h : ¬ cause.IsWritable) : cause.built = .digits .writing := by
  rw [built, write_eq_error h]

/-- **Which error is built** for a cause. -/
@[simp] theorem built_eq_iff : cause.built = e ↔
    (cause.IsWritable ∧ cause = e) ∨ (¬ cause.IsWritable ∧ .digits .writing = e) := by
  by_cases h : cause.IsWritable
  · simp [built_of_isWritable h, h]
  · simp [built_of_not_isWritable h, h]

/-- What is built is what was meant, unless it tells of too many digits. -/
theorem eq_of_built_eq (h : cause.built = e) (hne : ∀ limit, e ≠ .digits limit) : cause = e := by
  rcases built_eq_iff.1 h with ⟨-, heq⟩ | ⟨-, heq⟩
  · exact heq
  · exact absurd heq.symm (hne _)

theorem isWritable_of_built_eq_self (h : cause.built = cause) : cause.IsWritable := by
  rcases built_eq_iff.1 h with ⟨hwritable, -⟩ | ⟨-, heq⟩
  · exact hwritable
  · exact heq ▸ trivial

theorem not_isWritable_of_built_eq_digits (h : cause.built = .digits .writing)
    (hcause : ∀ limit, cause ≠ .digits limit) : ¬ cause.IsWritable := by
  rcases built_eq_iff.1 h with ⟨-, heq⟩ | ⟨hnot, -⟩
  · exact absurd heq (hcause _)
  · exact hnot

end LookupError

end SourceReport
