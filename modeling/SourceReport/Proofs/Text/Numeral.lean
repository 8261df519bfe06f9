import Mathlib.Data.List.Induction
import Mathlib.Data.List.TakeDrop
import Mathlib.Data.List.TakeWhile
import Mathlib.Data.Nat.Digits.Defs
import SourceReport.Proofs.Layout.Width
import SourceReport.Proofs.Text.Characters

/-!
# Numerals

A numeral is a run of decimal digits of any script. No digit is blank, so in a text of numerals with
blanks and other signs between them it is seen from the code points alone where each of them starts
and stops.

* `Text.IsNumeral` is a run of decimal digits, `Text.numeral` the number that it writes;
  `Text.IsBlank` is a run of blanks.

Results:
* `CodePoint.isBlank_of_isDecimal`: no decimal digit is blank.
* `Text.trimStart_append`: where the blanks at the start of a text stop.
* `Text.readDigits_eq`: a numeral is read as its number unless it is too long.
* `Text.isNumeral_ofNat`, `Text.numeral_ofNat`, `Text.length_ofNat_le`: the notation of a number is
  a numeral for it.
-/

namespace SourceReport

/-! ## Digits -/

namespace CodePoint

variable {c : CodePoint}

/-- The ranges of blanks. -/
def blankRanges : List (Nat × Nat) :=
  [(9, 13), (28, 32), (0x85, 0x85), (0xA0, 0xA0), (0x1680, 0x1680), (0x2000, 0x200A),
    (0x2028, 0x2029), (0x202F, 0x202F), (0x205F, 0x205F), (0x3000, 0x3000)]

theorem exists_of_isBlank (h : c.isBlank = true) :
    ∃ r ∈ blankRanges, r.1 ≤ c.val ∧ c.val ≤ r.2 := by
  simp only [blankRanges, List.mem_cons, List.not_mem_nil, or_false, exists_eq_or_imp,
    exists_eq_left]
  simp [isBlank] at h
  omega

theorem blankRanges_apart : ∀ s ∈ blankRanges,
    decimalRanges.ranges.toList.all (fun r => s.2 < r.1 || r.2 < s.1) = true := by
  decide +kernel

theorem isDecimal_eq_contains (c : CodePoint) : c.isDecimal = decimalRanges.contains c := by
  rw [isDecimal, decimalValue?, Option.isSome_map]
  rfl

/-- **No decimal digit is blank**, in any script. -/
theorem isBlank_of_isDecimal (h : c.isDecimal = true) : c.isBlank = false := by
  rw [← Bool.not_eq_true]
  intro hblank
  obtain ⟨r, hr, hlow, hhigh⟩ := exists_of_isBlank hblank
  rw [isDecimal_eq_contains,
    RangeTable.contains_eq_false (blankRanges_apart r hr) hlow hhigh] at h
  cases h

end CodePoint

namespace Text

variable {a b t : Text}

/-! ## Runs at the start of a text -/

/-- A text of blanks. -/
def IsBlank (t : Text) : Prop := ∀ c ∈ t, c.isBlank = true

theorem trimStart_append (ha : IsBlank a) (hb : ∀ c ∈ b.head?, c.isBlank = false) :
    trimStart (a ++ b) = b := by
  have hspan := span_append ha hb
  rw [List.span_eq_takeWhile_dropWhile] at hspan
  exact congrArg Prod.snd hspan

/-- A text is a run and what follows it. -/
theorem exists_span_eq (p : CodePoint → Bool) (t : Text) :
    ∃ a b, t.span p = (a, b) ∧ t = a ++ b ∧ ∀ c ∈ a, p c = true := by
  exact ⟨t.takeWhile p, t.dropWhile p, List.span_eq_takeWhile_dropWhile p t,
    List.takeWhile_append_dropWhile.symm, fun c hc => List.mem_takeWhile_imp hc⟩

theorem exists_eq_append_trimStart (t : Text) : ∃ a, t = a ++ trimStart t ∧ IsBlank a :=
  ⟨t.takeWhile (·.isBlank), List.takeWhile_append_dropWhile.symm, fun _ hc =>
    List.mem_takeWhile_imp hc⟩

/-! ## Numerals -/

/-- A run of decimal digits of any script. -/
structure IsNumeral (t : Text) : Prop where
  ne_nil : t ≠ []
  decimal : ∀ c ∈ t, c.isDecimal = true

/-- The number that decimal digits write, the last one of them for the ones. -/
def numeral (t : Text) : Nat := Nat.ofDigits 10 (t.reverse.map fun c => c.decimalValue?.getD 0)

/-- A numeral starts with no blank. -/
theorem IsNumeral.isBlank_head? (ht : t.IsNumeral) : ∀ c ∈ (t ++ b).head?, c.isBlank = false := by
  intro c hc
  cases t with
  | nil => exact absurd rfl ht.ne_nil
  | cons d t =>
    obtain rfl : d = c := Option.some.inj hc
    exact CodePoint.isBlank_of_isDecimal (ht.decimal d List.mem_cons_self)

/-- The digits are read from the left. -/
theorem ofDigits_eq_numeral (h : ∀ c ∈ t, c.isDecimal = true) : ofDigits 10 t = t.numeral := by
  induction t using List.reverseRecOn with
  | nil => rfl
  | append_singleton t c ih =>
    have hc : c.isDecimal = true := h c (List.mem_append_right t (List.mem_singleton_self c))
    obtain ⟨n, hn⟩ := Option.isSome_iff_exists.1 hc
    have hdigit : digitValue? c = some n := by rw [digitValue?, hn, Option.some_or]
    have hrest := ih fun d hd => h d (List.mem_append_left _ hd)
    rw [ofDigits] at hrest
    rw [ofDigits, List.foldl_append, List.foldl_cons, List.foldl_nil, hrest, hdigit, numeral,
      numeral, List.reverse_append, List.reverse_singleton, List.singleton_append, List.map_cons,
      hn, Nat.ofDigits_cons, Option.getD_some]
    omega

/-- **A numeral is read** as its number, unless it has too many digits. -/
theorem readDigits_eq (h : ∀ c ∈ t, c.isDecimal = true) :
    readDigits t =
      if t.length ≤ digitLimit then .ok t.numeral else .error (.reading t.length) := by
  by_cases hlimit : t.length ≤ digitLimit
  · rw [readDigits, if_neg (Nat.not_lt.2 hlimit), if_pos hlimit, ofDigits_eq_numeral h]
  · rw [readDigits, if_pos (Nat.lt_of_not_le hlimit), if_neg hlimit]

/-- The notation of a number is a numeral. -/
theorem isNumeral_ofNat (n : Nat) : (ofNat n).IsNumeral where
  ne_nil := by
    rw [ofNat_eq_map]
    exact fun h => Nat.toDigits_ne_nil (List.map_eq_nil_iff.1 h)
  decimal := by
    intro c hc
    have hdigits : ∀ k < 10, (CodePoint.ofChar (Nat.digitChar k)).isDecimal = true := by
      decide +kernel
    rw [ofNat_eq_map] at hc
    obtain ⟨d, hd, rfl⟩ := List.mem_map.1 hc
    obtain ⟨k, hk, rfl⟩ := exists_digitChar_of_mem_toDigits (by decide) hd
    exact hdigits k hk

theorem numeral_ofNat (n : Nat) : (ofNat n).numeral = n := by
  rw [← ofDigits_eq_numeral (isNumeral_ofNat n).decimal, ofDigits_ofNat]

theorem length_ofNat_le {n limit : Nat} (hlimit : 0 < limit) (h : n < 10 ^ limit) :
    (ofNat n).length ≤ limit := by
  rw [ofNat_eq_map, List.length_map]
  exact Nat.toDigits_length 10 n limit hlimit h

/-! ## Zeros in front -/

theorem IsNumeral.repeated_zero_append (ht : t.IsNumeral) (n : Nat) :
    (repeated n '0' ++ t).IsNumeral where
  ne_nil := List.append_ne_nil_of_right_ne_nil _ ht.ne_nil
  decimal := by
    have hzero : (CodePoint.ofChar '0').isDecimal = true := by decide +kernel
    intro c hc
    rcases List.mem_append.1 hc with hc | hc
    · rw [List.eq_of_mem_replicate hc, hzero]
    · exact ht.decimal c hc

/-- Zeros in front of a numeral do not change its number. -/
theorem numeral_repeated_zero_append (n : Nat) (t : Text) :
    numeral (repeated n '0' ++ t) = t.numeral := by
  have hzero : (CodePoint.ofChar '0').decimalValue?.getD 0 = 0 := by decide +kernel
  rw [numeral, repeated, List.reverse_append, List.reverse_replicate, List.map_append,
    List.map_replicate, hzero, Nat.ofDigits_append_replicate_zero, numeral]

end Text

end SourceReport
