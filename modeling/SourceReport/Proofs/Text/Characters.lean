import Mathlib.Data.List.TakeDrop
import Mathlib.Data.Nat.Init
import SourceReport.Text.Integer

/-!
# Characters of texts

Which code points stand in the texts of numbers and in the pieces of a text.

Results:
* `exists_digitChar_of_mem_toDigits`: the notation of a number consists of digits of its base.
* `span_append`: where a run at the start of a list stops.
* `Text.isAsciiDigit_of_mem_ofNat`, `Text.hexValue?_of_mem_ofHex`: so do the texts of numbers.
* `Text.ofDigits_ofNat`: the text of a number is read as the number.
* `Text.mem_of_mem_splitOn`: the pieces of a text consist of its characters without the separators.
* `Text.join_append`: two lists of pieces are put together one after the other.
-/

namespace SourceReport

/-- **The notation of a number** consists of digits of its base. -/
theorem exists_digitChar_of_mem_toDigits {b n : Nat} {c : Char} (hb : 1 < b)
    (h : c ∈ Nat.toDigits b n) : ∃ k < b, c = Nat.digitChar k := by
  induction n using Nat.strong_induction_on with
  | _ n ih =>
    rw [Nat.toDigits_eq_if hb] at h
    by_cases hlt : n < b
    · rw [if_pos hlt, List.mem_singleton] at h
      exact ⟨n, hlt, h⟩
    · rw [if_neg hlt, List.mem_append, List.mem_singleton] at h
      rcases h with h | h
      · exact ih (n / b) (Nat.div_lt_self (by omega) hb) h
      · exact ⟨n % b, Nat.mod_lt n (by omega), h⟩

/-- What stands in lists with a separator between them comes from one of these or from the
separator. -/
theorem mem_of_mem_intercalate {α : Type} {x : α} {separator : List α} {xss : List (List α)}
    (h : x ∈ separator.intercalate xss) : x ∈ separator ∨ ∃ xs ∈ xss, x ∈ xs := by
  induction xss with
  | nil => exact absurd h List.not_mem_nil
  | cons xs xss ih =>
    cases xss with
    | nil =>
      rw [List.intercalate_singleton] at h
      exact Or.inr ⟨xs, List.mem_cons_self, h⟩
    | cons xs' xss =>
      rw [List.intercalate_cons_cons, List.mem_append, List.mem_append] at h
      rcases h with (h | h) | h
      · exact Or.inr ⟨xs, List.mem_cons_self, h⟩
      · exact Or.inl h
      · rcases ih h with h | ⟨ys, hys, h⟩
        · exact Or.inl h
        · exact Or.inr ⟨ys, List.mem_cons_of_mem xs hys, h⟩

/-- **Where a run stops**: at what follows it, if that does not go on with it. -/
theorem span_append {α : Type} {p : α → Bool} {as bs : List α} (has : ∀ x ∈ as, p x = true)
    (hbs : ∀ x ∈ bs.head?, p x = false) : (as ++ bs).span p = (as, bs) := by
  rw [List.span_eq_takeWhile_dropWhile, List.takeWhile_append_of_pos has,
    List.dropWhile_append_of_pos has]
  cases bs with
  | nil => rw [List.takeWhile_nil, List.dropWhile_nil, List.append_nil]
  | cons x bs =>
    have hx : ¬ p x = true := Bool.eq_false_iff.1 (hbs x rfl)
    rw [List.takeWhile_cons_of_neg hx, List.dropWhile_cons_of_neg hx, List.append_nil]

/-- Hexadecimal digits are ASCII digits and letters. -/
theorem CodePoint.isAsciiDigit_or_isAsciiLetter {c : CodePoint} (h : c.hexValue?.isSome = true) :
    c.isAsciiDigit = true ∨ c.isAsciiLetter = true := by
  simp only [isAsciiDigit, isAsciiLetter, Bool.and_eq_true, Bool.or_eq_true, decide_eq_true_eq]
  unfold hexValue? at h
  split at h
  · omega
  · split at h
    · omega
    · split at h
      · omega
      · cases h

namespace Text

variable {c : CodePoint}

theorem ofNat_eq_map (n : Nat) : ofNat n = (Nat.toDigits 10 n).map CodePoint.ofChar := by
  rw [ofNat, ofString, Nat.toString_eq_ofList_toDigits, String.toList_ofList]

/-- **The decimal notation** of a number is read as the number. -/
theorem ofDigits_ofNat (n : Nat) : ofDigits 10 (ofNat n) = n := by
  have hdigit : ∀ k < 10, digitValue? (.ofChar (Nat.digitChar k)) = some k := by
    decide +kernel
  rw [ofNat_eq_map]
  induction n using Nat.strong_induction_on with
  | _ n ih =>
    have hlast : digitValue? (.ofChar (Nat.digitChar (n % 10))) = some (n % 10) :=
      hdigit _ (Nat.mod_lt n (by decide))
    rw [Nat.toDigits_eq_if (by decide)]
    by_cases hlt : n < 10
    · rw [if_pos hlt, List.map_singleton, ofDigits, List.foldl_cons, List.foldl_nil, hdigit n hlt]
      exact Nat.zero_add n
    · rw [if_neg hlt, List.map_append, List.map_singleton, ofDigits, List.foldl_append, ← ofDigits,
        ih (n / 10) (by omega), List.foldl_cons, List.foldl_nil, hlast]
      exact Nat.div_add_mod' n 10

theorem isAsciiDigit_of_mem_ofNat {n : Nat} (h : c ∈ ofNat n) : c.isAsciiDigit = true := by
  have hdigits : ∀ k < 10, (CodePoint.ofChar (Nat.digitChar k)).isAsciiDigit = true := by decide
  rw [ofNat_eq_map] at h
  obtain ⟨d, hd, rfl⟩ := List.mem_map.1 h
  obtain ⟨k, hk, rfl⟩ := exists_digitChar_of_mem_toDigits (by decide) hd
  exact hdigits k hk

theorem hexValue?_of_mem_ofHex {width n : Nat} (h : c ∈ ofHex width n) :
    c.hexValue?.isSome = true := by
  have hdigits : ∀ k < 16, (CodePoint.ofChar (Nat.digitChar k)).hexValue?.isSome = true := by decide
  rcases List.mem_append.1 h with h | h
  · rw [List.eq_of_mem_replicate h]
    decide
  · obtain ⟨d, hd, rfl⟩ := List.mem_map.1 h
    obtain ⟨k, hk, rfl⟩ := exists_digitChar_of_mem_toDigits (by decide) hd
    exact hdigits k hk

/-- A piece that can be dropped stands in front. -/
theorem eq_append_of_dropFront? {piece t rest : Text} (h : dropFront? piece t = some rest) :
    t = piece ++ rest := by
  induction piece generalizing t with
  | nil =>
    rw [dropFront?] at h
    exact Option.some.inj h
  | cons p piece ih =>
    cases t with
    | nil => cases h
    | cons c t =>
      rw [dropFront?] at h
      split at h
      · next hpc => rw [hpc, ih h, List.cons_append]
      · cases h

/-- The pieces of a text consist of its characters, the separators excepted. -/
theorem mem_of_mem_splitOn {separator : CodePoint} {t piece : Text}
    (h : piece ∈ t.splitOn separator) (hc : c ∈ piece) : c ∈ t ∧ c ≠ separator := by
  induction t generalizing piece with
  | nil =>
    rw [List.splitOn_nil, List.mem_singleton] at h
    rw [h] at hc
    exact absurd hc List.not_mem_nil
  | cons d t ih =>
    have hkept : ∀ {piece : Text}, piece ∈ t.splitOn separator → c ∈ piece →
        c ∈ d :: t ∧ c ≠ separator := fun hpiece hmem =>
      ⟨List.mem_cons_of_mem d (ih hpiece hmem).1, (ih hpiece hmem).2⟩
    rw [List.splitOn_cons_eq_if_modifyHead] at h
    by_cases hd : d = separator
    · rw [if_pos (beq_iff_eq.2 hd), List.mem_cons] at h
      rcases h with rfl | h
      · exact absurd hc List.not_mem_nil
      · exact hkept h hc
    · rw [if_neg (mt beq_iff_eq.1 hd)] at h
      cases hrest : t.splitOn separator with
      | nil => exact absurd hrest (List.splitOn_ne_nil separator t)
      | cons first pieces =>
        rw [hrest] at h hkept
        rcases List.mem_cons.1 h with rfl | h
        · rcases List.mem_cons.1 hc with rfl | hc
          · exact ⟨List.mem_cons_self, hd⟩
          · exact hkept List.mem_cons_self hc
        · exact hkept (List.mem_cons_of_mem first h) hc

/-- Two lists of pieces are put together one after the other. -/
theorem join_append {separator : Text} {ts us : List Text} (hts : ts ≠ []) (hus : us ≠ []) :
    join separator (ts ++ us) = join separator ts ++ separator ++ join separator us := by
  unfold join
  induction ts with
  | nil => exact absurd rfl hts
  | cons t ts ih =>
    cases ts with
    | nil =>
      rw [List.singleton_append, List.intercalate_cons_of_ne_nil hus, List.intercalate_singleton]
    | cons next ts =>
      have hne : next :: ts ≠ [] := List.cons_ne_nil next ts
      have hne' : next :: ts ++ us ≠ [] := List.append_ne_nil_of_left_ne_nil hne us
      rw [List.cons_append, List.intercalate_cons_of_ne_nil hne', ih hne,
        List.intercalate_cons_cons]
      simp only [List.append_assoc]

end Text

end SourceReport
