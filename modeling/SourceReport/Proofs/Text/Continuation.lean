import SourceReport.Proofs.Text.Encoding
import SourceReport.Source.Boundary

/-!
# The bytes between two characters

In UTF-8 one bit pattern is kept for the bytes that go on with a character: `10xxxxxx`. The first
byte of a character never has it and all its other bytes do, whatever its width. So whether a
character starts at an offset is seen from the one byte there, without reading what comes before.

Results:
* `CodePoint.exists_utf8_eq_cons`: the bytes of a code point are a first byte and continuations.
* `Text.isBoundary_eq_not_isContinuation`: an offset inside a text is a boundary exactly if the byte
  there is no continuation.
-/

namespace SourceReport

/-- A byte of the form `10xxxxxx`. -/
def Utf8.isContinuation (b : UInt8) : Bool := b &&& 0xC0 == 0x80

/-- The two upper bits bound a byte from below and from above. -/
theorem Utf8.isContinuation_ofNat {n : Nat} (h : n < 256) :
    isContinuation (.ofNat n) = decide (0x80 ≤ n ∧ n < 0xC0) := by
  have hall : ∀ n < 256, (n &&& 0xC0 = 0x80 ↔ 0x80 ≤ n ∧ n < 0xC0) := by decide +kernel
  rw [isContinuation, Bool.beq_eq_decide_eq, decide_eq_decide, ← hall n h, ← UInt8.toNat_inj,
    UInt8.toNat_and, UInt8.toNat_ofNat_of_lt' h]
  rfl

namespace CodePoint

theorem isContinuation_continuation (n : Nat) :
    Utf8.isContinuation (.ofNat (0x80 + n % 64)) = true := by
  rw [Utf8.isContinuation_ofNat (by omega), decide_eq_true_iff]
  omega

/-- **One first byte, then continuations.** -/
theorem exists_utf8_eq_cons (c : CodePoint) :
    ∃ lead more, c.utf8 = lead :: more ∧ Utf8.isContinuation lead = false ∧
      more.all Utf8.isContinuation = true := by
  have hlt := c.isLt
  have hlead : ∀ n, n < 256 → ¬ (0x80 ≤ n ∧ n < 0xC0) →
      Utf8.isContinuation (.ofNat n) = false := by
    intro n hn hout
    rw [Utf8.isContinuation_ofNat hn, decide_eq_false hout]
  by_cases h1 : c.val < 0x80
  · exact ⟨_, _, utf8_of_lt_80 h1, hlead _ (by omega) (by omega), rfl⟩
  · by_cases h2 : c.val < 0x800
    · refine ⟨_, _, utf8_of_lt_800 (by omega) h2, hlead _ (by omega) (by omega), ?_⟩
      simp only [List.all_cons, List.all_nil, isContinuation_continuation, Bool.and_self]
    · by_cases h3 : c.val < 0x10000
      · refine ⟨_, _, utf8_of_lt_10000 (by omega) h3, hlead _ (by omega) (by omega), ?_⟩
        simp only [List.all_cons, List.all_nil, isContinuation_continuation, Bool.and_self]
      · refine ⟨_, _, utf8_of_le (by omega), hlead _ (by omega) (by omega), ?_⟩
        simp only [List.all_cons, List.all_nil, isContinuation_continuation, Bool.and_self]

end CodePoint

namespace Text

theorem utf8_cons (c : CodePoint) (t : Text) : utf8 (c :: t) = c.utf8 ++ utf8 t := rfl

theorem utf8_append (a b : Text) : utf8 (a ++ b) = utf8 a ++ utf8 b := List.flatMap_append

/-- **The byte at an offset tells whether it is a boundary.** -/
theorem isBoundary_eq_not_isContinuation {t : Text} {n : Nat} {b : UInt8}
    (h : t.utf8[n]? = some b) : t.isBoundary n = !Utf8.isContinuation b := by
  fun_induction isBoundary t n with
  | case1 t =>
    cases t with
    | nil => cases h
    | cons c t =>
      obtain ⟨lead, more, hbytes, hlead, -⟩ := c.exists_utf8_eq_cons
      rw [utf8_cons, hbytes, List.cons_append, List.getElem?_cons_zero, Option.some.injEq] at h
      rw [← h, hlead]
      rfl
  | case2 n => cases h
  | case3 c t n ih =>
    obtain ⟨lead, more, hbytes, -, hmore⟩ := c.exists_utf8_eq_cons
    have hwidth : more.length + 1 = c.utf8Width := by
      rw [← c.length_utf8, hbytes, List.length_cons]
    rw [utf8_cons] at h
    by_cases hin : n + 1 < c.utf8Width
    · -- The offset lies behind the first byte of this character and before its end.
      have hb : b ∈ more := by
        rw [hbytes, List.cons_append, List.getElem?_cons_succ,
          List.getElem?_append_left (by omega)] at h
        exact List.mem_of_getElem? h
      rw [List.all_eq_true.1 hmore b hb, decide_eq_false (by omega)]
      rfl
    · rw [List.getElem?_append_right (by rw [c.length_utf8]; omega), c.length_utf8] at h
      rw [ih h, decide_eq_true (by omega), Bool.true_and]

end Text

end SourceReport
