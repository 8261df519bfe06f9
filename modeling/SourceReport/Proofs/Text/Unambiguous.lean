import SourceReport.Proofs.Text.Characters
import SourceReport.Proofs.Text.Continuation

/-!
# Bytes of one text only

No two texts have the same bytes, also where they hold surrogates, which no decoder reads. The bytes
of a text are cut into characters without a decoder: a character ends where a byte comes that is no
continuation. The bytes of one character give its number back.

* `Utf8.number` is the number that one to four bytes stand for.

Results:
* `CodePoint.number_utf8`: the bytes of a code point give it back.
* `CodePoint.utf8_append_inj`: the first character and what follows it are told by the bytes.
* `Text.utf8_injective`: a text is told by its bytes.
-/

namespace SourceReport

/-- The number that the bytes of a character stand for: six bits in each byte behind the first,
which holds the upper bits below its mark. -/
def Utf8.number : List UInt8 → Nat
  | [a] => a.toNat
  | [a, b] => a.toNat % 32 * 64 + b.toNat % 64
  | [a, b, c] => (a.toNat % 16 * 64 + b.toNat % 64) * 64 + c.toNat % 64
  | [a, b, c, d] => ((a.toNat % 8 * 64 + b.toNat % 64) * 64 + c.toNat % 64) * 64 + d.toNat % 64
  | _ => 0

namespace CodePoint

/-- **The bytes of a code point give it back**, surrogate or not. -/
theorem number_utf8 (c : CodePoint) : Utf8.number c.utf8 = c.val := by
  have hlt := c.isLt
  have hbyte : ∀ n < 256, (UInt8.ofNat n).toNat = n := fun n hn => UInt8.toNat_ofNat_of_lt' hn
  by_cases h1 : c.val < 0x80
  · rw [utf8_of_lt_80 h1, Utf8.number, hbyte _ (by omega)]
  · by_cases h2 : c.val < 0x800
    · rw [utf8_of_lt_800 (by omega) h2, Utf8.number, hbyte _ (by omega), hbyte _ (by omega)]
      omega
    · by_cases h3 : c.val < 0x10000
      · rw [utf8_of_lt_10000 (by omega) h3, Utf8.number, hbyte _ (by omega), hbyte _ (by omega),
          hbyte _ (by omega)]
        omega
      · rw [utf8_of_le (by omega), Utf8.number, hbyte _ (by omega), hbyte _ (by omega),
          hbyte _ (by omega), hbyte _ (by omega)]
        omega

theorem utf8_injective : Function.Injective CodePoint.utf8 := by
  intro c d h
  have hval : c.val = d.val := by rw [← number_utf8 c, h, number_utf8]
  exact CodePoint.ext hval

end CodePoint

namespace Text

/-- The bytes of a text start with no continuation. -/
theorem isContinuation_head?_utf8 (t : Text) :
    ∀ b ∈ t.utf8.head?, Utf8.isContinuation b = false := by
  cases t with
  | nil => exact fun b hb => absurd hb (Option.not_mem_none b)
  | cons c t =>
    obtain ⟨lead, more, hbytes, hlead, -⟩ := c.exists_utf8_eq_cons
    intro b hb
    rw [utf8_cons, hbytes, List.cons_append, List.head?_cons, Option.mem_some_iff] at hb
    rw [← hb, hlead]

end Text

/-- **One character, then the rest**: where the first of two texts with the same bytes has a
character, the other has it too, and the bytes behind it are the same. -/
theorem CodePoint.utf8_append_inj {c d : CodePoint} {s t : Text}
    (h : c.utf8 ++ s.utf8 = d.utf8 ++ t.utf8) : c = d ∧ s.utf8 = t.utf8 := by
  obtain ⟨lead, more, hc, -, hmore⟩ := c.exists_utf8_eq_cons
  obtain ⟨lead', more', hd, -, hmore'⟩ := d.exists_utf8_eq_cons
  rw [hc, hd, List.cons_append, List.cons_append, List.cons.injEq] at h
  obtain ⟨hlead, hrest⟩ := h
  -- Both characters go on up to the first byte that is no continuation.
  have hspan := span_append (List.all_eq_true.1 hmore) s.isContinuation_head?_utf8
  have hspan' := span_append (List.all_eq_true.1 hmore') t.isContinuation_head?_utf8
  rw [hrest, hspan', Prod.mk.injEq] at hspan
  obtain ⟨hsame, hbehind⟩ := hspan
  refine ⟨CodePoint.utf8_injective ?_, hbehind.symm⟩
  rw [hc, hd, hlead, hsame]

/-- **No two texts have the same bytes.** -/
theorem Text.utf8_injective : Function.Injective Text.utf8 := by
  intro s
  induction s with
  | nil =>
    intro t h
    cases t with
    | nil => rfl
    | cons d t =>
      obtain ⟨lead, more, hd, -, -⟩ := d.exists_utf8_eq_cons
      rw [Text.utf8_cons, hd] at h
      cases h
  | cons c s ih =>
    intro t h
    cases t with
    | nil =>
      obtain ⟨lead, more, hc, -, -⟩ := c.exists_utf8_eq_cons
      rw [Text.utf8_cons, hc] at h
      cases h
    | cons d t =>
      rw [Text.utf8_cons, Text.utf8_cons] at h
      obtain ⟨rfl, hrest⟩ := CodePoint.utf8_append_inj h
      rw [ih hrest]

/-- Two surrogates do not have the bytes of the character that they are a notation for in UTF-16. -/
example : Text.utf8 [⟨0xD801, by decide⟩, ⟨0xDC00, by decide⟩] ≠
    Text.utf8 [⟨0x10400, by decide⟩] := by decide

end SourceReport
