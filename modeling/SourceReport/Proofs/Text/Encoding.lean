import SourceReport.Text.Utf8

/-!
# Reading what was encoded

The bytes of a text without surrogates are read back as that text. The decoder is followed through
the one to four bytes of a code point: a lead byte opens a sequence that carries the upper bits, and
every continuation byte adds six more.

Results:
* `decodeFrom_utf8_append`: from the start of a code point the decoder reads exactly its bytes and
  goes on behind them.
* `decode?_utf8`: decoding the encoding of a text that has one answers the text.
-/

namespace SourceReport

namespace CodePoint

variable {c : CodePoint}

/-! ## The bytes by width -/

theorem utf8_of_lt_80 (h : c.val < 0x80) : c.utf8 = [.ofNat c.val] := by
  simp only [utf8, if_pos h]

theorem utf8_of_lt_800 (h₁ : 0x80 ≤ c.val) (h₂ : c.val < 0x800) :
    c.utf8 = [.ofNat (0xC0 + c.val / 64), .ofNat (0x80 + c.val % 64)] := by
  simp only [utf8, if_neg (Nat.not_lt.2 h₁), if_pos h₂]
  rfl

theorem utf8_of_lt_10000 (h₁ : 0x800 ≤ c.val) (h₂ : c.val < 0x10000) :
    c.utf8 = [.ofNat (0xE0 + c.val / 4096), .ofNat (0x80 + c.val / 64 % 64),
      .ofNat (0x80 + c.val % 64)] := by
  have h₀ : ¬ c.val < 0x80 := by omega
  simp only [utf8, if_neg h₀, if_neg (Nat.not_lt.2 h₁), if_pos h₂]
  rfl

theorem utf8_of_le (h : 0x10000 ≤ c.val) :
    c.utf8 = [.ofNat (0xF0 + c.val / 262144), .ofNat (0x80 + c.val / 4096 % 64),
      .ofNat (0x80 + c.val / 64 % 64), .ofNat (0x80 + c.val % 64)] := by
  have h₀ : ¬ c.val < 0x80 := by omega
  have h₁ : ¬ c.val < 0x800 := by omega
  simp only [utf8, if_neg h₀, if_neg h₁, if_neg (Nat.not_lt.2 h)]
  rfl

/-- A surrogate is a code point between two bounds. -/
theorem isSurrogate_eq_false_iff : c.isSurrogate = false ↔ c.val < 0xD800 ∨ 0xDFFF < c.val := by
  simp only [isSurrogate, Bool.and_eq_false_iff, decide_eq_false_iff_not]
  omega

end CodePoint

namespace Utf8

theorem codePoint_val (c : CodePoint) : codePoint c.val = c := by
  simp only [codePoint, CodePoint.ofNat?, dif_pos c.isLt, Option.getD_some]

/-! ## One byte -/

theorem decodeFrom_ascii {index : Nat} {done : Text} {b : UInt8} {rest : List UInt8}
    (h : b < 0x80) : decodeFrom index none done (b :: rest) =
      decodeFrom (index + 1) none (codePoint b.toNat :: done) rest := by
  rw [decodeFrom]
  simp only [if_pos h]

theorem decodeFrom_lead {index : Nat} {done : Text} {b : UInt8} {rest : List UInt8} {p : Open}
    (h : ¬ b < 0x80) (hp : lead? index b = some p) :
    decodeFrom index none done (b :: rest) = decodeFrom (index + 1) (some p) done rest := by
  rw [decodeFrom]
  simp only [if_neg h, hp]

theorem decodeFrom_last {index : Nat} {done : Text} {b : UInt8} {rest : List UInt8} {p : Open}
    (hmore : p.more = 0) (hb : p.low ≤ b ∧ b ≤ p.high) :
    decodeFrom index (some p) done (b :: rest) =
      decodeFrom (index + 1) none (codePoint (p.value * 64 + b.toNat % 64) :: done) rest := by
  rw [decodeFrom]
  simp only [if_pos hb, hmore]

theorem decodeFrom_more {index more : Nat} {done : Text} {b : UInt8} {rest : List UInt8} {p : Open}
    (hmore : p.more = more + 1) (hb : p.low ≤ b ∧ b ≤ p.high) :
    decodeFrom index (some p) done (b :: rest) =
      decodeFrom (index + 1)
        (some ⟨p.first, b :: p.bytes, p.value * 64 + b.toNat % 64, more, 0x80, 0xBF⟩) done
        rest := by
  rw [decodeFrom]
  simp only [if_pos hb, hmore]

/-! ## Bytes as numbers -/

theorem ofNat_lt_iff {n : Nat} (h : n < 256) (b : UInt8) : .ofNat n < b ↔ n < b.toNat := by
  rw [UInt8.lt_iff_toNat_lt, UInt8.toNat_ofNat_of_lt' h]

theorem le_ofNat_iff {n : Nat} (h : n < 256) (b : UInt8) : b ≤ .ofNat n ↔ b.toNat ≤ n := by
  rw [UInt8.le_iff_toNat_le, UInt8.toNat_ofNat_of_lt' h]

theorem ofNat_le_iff {n : Nat} (h : n < 256) (b : UInt8) : .ofNat n ≤ b ↔ n ≤ b.toNat := by
  rw [UInt8.le_iff_toNat_le, UInt8.toNat_ofNat_of_lt' h]

theorem ofNat_eq_iff {n : Nat} (h : n < 256) (b : UInt8) : .ofNat n = b ↔ n = b.toNat := by
  rw [← UInt8.toNat_inj, UInt8.toNat_ofNat_of_lt' h]

/-- A continuation byte lies in the bounds of every continuation and carries its six bits. -/
theorem continuation_bounds (n : Nat) :
    (0x80 : UInt8) ≤ .ofNat (0x80 + n % 64) ∧ UInt8.ofNat (0x80 + n % 64) ≤ 0xBF ∧
      (UInt8.ofNat (0x80 + n % 64)).toNat = 0x80 + n % 64 := by
  have hn : 0x80 + n % 64 < 256 := by omega
  rw [le_ofNat_iff hn, ofNat_le_iff hn]
  refine ⟨?_, ?_, UInt8.toNat_ofNat_of_lt' hn⟩
  · simp
  · simp
    omega

/-! ## The lead byte -/

theorem lead?_two {index n : Nat} (h₁ : 2 ≤ n) (h₂ : n < 32) :
    lead? index (.ofNat (0xC0 + n)) =
      some ⟨index, [.ofNat (0xC0 + n)], n, 0, 0x80, 0xBF⟩ := by
  have hn : 0xC0 + n < 256 := by omega
  have hlow : ¬ 0xC0 + n < (0xC2 : UInt8).toNat := by simp; omega
  have hhigh : 0xC0 + n < (0xE0 : UInt8).toNat := by simp; omega
  simp only [lead?, ofNat_lt_iff hn, if_neg hlow, if_pos hhigh, UInt8.toNat_ofNat_of_lt' hn,
    Nat.add_sub_cancel_left]

/-- The first continuation byte of three starts later after a zero, against overlong forms, and ends
earlier below the surrogates. -/
theorem lead?_three {index n : Nat} (h : n < 16) :
    lead? index (.ofNat (0xE0 + n)) =
      some ⟨index, [.ofNat (0xE0 + n)], n, 1, if n = 0 then 0xA0 else 0x80,
        if n = 13 then 0x9F else 0xBF⟩ := by
  have hn : 0xE0 + n < 256 := by omega
  have hC2 : ¬ 0xE0 + n < (0xC2 : UInt8).toNat := by simp; omega
  have hlow : ¬ 0xE0 + n < (0xE0 : UInt8).toNat := by simp
  have hhigh : 0xE0 + n < (0xF0 : UInt8).toNat := by simp; omega
  have hE0 : 0xE0 + n = (0xE0 : UInt8).toNat ↔ n = 0 := by simp
  have hED : 0xE0 + n = (0xED : UInt8).toNat ↔ n = 13 := by simp; omega
  simp only [lead?, ofNat_lt_iff hn, if_neg hC2, if_neg hlow, if_pos hhigh,
    UInt8.toNat_ofNat_of_lt' hn, Nat.add_sub_cancel_left, ofNat_eq_iff hn, hE0, hED]

/-- The first continuation byte of four starts later after a zero, against overlong forms, and ends
earlier at the end of the code space. -/
theorem lead?_four {index n : Nat} (h : n < 5) :
    lead? index (.ofNat (0xF0 + n)) =
      some ⟨index, [.ofNat (0xF0 + n)], n, 2, if n = 0 then 0x90 else 0x80,
        if n = 4 then 0x8F else 0xBF⟩ := by
  have hn : 0xF0 + n < 256 := by omega
  have hC2 : ¬ 0xF0 + n < (0xC2 : UInt8).toNat := by simp; omega
  have hE0 : ¬ 0xF0 + n < (0xE0 : UInt8).toNat := by simp; omega
  have hlow : ¬ 0xF0 + n < (0xF0 : UInt8).toNat := by simp
  have hhigh : 0xF0 + n < (0xF5 : UInt8).toNat := by simp; omega
  have hF0 : 0xF0 + n = (0xF0 : UInt8).toNat ↔ n = 0 := by simp
  have hF4 : 0xF0 + n = (0xF4 : UInt8).toNat ↔ n = 4 := by simp; omega
  simp only [lead?, ofNat_lt_iff hn, if_neg hC2, if_neg hE0, if_neg hlow, if_pos hhigh,
    UInt8.toNat_ofNat_of_lt' hn, Nat.add_sub_cancel_left, ofNat_eq_iff hn, hF0, hF4]

/-! ## Whole code points -/

theorem not_ofNat_lt_80 {n : Nat} (h : n < 256) (h' : 0x80 ≤ n) : ¬ UInt8.ofNat n < 0x80 := by
  rw [ofNat_lt_iff h]
  simpa using h'

section Widths

variable {c : CodePoint} (index : Nat) (done : Text) (rest : List UInt8)

theorem decodeFrom_utf8_of_lt_80 (h : c.val < 0x80) :
    decodeFrom index none done (c.utf8 ++ rest) =
      decodeFrom (index + c.utf8.length) none (c :: done) rest := by
  have hlow : UInt8.ofNat c.val < 0x80 := by
    rw [ofNat_lt_iff (by omega)]
    simpa using h
  rw [CodePoint.utf8_of_lt_80 h, List.singleton_append, decodeFrom_ascii hlow,
    UInt8.toNat_ofNat_of_lt' (show c.val < 256 by omega), codePoint_val]
  rfl

theorem decodeFrom_utf8_of_lt_800 (h : 0x80 ≤ c.val) (h' : c.val < 0x800) :
    decodeFrom index none done (c.utf8 ++ rest) =
      decodeFrom (index + c.utf8.length) none (c :: done) rest := by
  obtain ⟨hl, hh, hv⟩ := continuation_bounds c.val
  have hval : c.val / 64 * 64 + (0x80 + c.val % 64) % 64 = c.val := by omega
  rw [CodePoint.utf8_of_lt_800 h h']
  simp only [List.cons_append, List.nil_append, List.length_cons, List.length_nil]
  rw [decodeFrom_lead (not_ofNat_lt_80 (by omega) (by omega)) (lead?_two (by omega) (by omega)),
    decodeFrom_last rfl ⟨hl, hh⟩, hv, hval, codePoint_val]

theorem decodeFrom_utf8_of_lt_10000 (hc : c.isSurrogate = false) (h : 0x800 ≤ c.val)
    (h' : c.val < 0x10000) :
    decodeFrom index none done (c.utf8 ++ rest) =
      decodeFrom (index + c.utf8.length) none (c :: done) rest := by
  rw [CodePoint.isSurrogate_eq_false_iff] at hc
  obtain ⟨hl, hh, hv⟩ := continuation_bounds c.val
  obtain ⟨hl', hh', hv'⟩ := continuation_bounds (c.val / 64)
  have hlow : (if c.val / 4096 = 0 then 0xA0 else 0x80 : UInt8) ≤
      .ofNat (0x80 + c.val / 64 % 64) := by
    split
    · rw [le_ofNat_iff (by omega)]
      simp
      omega
    · exact hl'
  -- Here the surrogates are left out: they would be the upper half below 0xED.
  have hhigh : UInt8.ofNat (0x80 + c.val / 64 % 64) ≤
      (if c.val / 4096 = 13 then 0x9F else 0xBF : UInt8) := by
    split
    · rw [ofNat_le_iff (by omega)]
      simp
      omega
    · exact hh'
  have hval : (c.val / 4096 * 64 + (0x80 + c.val / 64 % 64) % 64) * 64 +
      (0x80 + c.val % 64) % 64 = c.val := by omega
  rw [CodePoint.utf8_of_lt_10000 h h']
  simp only [List.cons_append, List.nil_append, List.length_cons, List.length_nil]
  rw [decodeFrom_lead (not_ofNat_lt_80 (by omega) (by omega)) (lead?_three (by omega)),
    decodeFrom_more rfl ⟨hlow, hhigh⟩, decodeFrom_last rfl ⟨hl, hh⟩, hv, hv', hval,
    codePoint_val]

theorem decodeFrom_utf8_of_le (h : 0x10000 ≤ c.val) :
    decodeFrom index none done (c.utf8 ++ rest) =
      decodeFrom (index + c.utf8.length) none (c :: done) rest := by
  have hlt := c.isLt
  obtain ⟨hl, hh, hv⟩ := continuation_bounds c.val
  obtain ⟨hl', hh', hv'⟩ := continuation_bounds (c.val / 64)
  obtain ⟨hl'', hh'', hv''⟩ := continuation_bounds (c.val / 4096)
  have hlow : (if c.val / 262144 = 0 then 0x90 else 0x80 : UInt8) ≤
      .ofNat (0x80 + c.val / 4096 % 64) := by
    split
    · rw [le_ofNat_iff (by omega)]
      simp
      omega
    · exact hl''
  have hhigh : UInt8.ofNat (0x80 + c.val / 4096 % 64) ≤
      (if c.val / 262144 = 4 then 0x8F else 0xBF : UInt8) := by
    split
    · rw [ofNat_le_iff (by omega)]
      simp
      omega
    · exact hh''
  have hval : ((c.val / 262144 * 64 + (0x80 + c.val / 4096 % 64) % 64) * 64 +
      (0x80 + c.val / 64 % 64) % 64) * 64 + (0x80 + c.val % 64) % 64 = c.val := by omega
  rw [CodePoint.utf8_of_le h]
  simp only [List.cons_append, List.nil_append, List.length_cons, List.length_nil]
  rw [decodeFrom_lead (not_ofNat_lt_80 (by omega) (by omega)) (lead?_four (by omega)),
    decodeFrom_more rfl ⟨hlow, hhigh⟩, decodeFrom_more rfl ⟨hl', hh'⟩,
    decodeFrom_last rfl ⟨hl, hh⟩, hv, hv', hv'', hval, codePoint_val]

/-- **One code point**: the decoder reads exactly the bytes of a code point that is no surrogate. -/
theorem decodeFrom_utf8_append (hc : c.isSurrogate = false) :
    decodeFrom index none done (c.utf8 ++ rest) =
      decodeFrom (index + c.utf8.length) none (c :: done) rest := by
  by_cases h1 : c.val < 0x80
  · exact decodeFrom_utf8_of_lt_80 index done rest h1
  · by_cases h2 : c.val < 0x800
    · exact decodeFrom_utf8_of_lt_800 index done rest (by omega) h2
    · by_cases h3 : c.val < 0x10000
      · exact decodeFrom_utf8_of_lt_10000 index done rest hc (by omega) h3
      · exact decodeFrom_utf8_of_le index done rest (by omega)

end Widths

/-- The decoder goes over a text of whole code points and keeps what it has read. -/
theorem decodeFrom_utf8 {t : Text} (ht : ∀ c ∈ t, c.isSurrogate = false) (index : Nat)
    (done : Text) : decodeFrom index none done t.utf8 = .ok (done.reverse ++ t) := by
  induction t generalizing index done with
  | nil => simp [Text.utf8, decodeFrom]
  | cons c t ih =>
    have hc := ht c List.mem_cons_self
    have htail : ∀ d ∈ t, d.isSurrogate = false := fun d hd => ht d (List.mem_cons_of_mem c hd)
    show decodeFrom index none done (c.utf8 ++ Text.utf8 t) = _
    rw [decodeFrom_utf8_append _ _ _ hc, ih htail]
    simp

/-- **What was encoded is read back.** -/
theorem decode?_utf8 {t : Text} (ht : ∀ c ∈ t, c.isSurrogate = false) :
    decode? t.utf8 = .ok t :=
  decodeFrom_utf8 ht 0 []

end Utf8

end SourceReport
