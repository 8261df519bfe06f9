import SourceReport.Text.Integer

/-!
# Reading UTF-8

`decode?` reads bytes as a text. A sequence is refused at its first byte that cannot be part of a
well-formed one; the error names the bytes read so far that belong to it.

* A lead byte fixes how many continuation bytes follow and the bounds of the first of them, which
  rule out overlong forms, surrogates and numbers above U+10FFFF (`lead?`).
* Every further continuation byte lies in `80`..`BF`.
* What is read holds no surrogate (`loneSurrogate?_of_decode?`).
-/

namespace SourceReport.Utf8

/-- Why bytes are not UTF-8. -/
inductive Flaw where
  /-- No sequence starts with the byte. -/
  | startByte
  /-- The sequence is broken off by a byte that does not continue it. -/
  | continuationByte
  /-- The bytes end inside a sequence. -/
  | truncated
deriving DecidableEq

/-- The first place where bytes are not UTF-8. -/
structure DecodeError where
  flaw : Flaw
  /-- Index of the first byte of the broken sequence. -/
  first : Nat
  /-- The bytes of the broken sequence, at least one. -/
  bytes : List UInt8
deriving DecidableEq

/-- The reason in words. -/
def Flaw.reason : Flaw → Text
  | .startByte => "invalid start byte"
  | .continuationByte => "invalid continuation byte"
  | .truncated => "unexpected end of data"

/-- The message names the byte if there is one and the range of positions otherwise. -/
def DecodeError.message (e : DecodeError) : Text :=
  let subject : Text := match e.bytes with
    | [b] => "byte 0x" ++ Text.ofHex 2 b.toNat ++ " in position " ++ Text.ofNat e.first
    | bytes => "bytes in position " ++ Text.ofNat e.first ++ "-"
        ++ Text.ofNat (e.first + bytes.length - 1)
  "'utf-8' codec can't decode " ++ subject ++ ": " ++ e.flaw.reason

/-- A sequence that has begun and is not complete. -/
structure Open where
  /-- Index of the lead byte. -/
  first : Nat
  /-- The bytes read, the last one first. -/
  bytes : List UInt8
  /-- The bits read. -/
  value : Nat
  /-- Continuation bytes still to come, less one. -/
  more : Nat
  /-- Bounds of the next byte. -/
  low : UInt8
  high : UInt8

/-- The sequence that a lead byte above `7F` opens. -/
def lead? (first : Nat) (b : UInt8) : Option Open :=
  if b < 0xC2 then none
  else if b < 0xE0 then some ⟨first, [b], b.toNat - 0xC0, 0, 0x80, 0xBF⟩
  else if b < 0xF0 then
    some ⟨first, [b], b.toNat - 0xE0, 1, if b = 0xE0 then 0xA0 else 0x80,
      if b = 0xED then 0x9F else 0xBF⟩
  else if b < 0xF5 then
    some ⟨first, [b], b.toNat - 0xF0, 2, if b = 0xF0 then 0x90 else 0x80,
      if b = 0xF4 then 0x8F else 0xBF⟩
  else none

/-- The code point with the bits read; the bounds of the bytes keep it inside the code space. -/
def codePoint (value : Nat) : CodePoint := (CodePoint.ofNat? value).getD .replacement

/-- Reads on from byte `index`, with the code points read so far in reverse. -/
def decodeFrom (index : Nat) (pending : Option Open) (done : Text) :
    List UInt8 → Except DecodeError Text
  | [] =>
    match pending with
    | none => .ok done.reverse
    | some p => .error ⟨.truncated, p.first, p.bytes.reverse⟩
  | b :: rest =>
    match pending with
    | none =>
      if b < 0x80 then decodeFrom (index + 1) none (codePoint b.toNat :: done) rest
      else match lead? index b with
        | some p => decodeFrom (index + 1) (some p) done rest
        | none => .error ⟨.startByte, index, [b]⟩
    | some p =>
      if p.low ≤ b ∧ b ≤ p.high then
        let value := p.value * 64 + b.toNat % 64
        match p.more with
        | 0 => decodeFrom (index + 1) none (codePoint value :: done) rest
        | more + 1 =>
          decodeFrom (index + 1) (some ⟨p.first, b :: p.bytes, value, more, 0x80, 0xBF⟩) done rest
      else .error ⟨.continuationByte, p.first, p.bytes.reverse⟩

/-- Reads bytes as UTF-8. -/
def decode? (bytes : List UInt8) : Except DecodeError Text := decodeFrom 0 none [] bytes

/-! ## No surrogates -/

/-- The bytes that may follow still bound the code point that an open sequence becomes: it lies
below the surrogates or above them. -/
def Open.Clear (p : Open) : Prop :=
  0x80 ≤ p.low.toNat ∧ p.high.toNat ≤ 0xBF ∧
    match p.more with
    | 0 => p.value * 64 + p.high.toNat < 0xD800 + 0x80 ∨ 0xE000 + 0x80 ≤ p.value * 64 + p.low.toNat
    | 1 => p.value * 64 + p.high.toNat < 0x360 + 0x80 ∨ 0x380 + 0x80 ≤ p.value * 64 + p.low.toNat
    | 2 => 0xE + 0x80 ≤ p.value * 64 + p.low.toNat
    | _ => False

namespace Open.Clear

variable (first : Nat) {b : UInt8}

/-- Two bytes stay below the surrogates. -/
theorem two (h : b < 0xE0) : Clear ⟨first, [b], b.toNat - 0xC0, 0, 0x80, 0xBF⟩ := by
  have hlt : b.toNat < 0xE0 := UInt8.lt_iff_toNat_lt.1 h
  have hbound : (b.toNat - 0xC0) * 64 + 0xBF < 0xD800 + 0x80 := by omega
  exact ⟨Nat.le_refl _, Nat.le_refl _, Or.inl hbound⟩

/-- Three bytes pass them by: the second byte is bounded above behind the one lead byte that reaches
them, every smaller lead byte stays below them, and every greater one starts above them. -/
theorem three (h : ¬ b < 0xE0) : Clear ⟨first, [b], b.toNat - 0xE0, 1,
    if b = 0xE0 then 0xA0 else 0x80, if b = 0xED then 0x9F else 0xBF⟩ := by
  have hge : 0xE0 ≤ b.toNat := Nat.le_of_not_lt fun hlt => h (UInt8.lt_iff_toNat_lt.2 hlt)
  by_cases hE0 : b = 0xE0
  · subst hE0
    have hlow : 0x80 ≤ (0xA0 : UInt8).toNat := by decide
    have hbound : 0 * 64 + 0xBF < 0x360 + 0x80 := by decide
    exact ⟨hlow, Nat.le_refl _, Or.inl hbound⟩
  rw [if_neg hE0]
  by_cases hED : b = 0xED
  · subst hED
    have hhigh : (0x9F : UInt8).toNat ≤ 0xBF := by decide
    have hbound : 0xD * 64 + 0x9F < 0x360 + 0x80 := by decide
    exact ⟨Nat.le_refl _, hhigh, Or.inl hbound⟩
  rw [if_neg hED]
  refine ⟨Nat.le_refl _, Nat.le_refl _, ?_⟩
  have hne : b.toNat ≠ 0xED := fun heq => hED (UInt8.toNat_inj.1 heq)
  rcases Nat.lt_or_gt_of_ne hne with hlt | hgt
  · have hbound : (b.toNat - 0xE0) * 64 + 0xBF < 0x360 + 0x80 := by omega
    exact Or.inl hbound
  · have hbound : 0x380 + 0x80 ≤ (b.toNat - 0xE0) * 64 + 0x80 := by omega
    exact Or.inr hbound

/-- Four bytes start above them. -/
theorem four (h : ¬ b < 0xF0) : Clear ⟨first, [b], b.toNat - 0xF0, 2,
    if b = 0xF0 then 0x90 else 0x80, if b = 0xF4 then 0x8F else 0xBF⟩ := by
  have hge : 0xF0 ≤ b.toNat := Nat.le_of_not_lt fun hlt => h (UInt8.lt_iff_toNat_lt.2 hlt)
  have hhigh : (if b = 0xF4 then 0x8F else 0xBF : UInt8).toNat ≤ 0xBF := by split <;> decide
  by_cases hF0 : b = 0xF0
  · subst hF0
    have hlow : 0x80 ≤ (0x90 : UInt8).toNat := by decide
    have hbound : 0xE + 0x80 ≤ 0 * 64 + 0x90 := by decide
    exact ⟨hlow, hhigh, hbound⟩
  rw [if_neg hF0]
  have hne : b.toNat ≠ 0xF0 := fun heq => hF0 (UInt8.toNat_inj.1 heq)
  have hbound : 0xE + 0x80 ≤ (b.toNat - 0xF0) * 64 + 0x80 := by omega
  exact ⟨Nat.le_refl _, hhigh, hbound⟩

end Open.Clear

/-- **A lead byte** opens a sequence that passes the surrogates by. -/
theorem clear_of_lead? {first : Nat} {b : UInt8} {p : Open} (h : lead? first b = some p) :
    p.Clear := by
  unfold lead? at h
  split at h
  · cases h
  split at h
  · next hE0 =>
    obtain rfl := Option.some.inj h
    exact .two first hE0
  split at h
  · next hE0 _ =>
    obtain rfl := Option.some.inj h
    exact .three first hE0
  split at h
  · next hF0 _ =>
    obtain rfl := Option.some.inj h
    exact .four first hF0
  · cases h

/-- What is left of an open sequence after a continuation byte. -/
theorem Open.Clear.advance {p : Open} (hp : p.Clear) {b : UInt8} {more : Nat}
    (hmore : p.more = more + 1) (hlow : p.low ≤ b) (hhigh : b ≤ p.high) :
    (⟨p.first, b :: p.bytes, p.value * 64 + b.toNat % 64, more, 0x80, 0xBF⟩ : Open).Clear := by
  obtain ⟨h80, hBF, hp⟩ := hp
  rw [UInt8.le_iff_toNat_le] at hlow hhigh
  have hb : b.toNat % 64 = b.toNat - 0x80 := by omega
  refine ⟨Nat.le_refl _, Nat.le_refl _, ?_⟩
  rw [hmore] at hp
  match more, hp with
  | 0, hp => simp at hp ⊢; omega
  | 1, hp => simp at hp ⊢; omega

theorem isSurrogate_codePoint {p : Open} (hp : p.Clear) {b : UInt8} (hmore : p.more = 0)
    (hlow : p.low ≤ b) (hhigh : b ≤ p.high) :
    (codePoint (p.value * 64 + b.toNat % 64)).isSurrogate = false := by
  obtain ⟨h80, hBF, hp⟩ := hp
  rw [UInt8.le_iff_toNat_le] at hlow hhigh
  have hb : b.toNat % 64 = b.toNat - 0x80 := by omega
  rw [hmore] at hp
  unfold codePoint CodePoint.ofNat?
  split
  · simp [CodePoint.isSurrogate] at hp ⊢
    omega
  · rfl

theorem isSurrogate_codePoint_of_lt {b : UInt8} (h : b < 0x80) :
    (codePoint b.toNat).isSurrogate = false := by
  rw [UInt8.lt_iff_toNat_lt] at h
  unfold codePoint CodePoint.ofNat?
  split
  · simp [CodePoint.isSurrogate] at h ⊢
    omega
  · rfl

theorem isSurrogate_of_decodeFrom {index : Nat} {pending : Option Open} {done t : Text}
    {bytes : List UInt8} (hp : ∀ p, pending = some p → p.Clear)
    (hdone : ∀ c ∈ done, c.isSurrogate = false)
    (h : decodeFrom index pending done bytes = .ok t) : ∀ c ∈ t, c.isSurrogate = false := by
  induction bytes generalizing index pending done with
  | nil =>
    cases pending with
    | none => cases h; simpa using hdone
    | some p => cases h
  | cons b rest ih =>
    cases pending with
    | none =>
      rw [decodeFrom] at h
      split at h
      · next hb =>
        exact ih (by simp) (by simpa using ⟨isSurrogate_codePoint_of_lt hb, hdone⟩) h
      · split at h
        · next p hlead =>
          exact ih (fun q hq => by cases hq; exact clear_of_lead? hlead) hdone h
        · cases h
    | some p =>
      have hp := hp p rfl
      rw [decodeFrom] at h
      dsimp only at h
      split at h
      · next hb =>
        split at h
        · next hmore =>
          exact ih (by simp)
            (by simpa using ⟨isSurrogate_codePoint hp hmore hb.1 hb.2, hdone⟩) h
        · next more hmore =>
          exact ih (fun q hq => by cases hq; exact hp.advance hmore hb.1 hb.2) hdone h
      · cases h

/-- UTF-8 has no encoding of surrogates. -/
theorem loneSurrogate?_of_decode? {bytes : List UInt8} {t : Text} (h : decode? bytes = .ok t) :
    t.loneSurrogate? = none :=
  List.findIdx?_eq_none_iff.2 (isSurrogate_of_decodeFrom (by simp) (by simp) h)

end SourceReport.Utf8
