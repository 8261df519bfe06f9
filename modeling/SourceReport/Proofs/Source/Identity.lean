import Mathlib.Data.Nat.Digits.Lemmas
import SourceReport.Proofs.Text.Unambiguous
import SourceReport.Source.Name

/-!
# Identities told apart

A source is kept under a digest of a word for where it comes from, a zero byte and the text that
tells it from others of its origin. No word has a zero byte, so the first one in the digested bytes
ends the word, whatever the text behind it holds. The bytes of a text belong to no other text.

* `Origin` is where a source comes from and `Origin.bytes` what is digested for one of its sources.
* `SourceName.key` is the text that tells a source from the others of its origin.
* `Blake2b.Collides`: two different inputs have the same digest.

Results:
* `Origin.bytes_eq_iff`: the digested bytes tell the origin and the text.
* `SourceId.preimage_eq_bytes`: they are the bytes that an identity is the digest of.
* `Blake2b.digestNumber_eq_iff`: the number of a digest tells its bytes.
* `SourceId.shared_by_collision`: two sources share an identity exactly if they are named alike, with
  the same text if they have no name, or if what they are told by collides.
-/

namespace SourceReport

/-! ## What is digested -/

/-- Where a source comes from. -/
inductive Origin where
  /-- A text without a name. -/
  | anonymous
  /-- A text in memory under a name. -/
  | snippet
  /-- A file. -/
  | file
  /-- An address. -/
  | remote
deriving DecidableEq

namespace Origin

/-- The word for an origin. -/
def word : Origin → Text
  | anonymous => "anonymous"
  | snippet => "snippet"
  | file => "local"
  | remote => "remote"

/-- The bytes digested for a source of an origin that a text tells from the others. -/
def bytes (o : Origin) (key : Text) : List UInt8 := o.word.utf8 ++ 0 :: key.utf8

theorem word_injective : Function.Injective word := by
  intro o p h
  cases o <;> cases p <;> first | rfl | exact absurd h (by decide)

theorem ne_zero_of_mem_word (o : Origin) : ∀ b ∈ o.word.utf8, (b != 0) = true :=
  List.all_eq_true.1 (by cases o <;> rfl)

/-- **The digested bytes tell the origin and the text**, which may hold zeros itself. -/
theorem bytes_eq_iff {o p : Origin} {s t : Text} : o.bytes s = p.bytes t ↔ o = p ∧ s = t := by
  constructor
  · intro h
    -- The first zero byte ends the word on both sides.
    have hspan (o : Origin) (s : Text) :
        (o.bytes s).span (· != 0) = (o.word.utf8, 0 :: s.utf8) :=
      span_append o.ne_zero_of_mem_word (by simp)
    have hparts := hspan o s
    rw [h, hspan p t, Prod.mk.injEq, List.cons.injEq] at hparts
    obtain ⟨hword, -, hkey⟩ := hparts
    exact ⟨word_injective (Text.utf8_injective hword.symm), Text.utf8_injective hkey.symm⟩
  · rintro ⟨rfl, rfl⟩
    rfl

end Origin

namespace SourceName

/-- Where a source of a name comes from. -/
def origin : SourceName → Origin
  | anonymous => .anonymous
  | snippet _ => .snippet
  | file _ => .file
  | remote _ => .remote

/-- The text that tells a source from the others of its origin: the name, or what it holds if it has
none. -/
def key (name : SourceName) (content : Text) : Text :=
  match name with
  | anonymous => content
  | name => name.value

theorem word_origin (name : SourceName) : name.origin.word = name.kind := by
  cases name <;> rfl

/-- Sources of the same origin are told apart by their names, and those without one by what they
hold. -/
theorem origin_eq_and_key_eq_iff {a b : SourceName} {s t : Text} :
    a.origin = b.origin ∧ a.key s = b.key t ↔
      a.kind = b.kind ∧ a.value = b.value ∧ (a = anonymous → s = t) := by
  have horigin : a.kind = b.kind ↔ a.origin = b.origin := by
    rw [← word_origin, ← word_origin, Origin.word_injective.eq_iff]
  rw [horigin]
  refine and_congr_right fun h => ?_
  cases a with
  | anonymous =>
    cases b with
    | anonymous => exact ⟨fun hkey => ⟨rfl, fun _ => hkey⟩, fun hboth => hboth.2 rfl⟩
    | snippet _ | file _ | remote _ => cases h
  | snippet _ | file _ | remote _ =>
    cases b with
    | anonymous => cases h
    | snippet _ | file _ | remote _ =>
      exact ⟨fun hkey => ⟨hkey, fun hnone => by cases hnone⟩, fun hboth => hboth.1⟩

end SourceName

/-- The bytes of an identity are those of its origin and its text. -/
theorem SourceId.preimage_eq_bytes (name : SourceName) (content : Text) :
    preimage name content = name.origin.bytes (name.key content) := by
  cases name <;> rfl

/-! ## The number of a digest -/

namespace Blake2b

/-- Two different inputs with the same digest. -/
def Collides (x y : List UInt8) : Prop := x ≠ y ∧ digest x = digest y

theorem length_digest (x : List UInt8) : (digest x).length = 8 := by
  rw [digest, wordBytes, List.length_map, List.length_range]

/-- The first byte of a digest is the most significant one of its number. -/
theorem digestNumber_eq_ofDigits (x : List UInt8) :
    digestNumber x = Nat.ofDigits 256 ((digest x).reverse.map UInt8.toNat) := by
  have hfold (l : List UInt8) : l.foldr (fun b n => n * 256 + b.toNat) 0 =
      Nat.ofDigits 256 (l.map UInt8.toNat) := by
    induction l with
    | nil => rfl
    | cons b l ih => rw [List.foldr_cons, ih, List.map_cons, Nat.ofDigits_cons]; omega
  rw [digestNumber, ← hfold, List.foldr_reverse]

/-- **The number of a digest tells its bytes.** -/
theorem digestNumber_eq_iff {x y : List UInt8} :
    digestNumber x = digestNumber y ↔ digest x = digest y := by
  constructor
  · intro h
    have hbyte (l : List UInt8) : ∀ n ∈ l.map UInt8.toNat, n < 256 := by
      intro n hn
      obtain ⟨b, -, rfl⟩ := List.mem_map.1 hn
      exact b.toNat_lt
    rw [digestNumber_eq_ofDigits, digestNumber_eq_ofDigits] at h
    have hdigits := Nat.ofDigits_inj_of_len_eq (by decide)
      (by rw [List.length_map, List.length_map, List.length_reverse, List.length_reverse,
        length_digest, length_digest]) (hbyte _) (hbyte _) h
    exact List.reverse_injective
      (List.map_injective_iff.2 (fun a b hab => UInt8.toNat_inj.1 hab) hdigits)
  · intro h
    rw [digestNumber, digestNumber, h]

end Blake2b

/-! ## Who shares an identity -/

namespace SourceId

/-- What the identities of two sources are taken from is the same exactly if the sources are named
alike, with the same text if they have no name. -/
theorem preimage_eq_iff {a b : SourceName} {s t : Text} : preimage a s = preimage b t ↔
    a.kind = b.kind ∧ a.value = b.value ∧ (a = .anonymous → s = t) := by
  rw [preimage_eq_bytes, preimage_eq_bytes, Origin.bytes_eq_iff,
    SourceName.origin_eq_and_key_eq_iff]

/-- **Only a collision gives two sources the same identity.** For every origin and every text, with
surrogates or zeros in it, the digested bytes are of no other origin and no other text. So two
sources share an identity exactly if they have the same kind and name, and the same text if that is
without a name, or if their different bytes have one digest. -/
theorem shared_by_collision :
    (∀ (o p : Origin) (s t : Text), o.bytes s = p.bytes t ↔ o = p ∧ s = t) ∧
    (∀ (name : SourceName) (content : Text),
      preimage name content = name.origin.bytes (name.key content)) ∧
    (∀ (a b : SourceName) (s t : Text), preimage a s = preimage b t ↔
      a.kind = b.kind ∧ a.value = b.value ∧ (a = .anonymous → s = t)) ∧
    ∀ (a b : SourceName) (s t : Text), of a s = of b t ↔
      (a.kind = b.kind ∧ a.value = b.value ∧ (a = .anonymous → s = t)) ∨
        Blake2b.Collides (preimage a s) (preimage b t) := by
  refine ⟨fun o p s t => Origin.bytes_eq_iff, preimage_eq_bytes,
    fun a b s t => preimage_eq_iff, fun a b s t => ?_⟩
  rw [of, of, SourceId.mk.injEq, Blake2b.digestNumber_eq_iff, ← preimage_eq_iff,
    Blake2b.Collides]
  constructor
  · intro h
    by_cases hsame : preimage a s = preimage b t
    · exact Or.inl hsame
    · exact Or.inr ⟨hsame, h⟩
  · rintro (h | ⟨-, h⟩)
    · rw [h]
    · exact h

end SourceId

end SourceReport
