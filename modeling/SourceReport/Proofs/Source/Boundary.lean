import SourceReport.Proofs.Source.Lookup
import SourceReport.Proofs.Source.Refusal
import SourceReport.Proofs.Text.Continuation

/-!
# Boundaries seen from the bytes

The bytes of a source alone tell where its characters begin: an offset is a boundary if the byte
there does not continue a character (`Source.beginsCharacter`); else it lies inside one
(`Source.LiesInside`). The last boundary before an offset is then found by walking back byte by byte
(`Source.WalksBack`), and the bytes between two boundaries are read back as the characters between
them (`Source.read?`, `Source.StandsBetween`).

Results:
* `Source.liesInside_iff`: an offset of the source is a boundary or lies inside a character.
* `Source.beginsCharacter_eq`: the byte decides what the prefixes of the text decide.
* `Source.walksBack_within_iff`: from every offset, brought into the source, the walk ends, and it
  ends at the last boundary.
* `Source.StandsBetween.read?`, `Source.StandsBetween.slice?`: the characters between two
  boundaries, read from the bytes and cut out of the text.
* `Source.boundaries_are_prefixes`: boundaries, the last one before an offset, the offsets that are
  refused, and slices, over all offsets.
-/

namespace SourceReport

namespace Source

/-- Whether a character begins at an offset, by the byte there; the end of the source counts. -/
def beginsCharacter (s : Source) (offset : Int) : Bool :=
  if offset < 0 ∨ (s.length : Int) < offset then false
  else
    match s.content.utf8[offset.toNat]? with
    | none => true
    | some b => !Utf8.isContinuation b

/-- The walk back from an offset, and where it ends. -/
inductive WalksBack (s : Source) : Int → Int → Prop
  /-- It ends where a character begins. -/
  | stay {o : Int} : s.beginsCharacter o = true → WalksBack s o o
  /-- Elsewhere it goes on from the byte before. -/
  | back {o b : Int} : s.beginsCharacter o = false → WalksBack s (o - 1) b → WalksBack s o b

/-- An offset brought into the source. -/
def within (s : Source) (offset : Int) : Int := min (max offset 0) s.length

/-- The bytes between two offsets, read as UTF-8. -/
def read? (s : Source) (start stop : Int) : Except Utf8.DecodeError Text :=
  Utf8.decode? (s.content.utf8.extract start.toNat stop.toNat)

/-- The characters between two offsets: what is left of one prefix of the text behind another. -/
def StandsBetween (s : Source) (start stop : Int) (t : Text) : Prop :=
  ∃ before : Text, before ++ t <+: s.content ∧ (before.utf8Length : Int) = start ∧
    ((before ++ t).utf8Length : Int) = stop

/-- An offset between the ends of a character. -/
def LiesInside (s : Source) (offset : Int) : Prop :=
  ∃ (q : Text) (c : CodePoint), q ++ [c] <+: s.content ∧ (q.utf8Length : Int) < offset ∧
    offset < (q ++ [c]).utf8Length

variable {s : Source} {a b c o : Int} {t u : Text}

/-! ## Boundaries -/

/-- **The boundaries of a source** are the lengths of the prefixes of its text. -/
theorem isBoundary_iff_exists :
    s.isBoundary o = true ↔ ∃ p : Text, p <+: s.content ∧ (p.utf8Length : Int) = o := by
  cases o with
  | ofNat n =>
    refine Text.isBoundary_iff.trans (exists_congr fun p => and_congr_right fun _ => ?_)
    exact Int.ofNat_inj.symm
  | negSucc n =>
    refine iff_of_false Bool.false_ne_true ?_
    rintro ⟨p, -, hp⟩
    omega

theorem isBoundary_bounds (h : s.isBoundary o = true) : 0 ≤ o ∧ o ≤ s.length := by
  obtain ⟨p, ⟨rest, hrest⟩, rfl⟩ := isBoundary_iff_exists.1 h
  rw [length, ← hrest, Text.utf8Length_append]
  omega

/-- No prefix ends inside a character. -/
theorem LiesInside.isBoundary_eq_false (h : s.LiesInside o) : s.isBoundary o = false := by
  obtain ⟨q, c, hq, hlow, hhigh⟩ := h
  refine Bool.eq_false_iff.2 fun hboundary => ?_
  obtain ⟨p, hp, rfl⟩ := isBoundary_iff_exists.1 hboundary
  rcases List.prefix_concat_iff.1 (Text.prefix_of_utf8Length_le hp hq (by omega)) with rfl | hpq
  · omega
  · have := Text.utf8Length_mono hpq
    omega

theorem LiesInside.bounds (h : s.LiesInside o) : 0 ≤ o ∧ o ≤ s.length := by
  obtain ⟨q, c, hq, hlow, hhigh⟩ := h
  have := isBoundary_bounds (isBoundary_iff_exists.2 ⟨q ++ [c], hq, rfl⟩)
  omega

/-- An offset that is no boundary lies inside the character behind the last boundary before it. -/
theorem liesInside_of_isBoundary_eq_false {n : Nat} (hlength : n ≤ s.length)
    (h : s.isBoundary n = false) : s.LiesInside n := by
  obtain ⟨hfloor, hle, hgreatest⟩ := s.isBoundary_floorBoundary n
  have hne : s.floorBoundary n ≠ n := fun heq => by
    rw [heq, h] at hfloor
    cases hfloor
  obtain ⟨q, ⟨rest, hrest⟩, hq⟩ := isBoundary_iff_exists.1 hfloor
  cases rest with
  | nil =>
    have hwhole : q.utf8Length = s.length := by rw [length, ← hrest, List.append_nil]
    omega
  | cons c rest =>
    have hthrough : q ++ [c] <+: s.content := ⟨rest, by rw [List.append_assoc]; exact hrest⟩
    have hwidth : q.utf8Length < (q ++ [c]).utf8Length := by
      have := c.utf8Width_pos
      rw [Text.utf8Length_append, Text.utf8Length_cons]
      omega
    refine ⟨q, c, hthrough, by omega, Int.not_le.1 fun hbefore => ?_⟩
    have := hgreatest _ (isBoundary_iff_exists.2 ⟨_, hthrough, rfl⟩) (Int.ofNat_le.1 hbefore)
    omega

/-- **The offsets inside characters** are those of the source that are no boundaries. -/
theorem liesInside_iff : s.LiesInside o ↔ (0 ≤ o ∧ o ≤ s.length) ∧ s.isBoundary o = false := by
  refine ⟨fun h => ⟨h.bounds, h.isBoundary_eq_false⟩, fun ⟨⟨hnonneg, hle⟩, h⟩ => ?_⟩
  obtain ⟨n, rfl⟩ := Int.eq_ofNat_of_zero_le hnonneg
  exact liesInside_of_isBoundary_eq_false (Int.ofNat_le.1 hle) h

/-- **The byte at an offset** tells whether it is a boundary. -/
theorem beginsCharacter_eq (s : Source) (o : Int) : s.beginsCharacter o = s.isBoundary o := by
  unfold beginsCharacter
  split
  · next hout =>
    refine (Bool.eq_false_iff.2 fun h => ?_).symm
    have := isBoundary_bounds h
    omega
  · next hin =>
    obtain ⟨n, rfl⟩ := Int.eq_ofNat_of_zero_le (show 0 ≤ o by omega)
    rw [Int.toNat_natCast]
    split
    · next hnone =>
      have hlength : s.length ≤ n := by
        rw [length, ← Text.length_utf8]
        exact List.getElem?_eq_none_iff.1 hnone
      obtain rfl : n = s.length := by omega
      exact s.isBoundary_length.symm
    · next byte hbyte => exact (Text.isBoundary_eq_not_isContinuation hbyte).symm

/-! ## Walking back -/

/-- The walk ends at one place only. -/
theorem WalksBack.unique (hb : s.WalksBack o b) (hc : s.WalksBack o c) : b = c := by
  induction hb with
  | stay h =>
    cases hc with
    | stay _ => rfl
    | back h' _ => rw [h] at h'; cases h'
  | back h _ ih =>
    cases hc with
    | stay h' => rw [h] at h'; cases h'
    | back _ hc => exact ih hc

/-- An offset inside a character has the same last boundary as the byte before. -/
theorem floorBoundary_succ {n : Nat} (h : s.isBoundary (n + 1 : Nat) = false) :
    s.floorBoundary (n + 1 : Nat) = s.floorBoundary n := by
  obtain ⟨hboundary, hle, -⟩ := s.isBoundary_floorBoundary (n + 1)
  have hne : s.floorBoundary (n + 1 : Nat) ≠ n + 1 := by
    intro heq
    rw [heq, h] at hboundary
    cases hboundary
  exact Nat.le_antisymm ((s.isBoundary_floorBoundary n).2.2 _ hboundary (by omega))
    (floorBoundary_mono (Nat.le_succ n))

/-- **The walk ends**: at the latest where the source starts, and at the last boundary. -/
theorem walksBack_floorBoundary (s : Source) (n : Nat) (h : n ≤ s.length) :
    s.WalksBack n (s.floorBoundary n) := by
  induction n with
  | zero =>
    have hzero : s.floorBoundary (0 : Nat) = 0 := Nat.le_zero.1 (s.isBoundary_floorBoundary 0).2.1
    rw [hzero]
    exact .stay (by rw [beginsCharacter_eq]; exact s.isBoundary_zero)
  | succ n ih =>
    cases hboundary : s.isBoundary (n + 1 : Nat) with
    | true =>
      rw [floorBoundary_of_isBoundary hboundary]
      exact .stay (by rw [beginsCharacter_eq, hboundary])
    | false =>
      rw [floorBoundary_succ hboundary]
      refine .back (by rw [beginsCharacter_eq, hboundary]) ?_
      have hbefore : ((n + 1 : Nat) : Int) - 1 = n := by omega
      rw [hbefore]
      exact ih (by omega)

theorem floorBoundary_le_length (s : Source) (o : Int) : s.floorBoundary o ≤ s.length :=
  le_length_of_isBoundary (Text.isBoundary_iff.2 ⟨_, s.content.takeBytes_prefix o.toNat, rfl⟩)

/-- Bringing an offset into the source does not change its last boundary. -/
theorem floorBoundary_within (s : Source) (o : Int) :
    s.floorBoundary (s.within o) = s.floorBoundary o := by
  have hnat : ∀ o : Int, s.floorBoundary o = s.floorBoundary (o.toNat : Nat) := fun o => by
    rw [floorBoundary, floorBoundary, Int.toNat_natCast]
  have hwithin : (s.within o).toNat = min o.toNat s.length := by
    rw [within]
    omega
  rw [hnat (s.within o), hnat o, hwithin]
  obtain ⟨hboundary, hle, -⟩ := s.isBoundary_floorBoundary o.toNat
  exact Nat.le_antisymm (floorBoundary_mono (Nat.min_le_left _ _))
    ((s.isBoundary_floorBoundary _).2.2 _ hboundary
      (Nat.le_min.2 ⟨hle, s.floorBoundary_le_length _⟩))

/-- **From every offset** the walk ends, and it ends at the last boundary. -/
theorem walksBack_within_iff : s.WalksBack (s.within o) b ↔ b = s.floorBoundary o := by
  obtain ⟨n, hn⟩ := Int.eq_ofNat_of_zero_le (show 0 ≤ s.within o by rw [within]; omega)
  have hle : n ≤ s.length := by
    rw [within] at hn
    omega
  have hwalk : s.WalksBack (s.within o) (s.floorBoundary o) := by
    rw [← floorBoundary_within, hn]
    exact s.walksBack_floorBoundary n hle
  constructor
  · intro h
    exact h.unique hwalk
  · rintro rfl
    exact hwalk

/-- The last boundary of an offset, over the offsets brought into the source. -/
theorem isGreatest_floorBoundary (s : Source) (o : Int) :
    s.isBoundary (s.floorBoundary o) = true ∧ (s.floorBoundary o : Int) ≤ s.within o ∧
      ∀ b : Int, s.isBoundary b = true → b ≤ s.within o → b ≤ s.floorBoundary o := by
  obtain ⟨n, hn⟩ := Int.eq_ofNat_of_zero_le (show 0 ≤ s.within o by rw [within]; omega)
  rw [← floorBoundary_within, hn]
  obtain ⟨hboundary, hle, hgreatest⟩ := s.isBoundary_floorBoundary n
  refine ⟨hboundary, Int.ofNat_le.2 hle, fun b hb hbn => ?_⟩
  obtain ⟨m, rfl⟩ := Int.eq_ofNat_of_zero_le (isBoundary_bounds hb).1
  exact Int.ofNat_le.2 (hgreatest m hb (Int.ofNat_le.1 hbn))

/-! ## Refused offsets -/

/-- **What becomes of an offset**: boundaries pass, and the others are refused, behind the end of
the source for that, elsewhere as lying inside a character. -/
theorem checkBoundary_cases (s : Source) (o : Int) :
    (s.isBoundary o = true ∧ s.checkBoundary o = .ok ()) ∨
    ((s.length : Int) < o ∧ s.isBoundary o = false ∧
      s.checkBoundary o = .error (LookupError.indexTooLarge o s.length).built) ∨
    (o ≤ s.length ∧ s.isBoundary o = false ∧
      s.checkBoundary o = .error (LookupError.insideCharacter o).built) := by
  cases hboundary : s.isBoundary o with
  | true =>
    have hle : ¬ (s.length : Int) < o := Int.not_lt.2 (isBoundary_bounds hboundary).2
    exact Or.inl ⟨rfl, by rw [checkBoundary, if_neg hle, if_pos hboundary]⟩
  | false =>
    refine Or.inr ((Int.lt_or_le s.length o).imp (fun hlt => ⟨hlt, rfl, ?_⟩)
      fun hle => ⟨hle, rfl, ?_⟩)
    · rw [checkBoundary, if_pos hlt]
    · rw [checkBoundary, if_neg (Int.not_lt.2 hle), hboundary, if_neg Bool.false_ne_true]

theorem checkBoundary_eq_ok_iff : s.checkBoundary o = .ok () ↔ s.isBoundary o = true := by
  rcases s.checkBoundary_cases o with ⟨hb, h⟩ | ⟨-, hb, h⟩ | ⟨-, hb, h⟩ <;> simp [h, hb]

/-- The length of a source can be written if a larger offset can. -/
theorem isWritable_length_of_lt (h : (s.length : Int) < o) (ho : Text.isWritable o = true) :
    Text.isWritable s.length = true :=
  Text.isWritable_of_natAbs_le (by omega) ho

theorem checkBoundary_eq_indexTooLarge_iff :
    s.checkBoundary o = .error (.indexTooLarge o s.length) ↔
      (s.length : Int) < o ∧ Text.isWritable o = true := by
  rcases s.checkBoundary_cases o with ⟨hb, h⟩ | ⟨hlt, -, h⟩ | ⟨hle, -, h⟩
  · have := (isBoundary_bounds hb).2
    exact iff_of_false (by simp [h]) fun hlt => by omega
  · rw [h]
    simpa [LookupError.IsWritable, hlt] using isWritable_length_of_lt hlt
  · exact iff_of_false (by simp [h]) fun hlt => by omega

theorem checkBoundary_eq_insideCharacter_iff :
    s.checkBoundary o = .error (.insideCharacter o) ↔
      (o ≤ s.length ∧ s.isBoundary o = false) ∧ Text.isWritable o = true := by
  rcases s.checkBoundary_cases o with ⟨hb, h⟩ | ⟨hlt, -, h⟩ | ⟨hle, hb, h⟩
  · exact iff_of_false (by simp [h]) fun hinside => by simp [hb] at hinside
  · exact iff_of_false (by simp [h]) fun hinside => by omega
  · simp [h, hb, hle, LookupError.IsWritable]

theorem checkBoundary_eq_digits_iff :
    s.checkBoundary o = .error (.digits .writing) ↔
      s.isBoundary o = false ∧ Text.isWritable o = false := by
  rcases s.checkBoundary_cases o with ⟨hb, h⟩ | ⟨hlt, hb, h⟩ | ⟨-, hb, h⟩
  · simp [h, hb]
  · have hlength := isWritable_length_of_lt hlt
    cases ho : Text.isWritable o with
    | true => simp [h, hb, ho, hlength ho, LookupError.IsWritable]
    | false => simp [h, hb, ho, LookupError.IsWritable]
  · simp [h, hb, LookupError.IsWritable]

/-! ## Between two boundaries -/

theorem exists_standsBetween (ha : s.isBoundary a = true) (hb : s.isBoundary b = true)
    (hab : a ≤ b) : ∃ t, s.StandsBetween a b t := by
  obtain ⟨p, hp, rfl⟩ := isBoundary_iff_exists.1 ha
  obtain ⟨q, hq, rfl⟩ := isBoundary_iff_exists.1 hb
  obtain ⟨t, rfl⟩ := Text.prefix_of_utf8Length_le hp hq (Int.ofNat_le.1 hab)
  exact ⟨t, p, hq, rfl, rfl⟩

namespace StandsBetween

theorem isBoundary_start (h : s.StandsBetween a b t) : s.isBoundary a = true := by
  obtain ⟨before, hprefix, hstart, -⟩ := h
  exact isBoundary_iff_exists.2 ⟨before, (List.prefix_append before t).trans hprefix, hstart⟩

theorem isBoundary_stop (h : s.StandsBetween a b t) : s.isBoundary b = true := by
  obtain ⟨before, hprefix, -, hstop⟩ := h
  exact isBoundary_iff_exists.2 ⟨before ++ t, hprefix, hstop⟩

/-- Characters that end where others begin stand in front of them. -/
theorem append (ht : s.StandsBetween a b t) (hu : s.StandsBetween b c u) :
    s.StandsBetween a c (t ++ u) := by
  obtain ⟨before, hprefix, hstart, hmiddle⟩ := ht
  obtain ⟨before', hprefix', hmiddle', hstop⟩ := hu
  obtain rfl : before ++ t = before' :=
    Text.eq_of_utf8Length_eq hprefix ((List.prefix_append before' u).trans hprefix') (by omega)
  rw [List.append_assoc] at hprefix' hstop
  exact ⟨before, hprefix', hstart, hstop⟩

/-- **The bytes between two boundaries** are read back as the characters between them. -/
theorem read? (h : s.StandsBetween a b t) : s.read? a b = .ok t := by
  obtain ⟨before, ⟨after, hcontent⟩, rfl, rfl⟩ := h
  have hbytes : s.content.utf8 = before.utf8 ++ (t.utf8 ++ Text.utf8 after) := by
    rw [← hcontent, Text.utf8_append, Text.utf8_append, List.append_assoc]
  have hextract : s.content.utf8.extract before.utf8Length (before ++ t).utf8Length = t.utf8 := by
    rw [List.extract_eq_take_drop, Text.utf8Length_append, Nat.add_sub_cancel_left, hbytes,
      ← Text.length_utf8 before, List.drop_left, ← Text.length_utf8 t, List.take_left]
  rw [Source.read?, Int.toNat_natCast, Int.toNat_natCast, hextract]
  refine Utf8.decode?_utf8 fun c hc => isSurrogate_of_mem (s := s) ?_
  rw [← hcontent]
  exact List.mem_append_left _ (List.mem_append_right _ hc)

/-- **The characters between two boundaries** are cut out. -/
theorem slice? (h : s.StandsBetween a b t) : s.slice? a b = .ok t := by
  have ha := checkBoundary_eq_ok_iff.2 h.isBoundary_start
  have hb := checkBoundary_eq_ok_iff.2 h.isBoundary_stop
  obtain ⟨before, ⟨after, hcontent⟩, rfl, rfl⟩ := h
  have hbytes : (((before ++ t).utf8Length : Int) - before.utf8Length).toNat = t.utf8Length := by
    rw [Text.utf8Length_append]
    omega
  have hdrop : s.content.dropBytes before.utf8Length = t ++ after := by
    rw [← hcontent, List.append_assoc, Text.dropBytes_append]
  simp only [Source.slice?, ha, hb, bind, Except.bind, pure, Except.pure, hbytes, Int.toNat_natCast,
    hdrop, Text.takeBytes_append]

end StandsBetween

/-- Nothing stands between two boundaries of which the second one comes first. -/
theorem slice?_eq_nil (ha : s.isBoundary a = true) (hb : s.isBoundary b = true) (h : b ≤ a) :
    s.slice? a b = .ok [] ∧ s.read? a b = .ok [] := by
  have hlength : (b - a).toNat = (Text.utf8Length []) := by
    rw [Text.utf8Length_nil]
    omega
  have htake : ∀ t : Text, t.takeBytes (Text.utf8Length []) = [] := fun t =>
    Text.takeBytes_append [] t
  have hextract : s.content.utf8.extract a.toNat b.toNat = [] := by
    rw [List.extract_eq_take_drop, show b.toNat - a.toNat = 0 by omega, List.take_zero]
  constructor
  · simp only [slice?, checkBoundary_eq_ok_iff.2 ha, checkBoundary_eq_ok_iff.2 hb, bind,
      Except.bind, pure, Except.pure, hlength, htake]
  · rw [read?, hextract]
    rfl

/-- **Boundaries and slices.** The byte at an offset decides whether it is the length of a prefix of
the text. From every offset the walk back ends, at the last boundary that is not behind the offset
brought into the source; a larger offset has no smaller one, and a boundary is its own. Offsets
behind the source and other offsets that are no boundaries are refused, each for its own cause, and
those with too many digits to be named for that. The bytes between two boundaries are read back as
the characters between them, which are none if the second boundary comes first, and neighbouring
slices join. -/
theorem boundaries_are_prefixes (s : Source) :
    (∀ o : Int, s.beginsCharacter o = s.isBoundary o ∧
      (s.isBoundary o = true ↔ ∃ p : Text, p <+: s.content ∧ (p.utf8Length : Int) = o)) ∧
    (∀ o : Int, (∀ b : Int, s.WalksBack (s.within o) b ↔ b = s.floorBoundary o) ∧
      s.isBoundary (s.floorBoundary o) = true ∧ (s.floorBoundary o : Int) ≤ s.within o ∧
      (∀ b : Int, s.isBoundary b = true → b ≤ s.within o → b ≤ s.floorBoundary o) ∧
      s.floorBoundary (s.floorBoundary o) = s.floorBoundary o) ∧
    (∀ a b : Int, a ≤ b → s.floorBoundary a ≤ s.floorBoundary b) ∧
    (∀ o : Int, (s.checkBoundary o = .ok () ↔ s.isBoundary o = true) ∧
      (s.checkBoundary o = .error (.indexTooLarge o s.length) ↔
        (s.length : Int) < o ∧ Text.isWritable o = true) ∧
      (s.checkBoundary o = .error (.insideCharacter o) ↔
        (o ≤ s.length ∧ s.isBoundary o = false) ∧ Text.isWritable o = true) ∧
      (s.checkBoundary o = .error (.digits .writing) ↔
        s.isBoundary o = false ∧ Text.isWritable o = false)) ∧
    (∀ a b : Int, s.isBoundary a = true → s.isBoundary b = true →
      ∃ t, s.slice? a b = .ok t ∧ s.read? a b = .ok t ∧ (a ≤ b → s.StandsBetween a b t) ∧
        (b < a → t = [])) ∧
    (∀ a b c : Int, s.isBoundary a = true → s.isBoundary b = true → s.isBoundary c = true →
      a ≤ b → b ≤ c →
        ∃ t u, s.slice? a b = .ok t ∧ s.slice? b c = .ok u ∧ s.slice? a c = .ok (t ++ u)) := by
  refine ⟨fun o => ⟨s.beginsCharacter_eq o, isBoundary_iff_exists⟩, fun o => ?_, fun a b h => ?_,
    fun o => ⟨checkBoundary_eq_ok_iff, checkBoundary_eq_indexTooLarge_iff,
      checkBoundary_eq_insideCharacter_iff, checkBoundary_eq_digits_iff⟩, fun a b ha hb => ?_,
    fun a b c ha hb hc hab hbc => ?_⟩
  · obtain ⟨hboundary, hle, hgreatest⟩ := s.isGreatest_floorBoundary o
    exact ⟨fun b => walksBack_within_iff, hboundary, hle, hgreatest,
      floorBoundary_of_isBoundary hboundary⟩
  · obtain ⟨hboundary, hle, -⟩ := s.isGreatest_floorBoundary a
    refine Int.ofNat_le.1 ((s.isGreatest_floorBoundary b).2.2 _ hboundary (Int.le_trans hle ?_))
    rw [within, within]
    omega
  · rcases Int.lt_or_le b a with hba | hab
    · obtain ⟨hslice, hread⟩ := slice?_eq_nil ha hb (Int.le_of_lt hba)
      exact ⟨[], hslice, hread, fun hab => absurd hba (Int.not_lt.2 hab), fun _ => rfl⟩
    · obtain ⟨t, ht⟩ := exists_standsBetween ha hb hab
      exact ⟨t, ht.slice?, ht.read?, fun _ => ht, fun hba => absurd hba (Int.not_lt.2 hab)⟩
  · obtain ⟨t, ht⟩ := exists_standsBetween ha hb hab
    obtain ⟨u, hu⟩ := exists_standsBetween hb hc hbc
    exact ⟨t, u, ht.slice?, hu.slice?, (ht.append hu).slice?⟩

/-- Characters of one, two and four bytes: an offset inside the last one, slices in both directions,
and two slices that join. -/
theorem boundaries_are_prefixes_wide :
    ((ofEncodable .anonymous "aé𐐀" rfl).isBoundary 3 = true ∧
      3 ≤ (ofEncodable .anonymous "aé𐐀" rfl).within 5 ∧
      3 ≤ ((ofEncodable .anonymous "aé𐐀" rfl).floorBoundary 5 : Int)) ∧
    ((2 : Int) ≤ 5 ∧ (ofEncodable .anonymous "aé𐐀" rfl).floorBoundary 2 ≤
      (ofEncodable .anonymous "aé𐐀" rfl).floorBoundary 5) ∧
    ((ofEncodable .anonymous "aé𐐀" rfl).isBoundary 1 = true ∧
      (ofEncodable .anonymous "aé𐐀" rfl).isBoundary 7 = true ∧
      (∃ t, (ofEncodable .anonymous "aé𐐀" rfl).slice? 7 1 = .ok t ∧
        (ofEncodable .anonymous "aé𐐀" rfl).read? 7 1 = .ok t ∧
        (7 ≤ (1 : Int) → (ofEncodable .anonymous "aé𐐀" rfl).StandsBetween 7 1 t) ∧
        ((1 : Int) < 7 → t = [])) ∧
      ∃ t u, (ofEncodable .anonymous "aé𐐀" rfl).slice? 1 3 = .ok t ∧
        (ofEncodable .anonymous "aé𐐀" rfl).slice? 3 7 = .ok u ∧
        (ofEncodable .anonymous "aé𐐀" rfl).slice? 1 7 = .ok (t ++ u)) := by
  obtain ⟨-, hfloor, hmono, -, hslice, hjoin⟩ :=
    boundaries_are_prefixes (ofEncodable .anonymous "aé𐐀" rfl)
  exact ⟨⟨rfl, by decide, (hfloor 5).2.2.2.1 3 rfl (by decide)⟩, ⟨by decide, hmono 2 5 (by decide)⟩,
    rfl, rfl, hslice 7 1 rfl rfl, hjoin 1 3 7 rfl rfl rfl (by decide) (by decide)⟩

/-- **Not every offset that is no boundary** is refused for its own cause: one of more than
`digitLimit` digits is not. -/
theorem not_refused_for_cause : ¬ ∀ (s : Source) (o : Int),
    (s.checkBoundary o = .error (.indexTooLarge o s.length) ↔ (s.length : Int) < o) ∧
      (s.checkBoundary o = .error (.insideCharacter o) ↔
        o ≤ s.length ∧ s.isBoundary o = false) := by
  intro h
  let s := ofEncodable .anonymous [] rfl
  let o : Int := (10 ^ digitLimit : Nat)
  have hbehind : (s.length : Int) < o := Int.natCast_pos.2 (Nat.pow_pos (by decide))
  have hwritable := (checkBoundary_eq_indexTooLarge_iff.1 ((h s o).1.2 hbehind)).2
  rw [Text.isWritable_pow_digitLimit] at hwritable
  cases hwritable

end Source

end SourceReport
