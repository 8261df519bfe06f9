import SourceReport.Proofs.Source.Boundary
import SourceReport.Proofs.Source.Position
import SourceReport.Proofs.Source.Refusal

/-!
# Positions that are accepted and refused

A position names a place in a line by UTF-16 units, of which a character takes one or two. The walk
over the characters of a line (`walkUnits`) stops behind the shortest prefix that reaches the number
of units asked for, or at the end of the line; where it stops decides what becomes of the position.

* `Text.SplitsPair` says that a number of units ends inside a character of two units.
* `Source.CountsTo` says where counting stops behind too many units.

Results:
* `exists_walkUnits_shortest`: where the walk stops.
* `Source.offsetOf?_cases`: the outcomes in a line that exists, and when each of them comes about.
* `Source.offset_accepted_or_refused`: the outcome for every position.
-/

namespace SourceReport

/-! ## Where the walk stops -/

/-- **The walk stops** behind a prefix that falls short of the target without its last character. It
falls short as a whole only if nothing follows it. -/
theorem exists_walkUnits_shortest (target : Int) (units bytes : Nat) (t : Text) :
    ∃ p : Text, p <+: t ∧
      walkUnits target units bytes t = (units + p.units16, bytes + p.utf8Length) ∧
      (((units + p.units16 : Nat) : Int) < target → p = t) ∧
      ∀ (q : Text) (c : CodePoint), p = q ++ [c] → ((units + q.units16 : Nat) : Int) < target := by
  have hnil : ∀ (q : Text) (c : CodePoint), [] ≠ q ++ [c] := fun q c h =>
    List.append_ne_nil_of_right_ne_nil q (List.cons_ne_nil c []) h.symm
  induction t generalizing units bytes with
  | nil => exact ⟨[], List.nil_prefix, rfl, fun _ => rfl, fun q c h => absurd h (hnil q c)⟩
  | cons c t ih =>
    rw [walkUnits]
    by_cases h : target ≤ units
    · refine ⟨[], List.nil_prefix, by rw [if_pos h]; rfl, fun hlt => ?_,
        fun q c h => absurd h (hnil q c)⟩
      exact absurd h (Int.not_le.2 hlt)
    · obtain ⟨p, hp, hwalk, hend, hshort⟩ := ih (units + c.units16) (bytes + c.utf8Width)
      refine ⟨c :: p, (List.prefix_cons_inj c).2 hp, ?_, fun hlt => ?_, fun q d hq => ?_⟩
      · rw [if_neg h, hwalk, Text.units16_cons, Text.utf8Length_cons, Nat.add_assoc, Nat.add_assoc]
      · rw [hend (by rwa [Text.units16_cons, ← Nat.add_assoc] at hlt)]
      · cases q with
        | nil => exact Int.not_le.1 h
        | cons e q =>
          obtain ⟨hce, hpq⟩ := List.cons_eq_cons.1 hq
          rw [← hce, Text.units16_cons, ← Nat.add_assoc]
          exact hshort q d hpq

namespace Text

/-- A number of units that ends between the two units of a character. -/
def SplitsPair (t : Text) (units : Int) : Prop :=
  ∃ (q : Text) (c : CodePoint), q ++ [c] <+: t ∧ c.units16 = 2 ∧ units = q.units16 + 1

variable {t q r : Text} {units : Int}

theorem SplitsPair.bounds (h : t.SplitsPair units) : 0 < units ∧ units < t.units16 := by
  obtain ⟨q, c, hq, hc, rfl⟩ := h
  have := units16_mono hq
  rw [units16_append, units16_cons, hc] at this
  omega

/-- No prefix ends inside a character. -/
theorem SplitsPair.ne_units16 (h : t.SplitsPair units) (hr : r <+: t) : units ≠ r.units16 := by
  obtain ⟨q, c, hq, hc, rfl⟩ := h
  rcases List.prefix_or_prefix_of_prefix hr hq with hrq | hqr
  · rcases List.prefix_concat_iff.1 hrq with rfl | hrq
    · rw [units16_append, units16_cons, hc, units16_nil]
      omega
    · have := units16_mono hrq
      omega
  · have := units16_mono hqr
    rw [units16_append, units16_cons, hc] at this
    omega

end Text

namespace Source

variable {s : Source} {n : Nat} {l : Line} {p : Position} {given : Int}

/-! ## Outcomes in a line that exists -/

/-- Where counting the units of a position stops if they are not those of a prefix of its line: at
the start of the line, or behind the character whose pair they split. -/
def CountsTo (s : Source) (p : Position) (o : Int) : Prop :=
  ∃ (n : Nat) (l : Line), s.lines[n]? = some l ∧ p.line = n ∧
    ((p.character < 0 ∧ o = l.offset) ∨
      ∃ (q : Text) (c : CodePoint), q ++ [c] <+: l.raw ∧ c.units16 = 2 ∧
        p.character = q.units16 + 1 ∧ o = (l.offset + Text.utf8Length (q ++ [c]) : Nat))

/-- **Counting stops at a boundary.** -/
theorem CountsTo.isBoundary (h : s.CountsTo p given) : s.isBoundary given = true := by
  obtain ⟨n, l, hl, -, ⟨-, rfl⟩ | ⟨q, c, hq, -, -, rfl⟩⟩ := h
  · exact isBoundary_offset hl
  · exact isBoundary_of_prefix hl hq

/-- **The outcome for a position in a line that exists**: units behind the line, units of a prefix,
and units at which counting cannot stop. -/
theorem offsetOf?_cases (hl : s.lines[n]? = some l) (hp : p.line = n) :
    ((l.raw.units16 : Int) < p.character ∧
      s.offsetOf? p = .error (LookupError.columnTooLarge p.character l.raw.units16).built) ∨
    (∃ q : Text, q <+: l.raw ∧ p.character = q.units16 ∧
      s.offsetOf? p = .ok (l.offset + q.utf8Length)) ∨
    ∃ given, (p.character < 0 ∨ l.raw.SplitsPair p.character) ∧ s.CountsTo p given ∧
      s.offsetOf? p = .error (LookupError.insideCharacter given).built := by
  have hline : s.line? p.line = .ok l := line?_eq_ok_iff.2 ⟨n, hp, hl⟩
  obtain ⟨q, hq, hwalk, hend, hshort⟩ := exists_walkUnits_shortest p.character 0 0 l.raw
  rw [Nat.zero_add, Nat.zero_add] at hwalk
  rw [Nat.zero_add] at hend
  have hoffset : s.offsetOf? p =
      if (q.units16 : Int) < p.character then
        .error (LookupError.columnTooLarge p.character q.units16).built
      else if p.character < q.units16 then
        .error (LookupError.insideCharacter (l.offset + q.utf8Length : Nat)).built
      else .ok (l.offset + q.utf8Length) := by
    simp only [offsetOf?, hline, bind, Except.bind, hwalk]
  rcases Int.lt_trichotomy q.units16 p.character with hless | heq | hmore
  · rw [if_pos hless] at hoffset
    obtain rfl := hend hless
    exact Or.inl ⟨hless, hoffset⟩
  · rw [if_neg (by omega), if_neg (by omega)] at hoffset
    exact Or.inr (Or.inl ⟨q, hq, heq.symm, hoffset⟩)
  · rw [if_neg (by omega), if_pos hmore] at hoffset
    -- The last character of the prefix, if it has one, is the one that is split.
    rcases List.eq_nil_or_concat q with rfl | ⟨q, c, rfl⟩
    · exact Or.inr (Or.inr ⟨l.offset, Or.inl hmore, ⟨n, l, hl, hp, Or.inl ⟨hmore, rfl⟩⟩, hoffset⟩)
    · rw [List.concat_eq_append] at hq hoffset hmore hshort
      have hlt := hshort q c rfl
      have hc : c.units16 = 1 ∨ c.units16 = 2 := by
        unfold CodePoint.units16
        split
        · exact Or.inr rfl
        · exact Or.inl rfl
      rw [Text.units16_append, Text.units16_cons, Text.units16_nil] at hmore
      have hpair : c.units16 = 2 ∧ p.character = Text.units16 q + 1 := by omega
      exact Or.inr (Or.inr ⟨_, Or.inr ⟨q, c, hq, hpair⟩,
        ⟨n, l, hl, hp, Or.inr ⟨q, c, hq, hpair.1, hpair.2, rfl⟩⟩, hoffset⟩)

/-- Units behind a line are neither negative nor those of a prefix, and they split no pair. -/
theorem not_negative_or_splitsPair {t : Text} {k : Int} (h : (t.units16 : Int) < k) :
    ¬ (k < 0 ∨ t.SplitsPair k) := by
  rintro (hneg | hsplits)
  · omega
  · have := hsplits.bounds
    omega

theorem offsetOf?_eq_columnTooLarge_iff (hl : s.lines[n]? = some l) (hp : p.line = n) :
    s.offsetOf? p = .error (.columnTooLarge p.character l.raw.units16) ↔
      (l.raw.units16 : Int) < p.character ∧ Text.isWritable p.character = true := by
  rcases offsetOf?_cases hl hp with ⟨hlt, h⟩ | ⟨q, hq, hunits, h⟩ | ⟨given, hrest, -, h⟩
  · have hmax : Text.isWritable p.character = true →
        Text.isWritable l.raw.units16 = true := Text.isWritable_of_natAbs_le (by omega)
    simpa [h, hlt, LookupError.IsWritable] using hmax
  · have := Text.units16_mono hq
    exact iff_of_false (by simp [h]) fun hlt => by omega
  · exact iff_of_false (by simp [h]) fun hlt => not_negative_or_splitsPair hlt.1 hrest

theorem offsetOf?_eq_ok_iff_of_line (hl : s.lines[n]? = some l) (hp : p.line = n) {o : Nat} :
    s.offsetOf? p = .ok o ↔
      ∃ q : Text, q <+: l.raw ∧ p.character = q.units16 ∧ o = l.offset + q.utf8Length := by
  constructor
  · intro h
    obtain ⟨m, l', q, hl', hq, rfl, rfl⟩ := offsetOf?_eq_ok_iff.1 h
    obtain rfl : m = n := Int.ofNat.inj hp
    obtain rfl : l = l' := Option.some.inj (hl.symm.trans hl')
    exact ⟨q, hq, rfl, rfl⟩
  · rintro ⟨q, hq, hunits, rfl⟩
    refine offsetOf?_eq_ok_iff.2 ⟨n, l, q, hl, hq, ?_, rfl⟩
    rw [← hp, ← hunits]

/-! ## Where counting stops -/

/-- **Counting stops at one place.** -/
theorem CountsTo.unique {given' : Int} (h : s.CountsTo p given) (h' : s.CountsTo p given') :
    given = given' := by
  obtain ⟨n, l, hl, hn, hcase⟩ := h
  obtain ⟨n', l', hl', hn', hcase'⟩ := h'
  obtain rfl : n = n' := by omega
  obtain rfl : l = l' := Option.some.inj (hl.symm.trans hl')
  rcases hcase with ⟨hneg, rfl⟩ | ⟨q, c, hq, hc, hunits, rfl⟩ <;>
    rcases hcase' with ⟨hneg', rfl⟩ | ⟨q', c', hq', hc', hunits', rfl⟩
  · rfl
  · omega
  · omega
  · -- Both end the same prefix, the one with two units more than the pair has in front of it.
    have hsame : (q ++ [c] : Text).units16 = (q' ++ [c'] : Text).units16 := by
      rw [Text.units16_append, Text.units16_append, Text.units16_cons, Text.units16_cons, hc, hc']
      omega
    have hprefix := Text.prefix_of_units16_le hq hq' (Nat.le_of_eq hsame)
    rw [Text.eq_of_units16_eq hprefix hsame]

/-- A position is refused as one inside a character exactly where counting its units stops. -/
theorem offsetOf?_of_countsTo (h : s.CountsTo p given) :
    s.offsetOf? p = .error (LookupError.insideCharacter given).built := by
  have hcounts := h
  obtain ⟨n, l, hl, hp, hcase⟩ := h
  have hrest : p.character < 0 ∨ l.raw.SplitsPair p.character :=
    hcase.imp And.left fun ⟨q, c, hq, hc, hunits, _⟩ => ⟨q, c, hq, hc, hunits⟩
  rcases offsetOf?_cases hl hp with ⟨hlt, -⟩ | ⟨q, hq, hunits, -⟩ | ⟨given', -, hcounts', h⟩
  · exact absurd hrest (not_negative_or_splitsPair hlt)
  · rcases hrest with hneg | hsplits
    · omega
    · exact absurd hunits (hsplits.ne_units16 hq)
  · rwa [hcounts.unique hcounts']

theorem exists_countsTo_iff (hl : s.lines[n]? = some l) (hp : p.line = n) :
    (∃ given, s.CountsTo p given) ↔ p.character < 0 ∨ l.raw.SplitsPair p.character := by
  constructor
  · rintro ⟨given, n', l', hl', hp', hcase⟩
    obtain rfl : n = n' := by omega
    obtain rfl : l = l' := Option.some.inj (hl.symm.trans hl')
    exact hcase.imp And.left fun ⟨q, c, hq, hc, hunits, _⟩ => ⟨q, c, hq, hc, hunits⟩
  · rintro (hneg | ⟨q, c, hq, hc, hunits⟩)
    · exact ⟨_, n, l, hl, hp, Or.inl ⟨hneg, rfl⟩⟩
    · exact ⟨_, n, l, hl, hp, Or.inr ⟨q, c, hq, hc, hunits, rfl⟩⟩

/-- **What is left**: units that are not behind the line and not those of a prefix are negative or
split a pair. -/
theorem negative_or_splitsPair_iff (hl : s.lines[n]? = some l) (k : Int) :
    k < 0 ∨ l.raw.SplitsPair k ↔
      k ≤ l.raw.units16 ∧ ¬ ∃ q : Text, q <+: l.raw ∧ k = q.units16 := by
  constructor
  · intro hrest
    refine ⟨Int.not_lt.1 fun hlt => not_negative_or_splitsPair hlt hrest, ?_⟩
    rintro ⟨q, hq, hunits⟩
    rcases hrest with hneg | hsplits
    · omega
    · exact hsplits.ne_units16 hq hunits
  · rintro ⟨hle, hprefix⟩
    rcases offsetOf?_cases (p := ⟨n, k⟩) hl rfl with ⟨hlt, -⟩ | ⟨q, hq, hunits, -⟩ | ⟨_, hrest, -⟩
    · exact absurd hlt (Int.not_lt.2 hle)
    · exact absurd ⟨q, hq, hunits⟩ hprefix
    · exact hrest

/-! ## All positions -/

/-- **What becomes of the index of a line**: it names a line, or it is refused. -/
theorem line?_cases (s : Source) (i : Int) :
    (∃ (n : Nat) (l : Line), s.lines[n]? = some l ∧ i = n ∧ s.line? i = .ok l) ∨
    ((i < 0 ∨ (s.lineCount : Int) ≤ i) ∧
      s.line? i = .error (LookupError.lineTooLarge i (s.lineCount - 1)).built) := by
  cases i with
  | ofNat n =>
    rw [line?]
    cases hl : s.lines[n]? with
    | some l => exact Or.inl ⟨n, l, hl, rfl, rfl⟩
    | none => exact Or.inr ⟨Or.inr (Int.ofNat_le.2 (List.getElem?_eq_none_iff.1 hl)), rfl⟩
  | negSucc n => exact Or.inr ⟨Or.inl (Int.negSucc_lt_zero n), rfl⟩

theorem offsetOf?_of_line_outside (h : p.line < 0 ∨ (s.lineCount : Int) ≤ p.line) :
    s.offsetOf? p = .error (LookupError.lineTooLarge p.line (s.lineCount - 1)).built := by
  rcases s.line?_cases p.line with ⟨n, l, hl, hp, -⟩ | ⟨-, hline⟩
  · have hn : n < s.lineCount := (List.getElem?_eq_some_iff.1 hl).1
    omega
  · simp only [offsetOf?, hline, bind, Except.bind]

theorem offsetOf?_of_units16_lt (hl : s.lines[n]? = some l) (hp : p.line = n)
    (h : (l.raw.units16 : Int) < p.character) :
    s.offsetOf? p = .error (LookupError.columnTooLarge p.character l.raw.units16).built := by
  rcases offsetOf?_cases hl hp with ⟨-, h'⟩ | ⟨q, hq, hunits, -⟩ | ⟨_, hrest, -⟩
  · exact h'
  · have := Text.units16_mono hq
    omega
  · exact absurd hrest (not_negative_or_splitsPair h)

/-- **A position** stands in no line, behind the units of its line, where it is accepted, or where
counting stops before or behind it. -/
theorem position_cases (s : Source) (p : Position) :
    (p.line < 0 ∨ (s.lineCount : Int) ≤ p.line) ∨
    (∃ (n : Nat) (l : Line), s.lines[n]? = some l ∧ p.line = n ∧
      (l.raw.units16 : Int) < p.character) ∨
    (∃ o, s.offsetOf? p = .ok o) ∨ ∃ given, s.CountsTo p given := by
  rcases s.line?_cases p.line with ⟨n, l, hl, hp, -⟩ | ⟨hout, -⟩
  · rcases offsetOf?_cases hl hp with ⟨hlt, -⟩ | ⟨q, -, -, h⟩ | ⟨given, -, hcounts, -⟩
    · exact Or.inr (Or.inl ⟨n, l, hl, hp, hlt⟩)
    · exact Or.inr (Or.inr (Or.inl ⟨_, h⟩))
    · exact Or.inr (Or.inr (Or.inr ⟨given, hcounts⟩))
  · exact Or.inl hout

theorem offsetOf?_eq_lineTooLarge_iff :
    s.offsetOf? p = .error (.lineTooLarge p.line (s.lineCount - 1)) ↔
      (p.line < 0 ∨ (s.lineCount : Int) ≤ p.line) ∧
        Text.isWritable p.line = true ∧ Text.isWritable (s.lineCount - 1 : Nat) = true := by
  constructor
  · intro h
    rcases s.position_cases p with hout | ⟨n, l, hl, hp, hlt⟩ | ⟨o, hok⟩ | ⟨given, hcounts⟩
    · rw [offsetOf?_of_line_outside hout] at h
      exact ⟨hout, LookupError.isWritable_of_built_eq_self (Except.error.inj h)⟩
    · simp [offsetOf?_of_units16_lt hl hp hlt] at h
    · simp [hok] at h
    · simp [offsetOf?_of_countsTo hcounts] at h
  · rintro ⟨hout, hwritable⟩
    rw [offsetOf?_of_line_outside hout]
    exact congrArg Except.error (LookupError.built_of_isWritable hwritable)

theorem offsetOf?_eq_insideCharacter_iff :
    s.offsetOf? p = .error (.insideCharacter given) ↔
      s.CountsTo p given ∧ Text.isWritable given = true := by
  constructor
  · intro h
    rcases s.position_cases p with hout | ⟨n, l, hl, hp, hlt⟩ | ⟨o, hok⟩ | ⟨given', hcounts⟩
    · simp [offsetOf?_of_line_outside hout] at h
    · simp [offsetOf?_of_units16_lt hl hp hlt] at h
    · simp [hok] at h
    · rw [offsetOf?_of_countsTo hcounts] at h
      have hbuilt := Except.error.inj h
      cases LookupError.eq_of_built_eq hbuilt fun _ heq => nomatch heq
      exact ⟨hcounts, LookupError.isWritable_of_built_eq_self hbuilt⟩
  · rintro ⟨hcounts, hwritable⟩
    rw [offsetOf?_of_countsTo hcounts]
    exact congrArg Except.error (LookupError.built_of_isWritable hwritable)

theorem offsetOf?_eq_digits_iff :
    s.offsetOf? p = .error (.digits .writing) ↔
      ((p.line < 0 ∨ (s.lineCount : Int) ≤ p.line) ∧
        ¬ (Text.isWritable p.line = true ∧ Text.isWritable (s.lineCount - 1 : Nat) = true)) ∨
      (∃ (n : Nat) (l : Line), s.lines[n]? = some l ∧ p.line = n ∧
        (l.raw.units16 : Int) < p.character ∧ Text.isWritable p.character = false) ∨
      ∃ given, s.CountsTo p given ∧ Text.isWritable given = false := by
  constructor
  · intro h
    rcases s.position_cases p with hout | ⟨n, l, hl, hp, hlt⟩ | ⟨o, hok⟩ | ⟨given, hcounts⟩
    · rw [offsetOf?_of_line_outside hout] at h
      exact Or.inl ⟨hout, LookupError.not_isWritable_of_built_eq_digits (Except.error.inj h)
        fun _ heq => nomatch heq⟩
    · refine Or.inr (Or.inl ⟨n, l, hl, hp, hlt, Bool.eq_false_iff.2 fun hwritable => ?_⟩)
      have hbehind := (offsetOf?_eq_columnTooLarge_iff hl hp).2 ⟨hlt, hwritable⟩
      rw [h] at hbehind
      cases hbehind
    · simp [hok] at h
    · rw [offsetOf?_of_countsTo hcounts] at h
      have hnot := LookupError.not_isWritable_of_built_eq_digits (Except.error.inj h)
        fun _ heq => nomatch heq
      exact Or.inr (Or.inr ⟨given, hcounts, Bool.eq_false_iff.2 hnot⟩)
  · rintro (⟨hout, hnot⟩ | ⟨n, l, hl, hp, hlt, hnot⟩ | ⟨given, hcounts, hnot⟩)
    · rw [offsetOf?_of_line_outside hout]
      exact congrArg Except.error (LookupError.built_of_not_isWritable hnot)
    · rw [offsetOf?_of_units16_lt hl hp hlt, LookupError.built_of_not_isWritable]
      simp [LookupError.IsWritable, hnot]
    · rw [offsetOf?_of_countsTo hcounts, LookupError.built_of_not_isWritable]
      simp [LookupError.IsWritable, hnot]

/-- **Which positions are accepted.** A line that does not exist is refused with the last one that
does. In a line that exists, units behind it are refused with those that it has, the units of its
prefixes are accepted and stand for the bytes of the prefix, and all others, which are negative or
split a pair, are refused as lying inside a character; the refusal names an offset of the source.
Where an error would have to name a number of too many digits, this is the cause. -/
theorem offset_accepted_or_refused (s : Source) (p : Position) :
    0 < s.lineCount ∧
    (s.offsetOf? p = .error (.lineTooLarge p.line (s.lineCount - 1)) ↔
      (p.line < 0 ∨ (s.lineCount : Int) ≤ p.line) ∧
        Text.isWritable p.line = true ∧ Text.isWritable (s.lineCount - 1 : Nat) = true) ∧
    (∀ (n : Nat) (l : Line), s.lines[n]? = some l → p.line = n →
      s.read? l.offset l.stop = .ok l.raw ∧
      (s.offsetOf? p = .error (.columnTooLarge p.character l.raw.units16) ↔
        (l.raw.units16 : Int) < p.character ∧ Text.isWritable p.character = true) ∧
      (∀ o, s.offsetOf? p = .ok o ↔
        ∃ q : Text, q <+: l.raw ∧ p.character = q.units16 ∧ o = l.offset + q.utf8Length) ∧
      ((∃ given, s.CountsTo p given) ↔
        p.character ≤ l.raw.units16 ∧ ¬ ∃ q : Text, q <+: l.raw ∧ p.character = q.units16) ∧
      ((∃ given, s.CountsTo p given) ↔ p.character < 0 ∨ l.raw.SplitsPair p.character)) ∧
    (∀ given, s.CountsTo p given → 0 ≤ given ∧ given ≤ s.length) ∧
    (∀ given, s.offsetOf? p = .error (.insideCharacter given) ↔
      s.CountsTo p given ∧ Text.isWritable given = true) ∧
    (s.offsetOf? p = .error (.digits .writing) ↔
      ((p.line < 0 ∨ (s.lineCount : Int) ≤ p.line) ∧
        ¬ (Text.isWritable p.line = true ∧ Text.isWritable (s.lineCount - 1 : Nat) = true)) ∨
      (∃ (n : Nat) (l : Line), s.lines[n]? = some l ∧ p.line = n ∧
        (l.raw.units16 : Int) < p.character ∧ Text.isWritable p.character = false) ∨
      ∃ given, s.CountsTo p given ∧ Text.isWritable given = false) := by
  refine ⟨List.length_pos_iff.2 s.lines_ne_nil, offsetOf?_eq_lineTooLarge_iff,
    fun n l hl hp => ⟨decode?_extract hl, offsetOf?_eq_columnTooLarge_iff hl hp,
      fun o => offsetOf?_eq_ok_iff_of_line hl hp, ?_, exists_countsTo_iff hl hp⟩,
    fun given hcounts => isBoundary_bounds hcounts.isBoundary,
    fun given => offsetOf?_eq_insideCharacter_iff, offsetOf?_eq_digits_iff⟩
  rw [exists_countsTo_iff hl hp, negative_or_splitsPair_iff hl]

/-- Behind a line that ends with a character of two units, at its end, and between the two units. -/
theorem offset_accepted_or_refused_split :
    (ofEncodable .anonymous "a\n𐐀" rfl).lines[1]? = some ⟨1, 2, "𐐀"⟩ ∧
      ((⟨1, 3⟩ : Position).line = (1 : Nat) ∧
        (ofEncodable .anonymous "a\n𐐀" rfl).offsetOf? ⟨1, 3⟩ = .error (.columnTooLarge 3 2)) ∧
      ((⟨1, 2⟩ : Position).line = (1 : Nat) ∧
        ∃ q : Text, q <+: "𐐀" ∧ (2 : Int) = q.units16 ∧ 6 = 2 + q.utf8Length) ∧
      (⟨1, 1⟩ : Position).line = (1 : Nat) ∧
        ∃ given, (ofEncodable .anonymous "a\n𐐀" rfl).offsetOf? ⟨1, 1⟩ =
          .error (.insideCharacter given) := by
  have hl : (ofEncodable .anonymous "a\n𐐀" rfl).lines[1]? = some ⟨1, 2, "𐐀"⟩ := rfl
  obtain ⟨-, hbehind, -⟩ := (offset_accepted_or_refused _ ⟨1, 3⟩).2.2.1 1 _ hl rfl
  obtain ⟨-, -, hend, -⟩ := (offset_accepted_or_refused _ ⟨1, 2⟩).2.2.1 1 _ hl rfl
  obtain ⟨-, -, -, -, hsplit⟩ := (offset_accepted_or_refused _ ⟨1, 1⟩).2.2.1 1 _ hl rfl
  obtain ⟨-, -, -, hbounds, hinside, -⟩ :=
    offset_accepted_or_refused (ofEncodable .anonymous "a\n𐐀" rfl) ⟨1, 1⟩
  have hpair : Text.SplitsPair "𐐀" 1 := ⟨[], '𐐀', List.prefix_rfl, rfl, rfl⟩
  obtain ⟨given, hgiven⟩ := hsplit.2 (Or.inr hpair)
  have hsmall : ∀ n : Nat, n ≤ 6 → Text.isWritable n = true := fun n hn =>
    Text.isWritable_of_le_maxOffset (Nat.le_trans hn (by decide))
  obtain ⟨n, rfl⟩ := Int.eq_ofNat_of_zero_le (hbounds given hgiven).1
  exact ⟨hl, ⟨rfl, hbehind.2 ⟨by decide, hsmall 3 (by decide)⟩⟩, ⟨rfl, (hend 6).1 rfl⟩, rfl, n,
    (hinside n).2 ⟨hgiven, hsmall n (Int.ofNat_le.1 (hbounds n hgiven).2)⟩⟩

/-- **Not every line that does not exist** is refused with the last one that does: an index of more
than `digitLimit` digits is not. -/
theorem not_refused_with_last_line : ¬ ∀ (s : Source) (p : Position),
    s.offsetOf? p = .error (.lineTooLarge p.line (s.lineCount - 1)) ↔
      p.line < 0 ∨ (s.lineCount : Int) ≤ p.line := by
  intro h
  let s := ofEncodable .anonymous [] rfl
  have hbehind : (s.lineCount : Int) ≤ (10 ^ digitLimit : Nat) :=
    Int.ofNat_le.2 (Nat.pow_pos (by decide))
  have hwritable :=
    (offsetOf?_eq_lineTooLarge_iff.1 ((h s ⟨(10 ^ digitLimit : Nat), 0⟩).2 (Or.inr hbehind))).2.1
  rw [Text.isWritable_pow_digitLimit] at hwritable
  cases hwritable

end Source

end SourceReport
