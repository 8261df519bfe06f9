import SourceReport.Proofs.Text.Numeral
import SourceReport.Proofs.Text.Pattern
import SourceReport.Source.Position

/-!
# The notation of positions

A position is given as two numerals with a colon between them and blanks around each of the three.
The notation is fixed by a pattern that looks for runs and gives back what it cannot use; as no
digit, blank or colon is another one, there is nothing to be given back, and a text that matches has
one reading.

* `Position.pattern` is the pattern, `Position.Writes` says without it what a text writes.
* `Position.ofNumerals` reads the two numerals, of which each may be too long.

Results:
* `Position.match?_pattern_eq_some_iff`: the pattern keeps the two numerals of a text that writes a
  position, and matches no other text.
* `Position.Writes.ofText?_eq`, `Position.ofText?_of_not_writes`: a text that writes a position is
  read as its numbers unless a numeral is too long, and every other text is refused.
* `Position.ofText?_eq_ok_iff`, `Position.ofText?_eq_malformed_iff`,
  `Position.exists_ofText?_eq_digits_iff`: the three ways in which reading ends.
* `Position.ofText?_display`: the notation of two natural numbers is read.
-/

namespace SourceReport

namespace Position

/-- A text writes two numerals with a colon between them and blanks around each of the three. -/
def Writes (t line character : Text) : Prop :=
  line.IsNumeral ∧ character.IsNumeral ∧ ∃ a b c d : Text,
    a.IsBlank ∧ b.IsBlank ∧ c.IsBlank ∧ d.IsBlank ∧
      t = a ++ line ++ b ++ ":" ++ c ++ character ++ d

/-- The position that two numerals write. -/
def ofNumerals (line character : Text) : Except PositionError Position :=
  match Text.readDigits line, Text.readDigits character with
  | .ok m, .ok n => .ok ⟨m, n⟩
  | .error e, _ => .error (.digits e)
  | _, .error e => .error (.digits e)

/-! ## The pattern -/

/-- Any number of blanks. -/
def blanks : Pattern.Part := .run false 0 (·.isBlank)

/-- A numeral that is kept. -/
def numeral : Pattern.Part := .run true 1 (·.isDecimal)

/-- Blanks up to the end of the text, or to a newline there. -/
def ending : List Pattern.Part := [blanks, .finish]

/-- The pattern of a position. -/
def pattern : List Pattern.Part :=
  blanks :: numeral :: blanks :: .only ':' :: blanks :: numeral :: ending

section Pattern

variable {parts : List Pattern.Part} {t : Text} {answer : List Text}

open Pattern

theorem mem_matchesOf_blanks_iff : answer ∈ matchesOf (blanks :: parts) t ↔
    ∃ a b, t = a ++ b ∧ a.IsBlank ∧ answer ∈ matchesOf parts b := by
  rw [blanks, mem_matchesOf_run_iff]
  simp only [Nat.zero_le, true_and, Bool.false_eq_true, if_false, List.nil_append, Text.IsBlank,
    exists_eq_right']

theorem mem_matchesOf_numeral_iff : answer ∈ matchesOf (numeral :: parts) t ↔
    ∃ n b, t = n ++ b ∧ n.IsNumeral ∧ ∃ more ∈ matchesOf parts b, answer = n :: more := by
  have hnumeral : ∀ n : Text,
      n.IsNumeral ↔ (∀ c ∈ n, c.isDecimal = true) ∧ 1 ≤ n.length := fun n =>
    ⟨fun h => ⟨h.decimal, List.length_pos_iff.2 h.ne_nil⟩,
      fun h => ⟨List.length_pos_iff.1 h.2, h.1⟩⟩
  rw [numeral, mem_matchesOf_run_iff]
  simp only [if_true, List.singleton_append, hnumeral, and_assoc]

/-- Blanks at the end of a text may be taken by their run, or a newline at the very end by none. -/
theorem mem_matchesOf_ending_iff : answer ∈ matchesOf ending t ↔ t.IsBlank ∧ answer = [] := by
  rw [ending, mem_matchesOf_blanks_iff]
  simp only [mem_matchesOf_finish_iff]
  constructor
  · rintro ⟨a, b, rfl, ha, hb, rfl⟩
    refine ⟨fun c hc => ?_, rfl⟩
    rcases List.mem_append.1 hc with hc | hc
    · exact ha c hc
    · rcases hb with rfl | rfl
      · exact absurd hc List.not_mem_nil
      · rw [List.mem_singleton.1 hc]
        decide
  · rintro ⟨ht, rfl⟩
    exact ⟨t, [], (List.append_nil t).symm, ht, Or.inl rfl, rfl⟩

/-- **The ways through the pattern** keep the two numerals of the text. -/
theorem mem_matchesOf_pattern_iff : answer ∈ matchesOf pattern t ↔
    ∃ line character, answer = [line, character] ∧ Writes t line character := by
  have hcolon : Text.ofString ":" = [CodePoint.ofChar ':'] := rfl
  simp only [pattern, mem_matchesOf_blanks_iff, mem_matchesOf_numeral_iff, mem_matchesOf_only_iff,
    mem_matchesOf_ending_iff, Writes, hcolon, List.append_assoc, List.singleton_append]
  constructor
  · rintro ⟨a, _, rfl, ha, line, _, rfl, hline, _, ⟨b, _, rfl, hb, _, rfl, c, _, rfl, hc,
      character, d, rfl, hcharacter, _, ⟨hd, rfl⟩, rfl⟩, rfl⟩
    exact ⟨line, character, rfl, hline, hcharacter, a, b, c, d, ha, hb, hc, hd, rfl⟩
  · rintro ⟨line, character, rfl, hline, hcharacter, a, b, c, d, ha, hb, hc, hd, rfl⟩
    exact ⟨a, _, rfl, ha, line, _, rfl, hline, _, ⟨b, _, rfl, hb, _, rfl, c, _, rfl, hc,
      character, d, rfl, hcharacter, _, ⟨hd, rfl⟩, rfl⟩, rfl⟩

end Pattern

/-! ## Reading a text -/

variable {t line character : Text}

/-- No blank goes on with a numeral, and neither does a sign behind blanks that is no digit. -/
theorem isDecimal_head?_append {a b : Text} (ha : a.IsBlank)
    (hb : ∀ c ∈ b.head?, c.isDecimal = false) : ∀ c ∈ (a ++ b).head?, c.isDecimal = false := by
  intro c hc
  cases a with
  | nil => exact hb c hc
  | cons d a =>
    obtain rfl : d = c := Option.some.inj hc
    rw [← Bool.not_eq_true]
    intro hdecimal
    exact Bool.false_ne_true
      ((CodePoint.isBlank_of_isDecimal hdecimal).symm.trans (ha d List.mem_cons_self))

/-- Where the numerals of a text start and stop is seen from its code points alone. -/
theorem Writes.exists_span_eq (h : Writes t line character) :
    ∃ rest behind after : Text, (Text.trimStart t).span (·.isDecimal) = (line, rest) ∧
      Text.trimStart rest = CodePoint.ofChar ':' :: behind ∧
        (Text.trimStart behind).span (·.isDecimal) = (character, after) ∧ after.IsBlank := by
  obtain ⟨hline, hcharacter, a, b, c, d, ha, hb, hc, hd, rfl⟩ := h
  have hcolon : ∀ x ∈ (CodePoint.ofChar ':' :: (c ++ (character ++ d))).head?,
      x.isBlank = false ∧ x.isDecimal = false := by
    intro x hx
    obtain rfl : CodePoint.ofChar ':' = x := Option.some.inj hx
    decide +kernel
  have htext : a ++ line ++ b ++ ":" ++ c ++ character ++ d =
      a ++ (line ++ (b ++ CodePoint.ofChar ':' :: (c ++ (character ++ d)))) := by
    simp only [List.append_assoc]
    rfl
  refine ⟨b ++ CodePoint.ofChar ':' :: (c ++ (character ++ d)), c ++ (character ++ d), d,
    ?_, ?_, ?_, hd⟩
  · rw [htext, Text.trimStart_append ha hline.isBlank_head?]
    exact span_append hline.decimal
      (isDecimal_head?_append hb fun x hx => (hcolon x hx).2)
  · exact Text.trimStart_append hb fun x hx => (hcolon x hx).1
  · rw [Text.trimStart_append hc hcharacter.isBlank_head?]
    refine span_append hcharacter.decimal ?_
    rw [← List.append_nil d]
    exact isDecimal_head?_append hd fun _ hx => nomatch hx

/-- **A text writes one position** at most. -/
theorem Writes.unique {line' character' : Text} (h : Writes t line character)
    (h' : Writes t line' character') : line = line' ∧ character = character' := by
  obtain ⟨rest, behind, after, hfirst, hmiddle, hsecond, -⟩ := h.exists_span_eq
  obtain ⟨rest', behind', after', hfirst', hmiddle', hsecond', -⟩ := h'.exists_span_eq
  obtain ⟨rfl, rfl⟩ := Prod.mk.inj (hfirst.symm.trans hfirst')
  obtain ⟨-, rfl⟩ := List.cons.inj (hmiddle.symm.trans hmiddle')
  exact ⟨rfl, (Prod.mk.inj (hsecond.symm.trans hsecond')).1⟩

/-- **The pattern** matches the texts that write a position, and keeps its numerals. -/
theorem match?_pattern_eq_some_iff {answer : List Text} :
    Pattern.match? pattern t = some answer ↔
      ∃ line character, answer = [line, character] ∧ Writes t line character := by
  rw [← mem_matchesOf_pattern_iff]
  refine Pattern.match?_eq_some_iff fun x hx y hy => ?_
  obtain ⟨line, character, rfl, h⟩ := mem_matchesOf_pattern_iff.1 hx
  obtain ⟨line', character', rfl, h'⟩ := mem_matchesOf_pattern_iff.1 hy
  obtain ⟨rfl, rfl⟩ := h.unique h'
  rfl

/-- **A text that writes a position** is read numeral by numeral. -/
theorem ofText?_of_writes (h : Writes t line character) :
    ofText? t = ofNumerals line character := by
  obtain ⟨rest, behind, after, hfirst, hmiddle, hsecond, hafter⟩ := h.exists_span_eq
  obtain ⟨hline, hcharacter, -⟩ := h
  have hblank : after.any (fun x : CodePoint => !x.isBlank) = false := by
    rw [List.any_eq_false]
    intro x hx
    rw [hafter x hx]
    decide
  simp only [ofText?, hfirst, hmiddle, hsecond, ne_eq, not_true_eq_false, decide_false,
    List.isEmpty_eq_false_iff.2 hline.ne_nil, List.isEmpty_eq_false_iff.2 hcharacter.ne_nil, hblank,
    Bool.or_self, Bool.false_eq_true, if_false]
  rfl

/-- **Every other text** is refused. -/
theorem ofText?_of_not_writes (h : ¬ ∃ line character, Writes t line character) :
    ofText? t = .error (.malformed t) := by
  obtain ⟨a, ht, ha⟩ := Text.exists_eq_append_trimStart t
  obtain ⟨line, rest, hfirst, hfront, hline⟩ := Text.exists_span_eq (·.isDecimal) (Text.trimStart t)
  obtain ⟨b, hrest, hb⟩ := Text.exists_eq_append_trimStart rest
  cases hmiddle : Text.trimStart rest with
  | nil => simp only [ofText?, hfirst, hmiddle]
  | cons x behind =>
    obtain ⟨c, hbehind, hc⟩ := Text.exists_eq_append_trimStart behind
    obtain ⟨character, after, hsecond, hlast, hcharacter⟩ :=
      Text.exists_span_eq (·.isDecimal) (Text.trimStart behind)
    have hguard : (decide (x ≠ CodePoint.ofChar ':') || line.isEmpty || character.isEmpty ||
        after.any fun y : CodePoint => !y.isBlank) = true := by
      rw [← Bool.not_eq_false]
      intro hpasses
      simp only [ne_eq, Bool.or_eq_false_iff, decide_eq_false_iff_not, not_not,
        List.isEmpty_eq_false_iff, List.any_eq_false, Bool.not_eq_true', Bool.not_eq_false]
        at hpasses
      obtain ⟨⟨⟨rfl, hne⟩, hne'⟩, hafter⟩ := hpasses
      refine h ⟨line, character, ⟨hne, hline⟩, ⟨hne', hcharacter⟩, a, b, c, after, ha, hb, hc,
        hafter, ?_⟩
      calc t = a ++ (line ++ (b ++ CodePoint.ofChar ':' :: (c ++ (character ++ after)))) := by
            rw [← hlast, ← hbehind, ← hmiddle, ← hrest, ← hfront, ← ht]
        _ = _ := by simp only [List.append_assoc]; rfl
    simp only [ofText?, hfirst, hmiddle, hsecond, hguard, if_true]

/-! ## Numbers -/

/-- The numerals of a position are read unless one of them is too long; the first one that is
counts. -/
theorem ofNumerals_eq (hline : line.IsNumeral) (hcharacter : character.IsNumeral) :
    ofNumerals line character =
      if digitLimit < line.length then .error (.digits (.reading line.length))
      else if digitLimit < character.length then .error (.digits (.reading character.length))
      else .ok ⟨line.numeral, character.numeral⟩ := by
  rw [ofNumerals, Text.readDigits_eq hline.decimal, Text.readDigits_eq hcharacter.decimal]
  simp only [← Nat.not_lt]
  by_cases h : digitLimit < line.length
  · simp only [h, not_true_eq_false, if_false, if_true]
  · by_cases h' : digitLimit < character.length
    · simp only [h, h', not_true_eq_false, not_false_eq_true, if_false, if_true]
    · simp only [h, h', not_false_eq_true, if_false, if_true]

/-- A text that writes a position is read as its numbers, unless a numeral is too long. -/
theorem Writes.ofText?_eq (h : Writes t line character) :
    ofText? t =
      if digitLimit < line.length then .error (.digits (.reading line.length))
      else if digitLimit < character.length then .error (.digits (.reading character.length))
      else .ok ⟨line.numeral, character.numeral⟩ := by
  rw [ofText?_of_writes h, ofNumerals_eq h.1 h.2.1]

/-- **What reading a text comes to.** -/
theorem ofText?_eq_ok_iff {p : Position} : ofText? t = .ok p ↔
    ∃ line character, Writes t line character ∧ line.length ≤ digitLimit ∧
      character.length ≤ digitLimit ∧ p = ⟨line.numeral, character.numeral⟩ := by
  constructor
  · intro h
    by_cases hwrites : ∃ line character, Writes t line character
    · obtain ⟨line, character, hwrites⟩ := hwrites
      rw [hwrites.ofText?_eq] at h
      split at h
      · cases h
      · split at h
        · cases h
        · next hline hcharacter =>
          exact ⟨line, character, hwrites, Nat.le_of_not_lt hline, Nat.le_of_not_lt hcharacter,
            (Except.ok.inj h).symm⟩
    · rw [ofText?_of_not_writes hwrites] at h
      cases h
  · rintro ⟨line, character, hwrites, hline, hcharacter, rfl⟩
    rw [hwrites.ofText?_eq, if_neg (Nat.not_lt.2 hline), if_neg (Nat.not_lt.2 hcharacter)]

/-- A text is refused as a whole exactly if it writes no position. -/
theorem ofText?_eq_malformed_iff :
    ofText? t = .error (.malformed t) ↔ ¬ ∃ line character, Writes t line character := by
  refine ⟨fun h hwrites => ?_, ofText?_of_not_writes⟩
  obtain ⟨line, character, hwrites⟩ := hwrites
  rw [hwrites.ofText?_eq] at h
  split at h
  · cases h
  · split at h <;> cases h

/-- Digits are refused exactly if one of the numerals of a position has too many. -/
theorem exists_ofText?_eq_digits_iff : (∃ e, ofText? t = .error (.digits e)) ↔
    ∃ line character, Writes t line character ∧
      (digitLimit < line.length ∨ digitLimit < character.length) := by
  constructor
  · rintro ⟨e, h⟩
    by_cases hwrites : ∃ line character, Writes t line character
    · obtain ⟨line, character, hwrites⟩ := hwrites
      refine ⟨line, character, hwrites, ?_⟩
      rw [hwrites.ofText?_eq] at h
      split at h
      · next hline => exact Or.inl hline
      · split at h
        · next hcharacter => exact Or.inr hcharacter
        · cases h
    · rw [ofText?_of_not_writes hwrites] at h
      cases h
  · rintro ⟨line, character, hwrites, hlong⟩
    rw [hwrites.ofText?_eq]
    by_cases hline : digitLimit < line.length
    · exact ⟨_, if_pos hline⟩
    · exact ⟨_, by rw [if_neg hline, if_pos (hlong.resolve_left hline)]⟩

/-- **Two numbers that are written with blanks around them** are read. -/
theorem ofText?_ofNat {m n : Nat} (hm : m < 10 ^ digitLimit) (hn : n < 10 ^ digitLimit)
    {a b c d : Text} (ha : a.IsBlank) (hb : b.IsBlank) (hc : c.IsBlank) (hd : d.IsBlank) :
    ofText? (a ++ Text.ofNat m ++ b ++ ":" ++ c ++ Text.ofNat n ++ d) = .ok ⟨m, n⟩ := by
  rw [ofText?_eq_ok_iff]
  refine ⟨Text.ofNat m, Text.ofNat n,
    ⟨Text.isNumeral_ofNat m, Text.isNumeral_ofNat n, a, b, c, d, ha, hb, hc, hd, rfl⟩,
    Text.length_ofNat_le (by decide) hm, Text.length_ofNat_le (by decide) hn, ?_⟩
  rw [Text.numeral_ofNat, Text.numeral_ofNat]

/-- **The notation** of two natural numbers is read. -/
theorem ofText?_display {m n : Nat} (hm : m < 10 ^ digitLimit) (hn : n < 10 ^ digitLimit) :
    ofText? (display ⟨m, n⟩) = .ok ⟨m, n⟩ := by
  have hnone : Text.IsBlank [] := fun _ hc => absurd hc List.not_mem_nil
  have h := ofText?_ofNat hm hn hnone hnone hnone hnone
  rwa [List.nil_append, List.append_nil, List.append_nil, List.append_nil] at h

end Position

end SourceReport
