import Mathlib.Logic.ExistsUnique
import SourceReport.Proofs.Source.Lookup
import SourceReport.Source.Position

/-!
# Editor positions and offsets

An editor position is a line and a number of UTF-16 units, an offset a number of bytes of the whole
source. Both stand for a prefix of a line: `offsetOf?` accepts a position exactly if its units are
those of such a prefix (`offsetOf?_eq_ok_iff`), and `positionOf?` answers the prefix that ends at a
boundary (`positionOf?_of_prefix`).

A line with its terminator ends where the next line starts. An offset there belongs to the next
line, while a position may stand behind the terminator (`Position.IsBehindTerminator`): these are
the only positions that a conversion to an offset and back changes.

Results:
* `position_round_trip`: from a boundary to its position and back, and from a span between
  boundaries to its range and back.
* `not_positionOf?_offsetOf?`: a position behind a terminator and the start of the next line have
  one offset.
* `offset_round_trip`: from an accepted position to its offset and back, and the positions that are
  not behind a terminator correspond one to one to the boundaries.
-/

namespace SourceReport

/-! ## Walking over units -/

/-- The walk stops behind a prefix whose units are the target. -/
theorem walkUnits_append (a b : Text) (units bytes : Nat) :
    walkUnits (units + a.units16 : Nat) units bytes (a ++ b) =
      (units + a.units16, bytes + a.utf8Length) := by
  induction a generalizing units bytes with
  | nil =>
    cases b with
    | nil => rfl
    | cons c b => simp [walkUnits]
  | cons c a ih =>
    have hpos := c.units16_pos
    have hgo : ¬ ((units + Text.units16 (c :: a) : Nat) : Int) ≤ units := by
      rw [Text.units16_cons]
      omega
    rw [List.cons_append, walkUnits, if_neg hgo, Text.units16_cons, Text.utf8Length_cons,
      ← Nat.add_assoc, ih, Nat.add_assoc bytes]

/-- Wherever the walk stops, it has passed a prefix. -/
theorem exists_walkUnits (target : Int) (units bytes : Nat) (t : Text) :
    ∃ p : Text, p <+: t ∧
      walkUnits target units bytes t = (units + p.units16, bytes + p.utf8Length) := by
  induction t generalizing units bytes with
  | nil => exact ⟨[], List.nil_prefix, rfl⟩
  | cons c t ih =>
    rw [walkUnits]
    by_cases h : target ≤ units
    · exact ⟨[], List.nil_prefix, by rw [if_pos h]; rfl⟩
    · obtain ⟨p, hp, hwalk⟩ := ih (units + c.units16) (bytes + c.utf8Width)
      refine ⟨c :: p, (List.prefix_cons_inj c).2 hp, ?_⟩
      rw [if_neg h, hwalk, Text.units16_cons, Text.utf8Length_cons, Nat.add_assoc, Nat.add_assoc]

namespace Source

variable {s : Source} {n o : Nat} {l : Line} {p : Position}

/-! ## Prefixes of lines -/

/-- **The accepted positions** are the prefixes of lines, counted in units, and their offsets are
the same prefixes counted in bytes. -/
theorem offsetOf?_eq_ok_iff : s.offsetOf? p = .ok o ↔
    ∃ (n : Nat) (l : Line) (q : Text), s.lines[n]? = some l ∧ q <+: l.raw ∧
      p = ⟨n, q.units16⟩ ∧ o = l.offset + q.utf8Length := by
  constructor
  · intro h
    cases hline : s.line? p.line with
    | error e => simp [offsetOf?, hline, bind, Except.bind] at h
    | ok l =>
      obtain ⟨n, hn, hl⟩ := line?_eq_ok_iff.1 hline
      obtain ⟨q, hq, hwalk⟩ := exists_walkUnits p.character 0 0 l.raw
      simp only [offsetOf?, hline, bind, Except.bind, hwalk, Nat.zero_add] at h
      by_cases hless : (q.units16 : Int) < p.character
      · rw [if_pos hless] at h
        cases h
      · by_cases hmore : p.character < q.units16
        · rw [if_neg hless, if_pos hmore] at h
          cases h
        · rw [if_neg hless, if_neg hmore, Except.ok.injEq] at h
          have hunits : p.character = q.units16 := by omega
          refine ⟨n, l, q, hl, hq, ?_, h.symm⟩
          cases p
          simp only at hn hunits
          rw [hn, hunits]
  · rintro ⟨n, l, q, hl, ⟨rest, hrest⟩, rfl, rfl⟩
    have hline : s.line? (n : Int) = .ok l := line?_eq_ok_iff.2 ⟨n, rfl, hl⟩
    have hwalk : walkUnits (q.units16 : Nat) 0 0 l.raw = (q.units16, q.utf8Length) := by
      have h := walkUnits_append q rest 0 0
      rwa [Nat.zero_add, Nat.zero_add, hrest] at h
    simp only [offsetOf?, hline, bind, Except.bind, hwalk]
    rw [if_neg (Int.lt_irrefl _), if_neg (Int.lt_irrefl _)]

/-- The end of a prefix of a line is a boundary. -/
theorem isBoundary_of_prefix {q : Text} (hl : s.lines[n]? = some l) (hq : q <+: l.raw) :
    s.isBoundary (l.offset + q.utf8Length : Nat) = true := by
  obtain ⟨hraw, -, hoffset⟩ := (s.lines_getElem?_eq n l).1 hl
  obtain ⟨after, hafter⟩ := Text.exists_eq_beforeLine_append hraw
  obtain ⟨rest, hrest⟩ := hq
  refine Text.isBoundary_iff.2 ⟨s.content.beforeLine n ++ q, ⟨rest ++ after, ?_⟩, ?_⟩
  · rw [List.append_assoc, ← List.append_assoc q, hrest, ← List.append_assoc, ← hafter]
  · rw [Text.utf8Length_append, hoffset]

/-- A line starts at a boundary. -/
theorem isBoundary_offset (hl : s.lines[n]? = some l) : s.isBoundary l.offset = true :=
  isBoundary_of_prefix hl List.nil_prefix

/-- A boundary is the end of a prefix of its line. -/
theorem exists_prefix_of_isBoundary (h : s.isBoundary o = true) :
    ∃ (n : Nat) (l : Line) (q : Text), s.lines[n]? = some l ∧ q <+: l.raw ∧
      o = l.offset + q.utf8Length ∧ ∀ next, s.lines[n + 1]? = some next → o < next.offset := by
  obtain ⟨n, l, hl, -, hle, hlt⟩ := s.exists_lineFrom o
  obtain ⟨hraw, -, hoffset⟩ := (s.lines_getElem?_eq n l).1 hl
  obtain ⟨after, hafter⟩ := Text.exists_eq_beforeLine_append hraw
  obtain ⟨upto, hupto, hlen⟩ := Text.isBoundary_iff.1 h
  have hstop : o ≤ l.stop := by
    cases hnext : s.lines[n + 1]? with
    | none => exact stop_eq_length hl hnext ▸ le_length_of_isBoundary h
    | some next => exact Nat.le_of_lt (stop_eq_offset hl hnext ▸ hlt next hnext)
  have hbefore : s.content.beforeLine n <+: s.content :=
    ⟨l.raw ++ after, by rw [← List.append_assoc, ← hafter]⟩
  have hthrough : s.content.beforeLine n ++ l.raw <+: s.content := ⟨after, hafter.symm⟩
  -- The boundary lies behind the text before the line and not behind the line.
  obtain ⟨q, rfl⟩ := Text.prefix_of_utf8Length_le hbefore hupto (by omega)
  have hq : s.content.beforeLine n ++ q <+: s.content.beforeLine n ++ l.raw := by
    refine Text.prefix_of_utf8Length_le hupto hthrough ?_
    rw [Text.utf8Length_append (s.content.beforeLine n) l.raw, ← hoffset, hlen]
    exact hstop
  refine ⟨n, l, q, hl, (List.prefix_append_right_inj _).1 hq, ?_, hlt⟩
  rw [← hlen, Text.utf8Length_append, hoffset]

/-- **The position of a boundary**: the prefix of its line that ends there. -/
theorem positionOf?_of_prefix {q : Text} (hl : s.lines[n]? = some l) (hq : q <+: l.raw)
    (hlt : ∀ next, s.lines[n + 1]? = some next → l.offset + q.utf8Length < next.offset) :
    s.positionOf? (l.offset + q.utf8Length : Nat) = .ok ⟨n, q.units16⟩ := by
  obtain ⟨-, hindex, -⟩ := (s.lines_getElem?_eq n l).1 hl
  have hboundary := isBoundary_of_prefix hl hq
  have hline : s.lineOf? (l.offset + q.utf8Length : Nat) = .ok l := by
    rw [lineOf?_of_le (le_length_of_isBoundary hboundary),
      lineFrom_eq hl (Nat.le_add_right _ _) hlt]
  have hbytes : (((l.offset + q.utf8Length : Nat) : Int) - l.offset).toNat = q.utf8Length := by
    omega
  simp only [positionOf?, checkBoundary_of_isBoundary hboundary, hline, bind, Except.bind, pure,
    Except.pure, hbytes, Text.takeBytes_of_prefix hq, hindex]

/-! ## From offsets to positions and back -/

/-- A boundary has a position, which is accepted and has the boundary as its offset. -/
theorem exists_positionOf?_of_isBoundary (h : s.isBoundary o = true) :
    ∃ p, s.positionOf? o = .ok p ∧ s.offsetOf? p = .ok o := by
  obtain ⟨n, l, q, hl, hq, rfl, hlt⟩ := exists_prefix_of_isBoundary h
  exact ⟨⟨n, q.units16⟩, positionOf?_of_prefix hl hq hlt,
    offsetOf?_eq_ok_iff.2 ⟨n, l, q, hl, hq, rfl, rfl⟩⟩

end Source

/-- A span is not changed by bringing its ends into range. -/
theorem Span.clamp_self (span : Span) : clamp span.file span.start span.stop = span := by
  obtain ⟨file, start, stop, hle, hmax⟩ := span
  have hstart : min start maxOffset = start := Nat.min_eq_left (Nat.le_trans hle hmax)
  have hstop : min stop maxOffset = stop := Nat.min_eq_left hmax
  simp only [clamp, clampOffset, Int.toNat_natCast, hstart, hstop, Nat.max_eq_left hle]

namespace Source

variable {s : Source} {n o : Nat} {l : Line} {p : Position}

/-- A span between boundaries has a range, and that range has the span. -/
theorem exists_rangeOf?_of_isBoundary {span : Span} (hfile : span.file = s.id)
    (hstart : s.isBoundary span.start = true) (hstop : s.isBoundary span.stop = true) :
    ∃ r, s.rangeOf? span = .ok r ∧ s.spanOf? r = .ok span := by
  obtain ⟨p, hp, hp'⟩ := exists_positionOf?_of_isBoundary hstart
  obtain ⟨q, hq, hq'⟩ := exists_positionOf?_of_isBoundary hstop
  refine ⟨⟨p, q⟩, ?_, ?_⟩
  · simp only [rangeOf?, hp, hq, bind, Except.bind, pure, Except.pure]
  · simp only [spanOf?, hp', hq', bind, Except.bind, pure, Except.pure, SourceId.range]
    rw [← hfile, span.clamp_self]

/-- **No boundary is lost on the way through editor positions**, the start and the end of the source
included, and no span between two boundaries. A span ends at `maxOffset` at the latest, so nothing
is asked of the length of the source. -/
theorem position_round_trip (s : Source) :
    s.isBoundary 0 = true ∧ s.isBoundary s.length = true ∧
      (∀ o : Int, s.isBoundary o = true → ∃ (n : Nat) (p : Position), o = n ∧
        s.positionOf? o = .ok p ∧ s.offsetOf? p = .ok n) ∧
      ∀ span : Span, span.file = s.id → s.isBoundary span.start = true →
        s.isBoundary span.stop = true → ∃ r, s.rangeOf? span = .ok r ∧ s.spanOf? r = .ok span := by
  refine ⟨s.isBoundary_zero, s.isBoundary_length, fun o h => ?_,
    fun span => exists_rangeOf?_of_isBoundary⟩
  cases o with
  | ofNat n =>
    obtain ⟨p, hp, hp'⟩ := exists_positionOf?_of_isBoundary h
    exact ⟨n, p, rfl, hp, hp'⟩
  | negSucc n => cases h

/-- Between a CR and its LF, and a span from there over a pair of surrogates. -/
theorem position_round_trip_pair :
    ((ofEncodable .anonymous "å\r\n𐐀" rfl).isBoundary 3 = true ∧
      ∃ (n : Nat) (p : Position), 3 = (n : Int) ∧
        (ofEncodable .anonymous "å\r\n𐐀" rfl).positionOf? 3 = .ok p ∧
        (ofEncodable .anonymous "å\r\n𐐀" rfl).offsetOf? p = .ok n) ∧
      (ofEncodable .anonymous "å\r\n𐐀" rfl).isBoundary 8 = true ∧
      ∃ r, (ofEncodable .anonymous "å\r\n𐐀" rfl).rangeOf?
          ⟨(ofEncodable .anonymous "å\r\n𐐀" rfl).id, 3, 8, by decide, by decide⟩ = .ok r ∧
        (ofEncodable .anonymous "å\r\n𐐀" rfl).spanOf? r =
          .ok ⟨(ofEncodable .anonymous "å\r\n𐐀" rfl).id, 3, 8, by decide, by decide⟩ :=
  ⟨⟨rfl, (position_round_trip _).2.2.1 3 rfl⟩, rfl,
    (position_round_trip _).2.2.2 ⟨_, 3, 8, by decide, by decide⟩ rfl rfl rfl⟩

/-! ## From positions to offsets and back -/

end Source

/-- A position behind the terminator of a line that another one follows. -/
def Position.IsBehindTerminator (s : Source) (p : Position) : Prop :=
  ∃ (n : Nat) (l next : Line), s.lines[n]? = some l ∧ s.lines[n + 1]? = some next ∧
    p = ⟨n, l.raw.units16⟩

namespace Source

variable {s : Source} {n o : Nat} {l : Line} {p : Position}

/-- **Two positions, one offset**: behind a terminator and at the start of the next line. -/
theorem not_positionOf?_offsetOf? : ¬ ∀ (s : Source) (p : Position) (o : Nat),
    s.offsetOf? p = .ok o → s.positionOf? o = .ok p := by
  intro h
  have hback : (ofEncodable .anonymous "a\n" rfl).positionOf? 2 = .ok ⟨0, 2⟩ :=
    h (ofEncodable .anonymous "a\n" rfl) ⟨0, 2⟩ 2 rfl
  have hnext : (ofEncodable .anonymous "a\n" rfl).positionOf? 2 = .ok ⟨1, 0⟩ := rfl
  rw [hnext] at hback
  cases hback

/-- A position inside its line, or at the end of the last line, comes back from its offset. -/
theorem positionOf?_of_offsetOf? (h : s.offsetOf? p = .ok o) (hp : ¬ p.IsBehindTerminator s) :
    s.positionOf? o = .ok p := by
  obtain ⟨n, l, q, hl, hq, rfl, rfl⟩ := offsetOf?_eq_ok_iff.1 h
  refine positionOf?_of_prefix hl hq fun next hnext => ?_
  rw [← stop_eq_offset hl hnext, Line.stop, Line.length]
  refine Nat.add_lt_add_left (Nat.lt_of_le_of_ne ?_ fun heq => hp ?_) _
  · obtain ⟨rest, hrest⟩ := hq
    rw [← hrest, Text.utf8Length_append]
    exact Nat.le_add_right _ _
  · rw [Text.eq_of_utf8Length_eq hq List.prefix_rfl heq]
    exact ⟨n, l, next, hl, hnext, rfl⟩

/-- A position behind a terminator has the offset at which the next line starts. -/
theorem positionOf?_of_isBehindTerminator (h : s.offsetOf? p = .ok o)
    (hp : p.IsBehindTerminator s) : s.positionOf? o = .ok ⟨p.line + 1, 0⟩ := by
  obtain ⟨n, l, next, hl, hnext, rfl⟩ := hp
  obtain ⟨m, l', q, hl', hq, hpos, rfl⟩ := offsetOf?_eq_ok_iff.1 h
  obtain ⟨hmn, hunits⟩ := Position.mk.inj hpos
  obtain rfl : n = m := Int.ofNat.inj hmn
  obtain rfl : l = l' := Option.some.inj (hl.symm.trans hl')
  have hwhole : q = l.raw := Text.eq_of_units16_eq hq (Int.ofNat.inj hunits).symm
  have hoffset : l.offset + q.utf8Length = next.offset + Text.utf8Length [] := by
    rw [hwhole, Text.utf8Length_nil, Nat.add_zero, ← stop_eq_offset hl hnext, Line.stop,
      Line.length]
  rw [hoffset]
  refine positionOf?_of_prefix hnext List.nil_prefix fun next' hnext' => ?_
  exact offset_lt_offset hnext hnext'

/-- The position of a boundary is not behind a terminator. -/
theorem not_isBehindTerminator_of_positionOf? (h : s.positionOf? o = .ok p)
    (hp : s.offsetOf? p = .ok o) : ¬ p.IsBehindTerminator s := by
  intro hbehind
  have hnext := positionOf?_of_isBehindTerminator hp hbehind
  rw [h, Except.ok.injEq] at hnext
  have hline := congrArg Position.line hnext
  simp only at hline
  omega

/-- **Accepted positions and boundaries.** The offset of an accepted position leads back to it,
unless it stands behind a terminator: then it leads to the start of the next line. Every boundary
is the offset of exactly one position that does not stand there. -/
theorem offset_round_trip (s : Source) :
    (∀ (p : Position) (o : Nat), s.offsetOf? p = .ok o → ¬ p.IsBehindTerminator s →
      s.positionOf? o = .ok p) ∧
      (∀ (p : Position) (o : Nat), s.offsetOf? p = .ok o → p.IsBehindTerminator s →
        s.positionOf? o = .ok ⟨p.line + 1, 0⟩) ∧
      ∀ o : Nat, s.isBoundary o = true ↔
        ∃! p, s.offsetOf? p = .ok o ∧ ¬ p.IsBehindTerminator s := by
  refine ⟨fun _ _ => positionOf?_of_offsetOf?, fun _ _ => positionOf?_of_isBehindTerminator,
    fun o => ⟨fun h => ?_, ?_⟩⟩
  · obtain ⟨p, hp, hp'⟩ := exists_positionOf?_of_isBoundary h
    refine ⟨p, ⟨hp', not_isBehindTerminator_of_positionOf? hp hp'⟩, fun q hq => ?_⟩
    have hback := positionOf?_of_offsetOf? hq.1 hq.2
    rw [hp, Except.ok.injEq] at hback
    exact hback.symm
  · rintro ⟨p, ⟨hp, -⟩, -⟩
    obtain ⟨n, l, q, hl, hq, -, rfl⟩ := offsetOf?_eq_ok_iff.1 hp
    exact isBoundary_of_prefix hl hq

/-- In front of a terminator and behind it. -/
theorem offset_round_trip_terminator :
    ((ofEncodable .anonymous "a\n" rfl).offsetOf? ⟨0, 1⟩ = .ok 1 ∧
      ¬ Position.IsBehindTerminator (ofEncodable .anonymous "a\n" rfl) ⟨0, 1⟩ ∧
      (ofEncodable .anonymous "a\n" rfl).positionOf? 1 = .ok ⟨0, 1⟩) ∧
      (ofEncodable .anonymous "a\n" rfl).offsetOf? ⟨0, 2⟩ = .ok 2 ∧
      Position.IsBehindTerminator (ofEncodable .anonymous "a\n" rfl) ⟨0, 2⟩ ∧
      (ofEncodable .anonymous "a\n" rfl).positionOf? 2 = .ok ⟨1, 0⟩ := by
  have hinside : ¬ Position.IsBehindTerminator (ofEncodable .anonymous "a\n" rfl) ⟨0, 1⟩ := by
    rintro ⟨n, l, next, hl, -, hp⟩
    obtain ⟨hn, hunits⟩ := Position.mk.inj hp
    obtain rfl : 0 = n := Int.ofNat.inj hn
    obtain rfl : ⟨0, 0, "a\n"⟩ = l := Option.some.inj hl
    cases hunits
  have hbehind : Position.IsBehindTerminator (ofEncodable .anonymous "a\n" rfl) ⟨0, 2⟩ :=
    ⟨0, ⟨0, 0, "a\n"⟩, ⟨1, 2, []⟩, rfl, rfl, rfl⟩
  exact ⟨⟨rfl, hinside, (offset_round_trip _).1 ⟨0, 1⟩ 1 rfl hinside⟩, rfl, hbehind,
    (offset_round_trip _).2.1 ⟨0, 2⟩ 2 rfl hbehind⟩

end Source

end SourceReport
