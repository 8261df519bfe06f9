import SourceReport.Proofs.Source.Column

/-!
# Lines that a range of bytes touches

A range of bytes touches the lines with which it shares a byte. They follow each other, from the
line of the first byte of the range to the line of its last one. An empty range has no byte; it
stands for the line to which its place belongs.

* `Line.SharesByte` says that a line and a range have a byte in common.

Results:
* `Source.IsLineOf.offset_le_iff`: the lines that start at or before an offset are those up to its
  own.
* `Source.isLineOf_iff_of_lt_length`: a byte belongs to the line in which it lies.
* `Source.exists_lineRange?_eq`: a range inside the source has a first and a last line.
* `Source.sharesByte_iff`: the lines from the first to the last one are those it touches.
* `Source.IsLineOf.stop_bounds`: the end of the range lies in the last of them or behind it.
* `Source.IsLineOf.lt_iff`: there are several exactly if a line starts in between.
* `Source.range_touches_lines`: all of this for every range inside a source.
-/

namespace SourceReport

/-- A byte of the line, its terminator included, lies in the range. -/
def Line.SharesByte (l : Line) (start stop : Int) : Prop :=
  ∃ o : Int, (l.offset ≤ o ∧ o < l.stop) ∧ start ≤ o ∧ o < stop

namespace Source

variable {s : Source} {m n first last : Nat} {l : Line} {a b o start stop : Int}

/-! ## Lines in their order -/

/-- A line starts in itself, also if it is empty. -/
theorem isLineOf_offset (hl : s.lines[n]? = some l) : s.IsLineOf l.offset n :=
  isLineOf_of_lt_next hl (Int.le_refl _) fun _ hnext => Int.ofNat_lt.2 (offset_lt_offset hl hnext)

/-- **The lines that start at or before an offset** are those up to the line of the offset. -/
theorem IsLineOf.offset_le_iff (h : s.IsLineOf o m) (hl : s.lines[n]? = some l) :
    l.offset ≤ o ↔ n ≤ m := by
  refine ⟨fun hle => (isLineOf_offset hl).mono hle h, fun hnm => Int.not_lt.1 fun hlt => ?_⟩
  obtain rfl : n = m := Nat.le_antisymm hnm (h.mono (Int.le_of_lt hlt) (isLineOf_offset hl))
  exact Int.not_lt.2 (h.offset_le hl) hlt

theorem IsLineOf.lt_lineCount (h : s.IsLineOf o n) : n < s.lineCount := by
  obtain ⟨start, hstart, -⟩ := h
  have hlt := (List.getElem?_eq_some_iff.1 hstart).1
  rwa [lineStarts, List.length_map] at hlt

/-- **Two offsets have different lines** exactly if a line starts behind the first one and not
behind the second one. -/
theorem IsLineOf.lt_iff (ha : s.IsLineOf a m) (hb : s.IsLineOf b n) :
    m < n ↔ ∃ x ∈ s.lineStarts, a < (x : Int) ∧ (x : Int) ≤ b := by
  constructor
  · intro hmn
    obtain ⟨l, hl⟩ := s.exists_line hb.lt_lineCount
    refine ⟨l.offset, List.mem_map_of_mem (List.mem_of_getElem? hl), ?_, (hb.offset_le_iff hl).2
      (Nat.le_refl n)⟩
    exact Int.not_le.1 fun hle => Nat.not_le.2 hmn ((ha.offset_le_iff hl).1 hle)
  · rintro ⟨x, hx, hax, hxb⟩
    obtain ⟨l, hl, rfl⟩ := List.mem_map.1 hx
    obtain ⟨k, hk⟩ := List.getElem?_of_mem hl
    have hmk : m < k := Nat.not_le.1 fun hle => Int.not_le.2 hax ((ha.offset_le_iff hk).2 hle)
    exact Nat.lt_of_lt_of_le hmk ((hb.offset_le_iff hk).1 hxb)

/-- **A byte of a source** belongs to the line in which it lies. -/
theorem isLineOf_iff_of_lt_length (hl : s.lines[n]? = some l) (ho : o < s.length) :
    s.IsLineOf o n ↔ l.offset ≤ o ∧ o < l.stop := by
  constructor
  · intro h
    refine ⟨h.offset_le hl, ?_⟩
    obtain ⟨-, -, -, hlast | ⟨next, hnext, hlt⟩⟩ := h
    · have hlength : s.lines.length = n + 1 := by rw [hlast, lineStarts, List.length_map]
      rwa [stop_eq_length hl (List.getElem?_eq_none (Nat.le_of_eq hlength))]
    · rw [lineStarts_getElem?] at hnext
      obtain ⟨line, hline, rfl⟩ := Option.map_eq_some_iff.1 hnext
      rwa [stop_eq_offset hl hline]
  · rintro ⟨hle, hlt⟩
    exact isLineOf_of_lt_next hl hle fun next hnext => by rwa [← stop_eq_offset hl hnext]

/-! ## The lines of a range -/

/-- **A range inside the source** has a first line, that of its start, and a last one, that of its
last byte; an empty range has the line of its start twice. -/
theorem exists_lineRange?_eq (h : 0 ≤ start ∧ start ≤ stop ∧ stop ≤ s.length) :
    ∃ first last, s.lineRange? start stop = .ok (first, last) ∧ s.IsLineOf start first ∧
      s.IsLineOf (max (stop - 1) start) last := by
  have hstart : 0 ≤ start ∧ start ≤ s.length := by omega
  have hbyte : 0 ≤ max (stop - 1) start ∧ max (stop - 1) start ≤ s.length := by omega
  obtain ⟨first, k, hk, rfl, -, hfirst⟩ := s.exists_lineOf?_eq hstart
  obtain ⟨last, l, hl, rfl, -, hlast⟩ := s.exists_lineOf?_eq hbyte
  refine ⟨_, _, ?_, hfirst, hlast⟩
  simp only [lineRange?, hk, hl, bind, Except.bind, pure, Except.pure]

/-- **The lines from the first to the last one** are those that share a byte with the range. -/
theorem sharesByte_iff (hstop : stop ≤ s.length) (hlt : start < stop)
    (hfirst : s.IsLineOf start first) (hlast : s.IsLineOf (stop - 1) last) :
    first ≤ n ∧ n ≤ last ↔ ∃ l, s.lines[n]? = some l ∧ l.SharesByte start stop := by
  constructor
  · rintro ⟨hfn, hnl⟩
    obtain ⟨l, hl⟩ := s.exists_line (Nat.lt_of_le_of_lt hnl hlast.lt_lineCount)
    have hbefore : l.offset ≤ stop - 1 := (hlast.offset_le_iff hl).2 hnl
    refine ⟨l, hl, ?_⟩
    -- The first line holds the first byte of the range, a later one starts inside the range.
    rcases Nat.eq_or_lt_of_le hfn with rfl | hfn
    · exact ⟨start, (isLineOf_iff_of_lt_length hl (by omega)).1 hfirst, Int.le_refl _, hlt⟩
    · have hbehind : start < l.offset :=
        Int.not_le.1 fun hle => Nat.not_le.2 hfn ((hfirst.offset_le_iff hl).1 hle)
      exact ⟨l.offset, (isLineOf_iff_of_lt_length hl (by omega)).1 (isLineOf_offset hl),
        Int.le_of_lt hbehind, by omega⟩
  · rintro ⟨l, hl, o, hbyte, hle, hlt⟩
    have ho : s.IsLineOf o n := (isLineOf_iff_of_lt_length hl (by omega)).2 hbyte
    exact ⟨hfirst.mono hle ho, ho.mono (by omega) hlast⟩

/-- **A range ends in its last line**, at the latest behind the terminator. -/
theorem IsLineOf.stop_bounds (hle : start ≤ stop) (hstop : stop ≤ s.length)
    (hlast : s.IsLineOf (max (stop - 1) start) n) (hl : s.lines[n]? = some l) :
    l.offset ≤ stop ∧ stop ≤ l.stop := by
  rcases Int.lt_or_eq_of_le hle with hlt | rfl
  · rw [Int.max_eq_left (by omega), isLineOf_iff_of_lt_length hl (by omega)] at hlast
    omega
  · rw [Int.max_eq_right (by omega)] at hlast
    exact ⟨hlast.offset_le hl, hlast.le_stop hl hstop⟩

/-- **Ranges and lines.** A range inside a source has a first and a last line. The lines from the
one to the other are those that share a byte with the range; an empty range has the line of its
start only. There are several of them exactly if a line starts behind the start of the range and
before its end. -/
theorem range_touches_lines (s : Source) (start stop : Int)
    (h : 0 ≤ start ∧ start ≤ stop ∧ stop ≤ s.length) :
    ∃ first last, s.lineRange? start stop = .ok (first, last) ∧
      (first ≤ last ∧ last < s.lineCount) ∧
      (start < stop → ∀ n, first ≤ n ∧ n ≤ last ↔
        ∃ l, s.lines[n]? = some l ∧ l.SharesByte start stop) ∧
      (start = stop → ∀ n, first ≤ n ∧ n ≤ last ↔ s.IsLineOf start n) ∧
      (first < last ↔ ∃ x ∈ s.lineStarts, start < (x : Int) ∧ (x : Int) < stop) := by
  obtain ⟨first, last, hrange, hfirst, hlast⟩ := exists_lineRange?_eq h
  refine ⟨first, last, hrange, ⟨hfirst.mono (Int.le_max_right _ _) hlast, hlast.lt_lineCount⟩,
    fun hlt n => ?_, fun heq n => ?_, ?_⟩
  · rw [Int.max_eq_left (by omega)] at hlast
    exact sharesByte_iff h.2.2 hlt hfirst hlast
  · rw [Int.max_eq_right (by omega)] at hlast
    obtain rfl := hfirst.unique hlast
    constructor
    · rintro ⟨hle, hge⟩
      rwa [← Nat.le_antisymm hle hge]
    · intro hn
      rw [hn.unique hfirst]
      exact ⟨Nat.le_refl _, Nat.le_refl _⟩
  · refine (hfirst.lt_iff hlast).trans (exists_congr fun x => and_congr_right fun _ => ?_)
    omega

/-- A range that goes on over a terminator, and the empty range at the end of the source, where an
empty line starts. -/
theorem range_touches_lines_terminator :
    ((0 ≤ (1 : Int) ∧ (1 : Int) ≤ 4 ∧ (4 : Int) ≤ (ofEncodable .anonymous "é\nb\n" rfl).length) ∧
      (1 : Int) < 4 ∧
      ∃ first last, (ofEncodable .anonymous "é\nb\n" rfl).lineRange? 1 4 = .ok (first, last) ∧
        ∀ n, first ≤ n ∧ n ≤ last ↔
          ∃ l, (ofEncodable .anonymous "é\nb\n" rfl).lines[n]? = some l ∧ l.SharesByte 1 4) ∧
    (0 ≤ (5 : Int) ∧ (5 : Int) ≤ 5 ∧ (5 : Int) ≤ (ofEncodable .anonymous "é\nb\n" rfl).length) ∧
      ∃ first last, (ofEncodable .anonymous "é\nb\n" rfl).lineRange? 5 5 = .ok (first, last) ∧
        ∀ n, first ≤ n ∧ n ≤ last ↔ (ofEncodable .anonymous "é\nb\n" rfl).IsLineOf 5 n := by
  have hcross : 0 ≤ (1 : Int) ∧ (1 : Int) ≤ 4 ∧
      (4 : Int) ≤ (ofEncodable .anonymous "é\nb\n" rfl).length := by decide
  have hend : 0 ≤ (5 : Int) ∧ (5 : Int) ≤ 5 ∧
      (5 : Int) ≤ (ofEncodable .anonymous "é\nb\n" rfl).length := by decide
  obtain ⟨first, last, hrange, -, htouched, -⟩ := range_touches_lines _ 1 4 hcross
  obtain ⟨first', last', hrange', -, -, hplace, -⟩ := range_touches_lines _ 5 5 hend
  exact ⟨⟨hcross, by decide, first, last, hrange, htouched (by decide)⟩, hend, first', last',
    hrange', hplace rfl⟩

end Source

end SourceReport
