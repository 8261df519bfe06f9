import SourceReport.Proofs.Source.Boundary
import SourceReport.Proofs.Source.Location

/-!
# The order of places

Offsets, places for people and editor positions are three ways to name a boundary, and each has an
order: by bytes, by line and column in characters, by line and column in UTF-16 units. A boundary
lies in one line, behind a prefix of it (`Source.LiesBehind`). Of two boundaries the later one lies
in a later line or, in the same line, behind a longer prefix, and the three orders only differ in
how they measure prefixes.

Results:
* `Source.LiesBehind.lt`: of two boundaries the later one has the later line or the longer prefix.
* `Source.offsetOf?_mono`: a later position has no smaller offset, also across the end of a line,
  where two positions have one offset.
* `Source.spanOf?_eq`: the span of a range is empty if the range ends before it starts.
* `Source.conversions_keep_order`: the orders agree, and what follows for spans.
-/

namespace SourceReport

/-- The order of places: by line, then by column. -/
def Location.before (a b : Location) : Bool :=
  a.line < b.line ∨ (a.line = b.line ∧ a.column < b.column)

theorem Position.before_eq_false {p q : Position} (h : q.before p = false) :
    p.before q = true ∨ p = q := by
  obtain ⟨m, a⟩ := p
  obtain ⟨n, b⟩ := q
  simp only [before, decide_eq_false_iff_not, decide_eq_true_eq, Position.mk.injEq] at h ⊢
  omega

namespace Source

variable {s : Source} {a b m n : Nat} {k l : Line} {p q : Text}

/-- A line ends at or before the start of every later line. -/
theorem stop_le_offset (hk : s.lines[m]? = some k) (hl : s.lines[n]? = some l) (h : m < n) :
    k.stop ≤ l.offset := by
  have hn := (List.getElem?_eq_some_iff.1 hl).1
  obtain ⟨next, hnext⟩ := s.exists_line (show m + 1 < s.lines.length by omega)
  rw [stop_eq_offset hk hnext]
  rcases Nat.lt_or_eq_of_le (Nat.succ_le_of_lt h) with hlt | rfl
  · exact Nat.le_of_lt (offset_strictMono hnext hl hlt)
  · rw [hnext, Option.some.injEq] at hl
    exact Nat.le_of_eq (congrArg Line.offset hl)

/-- The offset lies in the line with an index, behind a prefix of it and before the next line. -/
def LiesBehind (s : Source) (o n : Nat) (q : Text) : Prop :=
  ∃ l, s.lines[n]? = some l ∧ q <+: l.raw ∧ o = l.offset + q.utf8Length ∧
    ∀ next, s.lines[n + 1]? = some next → o < next.offset

theorem exists_liesBehind (h : s.isBoundary a = true) : ∃ n q, s.LiesBehind a n q := by
  obtain ⟨n, l, q, hl, hq, ha, hlt⟩ := exists_prefix_of_isBoundary h
  exact ⟨n, q, l, hl, hq, ha, hlt⟩

namespace LiesBehind

theorem location? (h : s.LiesBehind a n q) : s.location? a = .ok ⟨n + 1, q.length + 1⟩ := by
  obtain ⟨l, hl, hq, rfl, hlt⟩ := h
  exact location?_of_prefix hl hq hlt

theorem positionOf? (h : s.LiesBehind a n q) : s.positionOf? a = .ok ⟨n, q.units16⟩ := by
  obtain ⟨l, hl, hq, rfl, hlt⟩ := h
  exact positionOf?_of_prefix hl hq hlt

/-- **Of two boundaries** the later one lies in a later line or, in the same line, behind a longer
prefix. -/
theorem lt (ha : s.LiesBehind a m p) (hb : s.LiesBehind b n q) (h : a < b) :
    m < n ∨ m = n ∧ ∃ c more, q = p ++ c :: more := by
  obtain ⟨k, hk, hp, rfl, -⟩ := ha
  obtain ⟨l, hl, hq, rfl, hlt⟩ := hb
  rcases Nat.lt_trichotomy m n with hmn | rfl | hnm
  · exact Or.inl hmn
  · obtain rfl : k = l := Option.some.inj (hk.symm.trans hl)
    obtain ⟨more, rfl⟩ := Text.prefix_of_utf8Length_le hp hq (by omega)
    cases more with
    | nil => rw [List.append_nil] at h; exact absurd h (Nat.lt_irrefl _)
    | cons c more => exact Or.inr ⟨rfl, c, more, rfl⟩
  · -- The line of the later boundary ends before the line of the other one starts.
    obtain ⟨next, hnext⟩ := s.exists_line (n := n + 1)
      (by have := (List.getElem?_eq_some_iff.1 hk).1; omega)
    have := hlt next hnext
    have := stop_eq_offset hl hnext
    have := stop_le_offset hl hk hnm
    omega

end LiesBehind

/-- Later boundaries have later places. -/
theorem location?_strictMono (ha : s.isBoundary a = true) (hb : s.isBoundary b = true)
    (h : a < b) : ∃ x y, s.location? a = .ok x ∧ s.location? b = .ok y ∧ x.before y = true := by
  obtain ⟨m, p, ha⟩ := exists_liesBehind ha
  obtain ⟨n, q, hb⟩ := exists_liesBehind hb
  refine ⟨_, _, ha.location?, hb.location?, ?_⟩
  rw [Location.before, decide_eq_true_iff]
  rcases ha.lt hb h with hmn | ⟨rfl, c, more, rfl⟩
  · exact Or.inl (Nat.succ_lt_succ hmn)
  · refine Or.inr ⟨rfl, Nat.succ_lt_succ ?_⟩
    rw [List.length_append, List.length_cons]
    omega

/-- Later boundaries have later positions. -/
theorem positionOf?_strictMono (ha : s.isBoundary a = true) (hb : s.isBoundary b = true)
    (h : a < b) :
    ∃ x y, s.positionOf? a = .ok x ∧ s.positionOf? b = .ok y ∧ x.before y = true := by
  obtain ⟨m, p, ha⟩ := exists_liesBehind ha
  obtain ⟨n, q, hb⟩ := exists_liesBehind hb
  refine ⟨_, _, ha.positionOf?, hb.positionOf?, ?_⟩
  rw [Position.before, decide_eq_true_iff]
  rcases ha.lt hb h with hmn | ⟨rfl, c, more, rfl⟩
  · exact Or.inl (Int.ofNat_lt.2 hmn)
  · have := c.units16_pos
    refine Or.inr ⟨rfl, Int.ofNat_lt.2 ?_⟩
    rw [Text.units16_append, Text.units16_cons]
    omega

/-! ## From positions to offsets -/

/-- **A later position has no smaller offset**, whether or not it stands in the same line. -/
theorem offsetOf?_mono {x y : Position} (hx : s.offsetOf? x = .ok a) (hy : s.offsetOf? y = .ok b)
    (h : x.before y = true ∨ x = y) : a ≤ b := by
  obtain ⟨m, k, p, hk, hp, rfl, rfl⟩ := offsetOf?_eq_ok_iff.1 hx
  obtain ⟨n, l, q, hl, hq, rfl, rfl⟩ := offsetOf?_eq_ok_iff.1 hy
  have horder : m < n ∨ m = n ∧ p.units16 ≤ q.units16 := by
    simp only [Position.before, decide_eq_true_eq, Position.mk.injEq] at h
    omega
  rcases horder with hmn | ⟨rfl, hunits⟩
  · calc k.offset + p.utf8Length
        ≤ k.stop := Nat.add_le_add_left (Text.utf8Length_mono hp) _
      _ ≤ l.offset := stop_le_offset hk hl hmn
      _ ≤ l.offset + q.utf8Length := Nat.le_add_right _ _
  · obtain rfl : k = l := Option.some.inj (hk.symm.trans hl)
    exact Nat.add_le_add_left
      (Text.utf8Length_mono (Text.prefix_of_units16_le hp hq hunits)) _

theorem le_length_of_offsetOf? {x : Position} (hx : s.offsetOf? x = .ok a) : a ≤ s.length := by
  obtain ⟨m, k, p, hk, hp, rfl, rfl⟩ := offsetOf?_eq_ok_iff.1 hx
  have hboundary := isBoundary_of_prefix hk hp
  exact le_length_of_isBoundary hboundary

/-- **The span of an accepted range** starts at the offset of its start and ends at the offset of
its end, unless that comes first. -/
theorem spanOf?_eq {r : PositionRange} (hmax : s.length ≤ maxOffset)
    (hstart : s.offsetOf? r.start = .ok a) (hstop : s.offsetOf? r.stop = .ok b) :
    ∃ span, s.spanOf? r = .ok span ∧ span.file = s.id ∧ span.start = a ∧
      span.stop = max b a := by
  have ha := Nat.le_trans (le_length_of_offsetOf? hstart) hmax
  have hb := Nat.le_trans (le_length_of_offsetOf? hstop) hmax
  refine ⟨s.id.range a b, ?_, rfl, ?_, ?_⟩
  · simp only [spanOf?, hstart, hstop, bind, Except.bind, pure, Except.pure]
  · exact Nat.min_eq_left ha
  · simp only [SourceId.range, Span.clamp, Span.clampOffset, Int.toNat_natCast, Nat.min_eq_left ha,
      Nat.min_eq_left hb]

/-- **Conversions keep the order.** Of two boundaries the later one has the later place and the
later position, and of two accepted positions the later one has no smaller offset. So in a source
that spans can cover, a range that ends before it starts has the empty span at its start, and every
other one the span between its two offsets. -/
theorem conversions_keep_order (s : Source) :
    (∀ a b : Int, s.isBoundary a = true → s.isBoundary b = true → a < b →
      (∃ x y, s.location? a = .ok x ∧ s.location? b = .ok y ∧ x.before y = true) ∧
      ∃ x y, s.positionOf? a = .ok x ∧ s.positionOf? b = .ok y ∧ x.before y = true) ∧
    (∀ (x y : Position) (a b : Nat), s.offsetOf? x = .ok a → s.offsetOf? y = .ok b →
      x.before y = true ∨ x = y → a ≤ b) ∧
    (s.length ≤ maxOffset → ∀ (r : PositionRange) (a b : Nat), s.offsetOf? r.start = .ok a →
      s.offsetOf? r.stop = .ok b →
        ∃ span, s.spanOf? r = .ok span ∧ span.file = s.id ∧ span.start = a ∧
          (r.stop.before r.start = true → span.stop = a) ∧
          (r.stop.before r.start = false → span.stop = b)) := by
  refine ⟨fun a b ha hb h => ?_, fun x y a b => offsetOf?_mono, fun hmax r a b hstart hstop => ?_⟩
  · obtain ⟨m, rfl⟩ := Int.eq_ofNat_of_zero_le (isBoundary_bounds ha).1
    obtain ⟨n, rfl⟩ := Int.eq_ofNat_of_zero_le (isBoundary_bounds hb).1
    have hmn : m < n := Int.ofNat_lt.1 h
    exact ⟨location?_strictMono ha hb hmn, positionOf?_strictMono ha hb hmn⟩
  · obtain ⟨span, hspan, hfile, hspanStart, hspanStop⟩ := spanOf?_eq hmax hstart hstop
    refine ⟨span, hspan, hfile, hspanStart, fun hbefore => ?_, fun hbefore => ?_⟩
    · rw [hspanStop, Nat.max_eq_right (offsetOf?_mono hstop hstart (Or.inl hbefore))]
    · rw [hspanStop,
        Nat.max_eq_left (offsetOf?_mono hstart hstop (Position.before_eq_false hbefore))]

/-- The start of a line and an offset in it, the two positions at the end of the line before it, and
a range that ends before it starts. -/
theorem conversions_keep_order_lines :
    ((ofEncodable .anonymous "a\n𐐀b" rfl).isBoundary 2 = true ∧
      (ofEncodable .anonymous "a\n𐐀b" rfl).isBoundary 6 = true ∧
      (∃ x y, (ofEncodable .anonymous "a\n𐐀b" rfl).location? 2 = .ok x ∧
        (ofEncodable .anonymous "a\n𐐀b" rfl).location? 6 = .ok y ∧ x.before y = true) ∧
      ∃ x y, (ofEncodable .anonymous "a\n𐐀b" rfl).positionOf? 2 = .ok x ∧
        (ofEncodable .anonymous "a\n𐐀b" rfl).positionOf? 6 = .ok y ∧ x.before y = true) ∧
    ((ofEncodable .anonymous "a\n𐐀b" rfl).offsetOf? ⟨0, 2⟩ = .ok 2 ∧
      (ofEncodable .anonymous "a\n𐐀b" rfl).offsetOf? ⟨1, 0⟩ = .ok 2 ∧
      Position.before ⟨0, 2⟩ ⟨1, 0⟩ = true ∧ 2 ≤ 2) ∧
    (ofEncodable .anonymous "a\n𐐀b" rfl).length ≤ maxOffset ∧
      (ofEncodable .anonymous "a\n𐐀b" rfl).offsetOf? ⟨1, 2⟩ = .ok 6 ∧
      Position.before ⟨0, 2⟩ ⟨1, 2⟩ = true ∧
      ∃ span, (ofEncodable .anonymous "a\n𐐀b" rfl).spanOf? ⟨⟨1, 2⟩, ⟨0, 2⟩⟩ = .ok span ∧
        span.start = 6 ∧ span.stop = 6 := by
  obtain ⟨hboundaries, hpositions, hspans⟩ :=
    conversions_keep_order (ofEncodable .anonymous "a\n𐐀b" rfl)
  have hlength : (ofEncodable .anonymous "a\n𐐀b" rfl).length ≤ maxOffset := by decide
  obtain ⟨span, hspan, -, hstart, hstop, -⟩ := hspans hlength ⟨⟨1, 2⟩, ⟨0, 2⟩⟩ 6 2 rfl rfl
  exact ⟨⟨rfl, rfl, hboundaries 2 6 rfl rfl (by decide)⟩,
    ⟨rfl, rfl, rfl, hpositions ⟨0, 2⟩ ⟨1, 0⟩ 2 2 rfl rfl (Or.inl rfl)⟩, hlength, rfl, rfl, span,
    hspan, hstart, hstop rfl⟩

end Source

end SourceReport
