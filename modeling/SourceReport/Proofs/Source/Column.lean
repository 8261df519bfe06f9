import SourceReport.Proofs.Source.Boundary
import SourceReport.Proofs.Source.Position
import SourceReport.Proofs.Source.Search

/-!
# Lines and columns counted

People count the lines of a source by where they start and the columns of a line by its characters.
`Source.columnIn?` counts columns in a line that is given, up to and including its end, and
`Source.location?` looks for the line first.

Results:
* `Source.countP_lineStarts`: the number of an offset's line is how many lines start behind the
  first one and not behind the offset.
* `Source.columnIn?_eq_ok_iff` and its companions: which columns a line has, and why an offset has
  none.
* `Source.exists_location?_eq`: an offset inside the source gets the column in its line.
* `Source.location_counts`: places and columns over all offsets.
-/

namespace SourceReport

namespace Source

variable {s : Source} {n : Nat} {l : Line} {o : Int} {t : Text}

/-! ## Counting lines -/

/-- A count is known from where in the list it stops. -/
theorem countP_eq_of_getElem {α : Type} {p : α → Bool} {list : List α} {n : Nat}
    (hn : n ≤ list.length) (hbefore : ∀ (i : Nat) (h : i < list.length), i < n → p list[i] = true)
    (hbehind : ∀ (i : Nat) (h : i < list.length), n ≤ i → p list[i] = false) :
    list.countP p = n := by
  have htake : (list.take n).countP p = n := by
    have hlength : (list.take n).length = n := by rw [List.length_take, Nat.min_eq_left hn]
    refine Eq.trans (List.countP_eq_length.2 fun x hx => ?_) hlength
    obtain ⟨i, hi, rfl⟩ := List.mem_iff_getElem.1 hx
    rw [List.getElem_take]
    exact hbefore i _ (by omega)
  have hdrop : (list.drop n).countP p = 0 := by
    refine List.countP_eq_zero.2 fun x hx => ?_
    obtain ⟨i, hi, rfl⟩ := List.mem_iff_getElem.1 hx
    rw [List.getElem_drop, hbehind _ _ (Nat.le_add_right n i)]
    exact Bool.false_ne_true
  rw [← List.take_append_drop n list, List.countP_append, htake, hdrop, Nat.add_zero]

/-- In an ascending table the numbers behind the first one are counted up to a bound. -/
theorem countP_of_ascending {first start : Nat} {rest : List Nat}
    (hascending : (first :: rest).Pairwise (· < ·)) (hstart : (first :: rest)[n]? = some start)
    (hle : (start : Int) ≤ o)
    (hlt : ∀ next : Nat, (first :: rest)[n + 1]? = some next → o < next) :
    (first :: rest).countP (fun start : Nat => first < start ∧ (start : Int) ≤ o) = n := by
  obtain ⟨hn, rfl⟩ := List.getElem?_eq_some_iff.1 hstart
  rw [List.countP_cons_of_neg (by simp)]
  refine countP_eq_of_getElem (Nat.le_of_lt_succ hn) (fun i hi hin => ?_) (fun i hi hni => ?_)
  · have hfirst : first < rest[i] := List.rel_of_pairwise_cons hascending (List.getElem_mem hi)
    have hbefore : rest[i] ≤ (first :: rest)[n] :=
      Bisects.getElem_le hascending (i := i + 1) hn hin
    rw [decide_eq_true_iff]
    exact ⟨hfirst, by omega⟩
  · have hlength : i + 1 < (first :: rest).length := by simpa using hi
    have hbehind : (first :: rest)[n + 1] ≤ rest[i] :=
      Bisects.getElem_le hascending (j := i + 1) hlength (Nat.succ_le_succ hni)
    have := hlt _ (List.getElem?_eq_getElem (by omega))
    rw [decide_eq_false_iff_not]
    omega

/-- **The line of an offset by counting**: how many lines start behind the first one and not behind
the offset. -/
theorem countP_lineStarts (h : s.IsLineOf o n) :
    s.lineStarts.countP (fun start : Nat => 0 < start ∧ (start : Int) ≤ o) = n := by
  obtain ⟨rest, hstarts⟩ := List.head?_eq_some_iff.1 s.starts_at_zero
  have hascending := s.starts_increase
  obtain ⟨start, hstart, hle, hnext⟩ := h
  rw [hstarts] at hascending hstart hnext ⊢
  refine countP_of_ascending hascending hstart hle fun next hsome => ?_
  rcases hnext with hlast | ⟨next', hnext, hlt⟩
  · rw [List.getElem?_eq_none (Nat.le_of_eq hlast.symm)] at hsome
    cases hsome
  · rw [hnext, Option.some.injEq] at hsome
    rwa [← hsome]

/-! ## Columns of a line -/

/-- What stands between the start of a line and an offset that is not behind the line begins the
line. -/
theorem StandsBetween.prefix_raw (h : s.StandsBetween l.offset o t) (hl : s.lines[n]? = some l)
    (hle : o ≤ l.stop) : t <+: l.raw := by
  obtain ⟨hraw, -, hoffset⟩ := (s.lines_getElem?_eq n l).1 hl
  obtain ⟨after, hafter⟩ := Text.exists_eq_beforeLine_append hraw
  obtain ⟨before, hprefix, hstart, hstop⟩ := h
  have hthrough : s.content.beforeLine n ++ l.raw <+: s.content := ⟨after, hafter.symm⟩
  obtain rfl : before = s.content.beforeLine n :=
    Text.eq_of_utf8Length_eq ((List.prefix_append before t).trans hprefix)
      ((List.prefix_append _ l.raw).trans hthrough) (by omega)
  refine (List.prefix_append_right_inj _).1 (Text.prefix_of_utf8Length_le hprefix hthrough ?_)
  rw [Text.utf8Length_append _ l.raw, ← hoffset]
  exact Int.ofNat_le.1 (hstop ▸ hle)

/-- The cases that are told apart when a column is counted in a line that exists. -/
theorem columnIn?_eq (hl : s.lines[n]? = some l) (o : Int) :
    s.columnIn? n o =
      if o < l.offset ∨ (l.stop : Int) < o then
        .error (LookupError.columnTooLarge (o - l.offset) l.length).built
      else if s.isBoundary o then .ok (l.raw.takeBytes (o - l.offset).toNat).length
      else .error (LookupError.insideCharacter o).built := by
  have hline : s.line? (n : Int) = .ok l := line?_eq_ok_iff.2 ⟨n, rfl, hl⟩
  simp only [columnIn?, hline, bind, Except.bind]

/-- **The column of a boundary** is the number of characters between it and the start of the line.
The end of the line has one as well. -/
theorem columnIn?_of_standsBetween (hl : s.lines[n]? = some l) (h : s.StandsBetween l.offset o t)
    (hle : o ≤ l.stop) : s.columnIn? n o = .ok t.length := by
  have hprefix := h.prefix_raw hl hle
  have hbytes : (o - l.offset).toNat = t.utf8Length ∧ (l.offset : Int) ≤ o := by
    obtain ⟨before, -, hstart, hstop⟩ := h
    rw [Text.utf8Length_append] at hstop
    omega
  rw [columnIn?_eq hl, if_neg (by omega), if_pos h.isBoundary_stop, hbytes.1,
    Text.takeBytes_of_prefix hprefix]

/-- A column is counted up to a boundary between the ends of the line. -/
theorem bounds_of_columnIn? (hl : s.lines[n]? = some l) {column : Nat}
    (h : s.columnIn? n o = .ok column) :
    (l.offset ≤ o ∧ o ≤ l.stop) ∧ s.isBoundary o = true := by
  rw [columnIn?_eq hl] at h
  split at h
  · cases h
  · split at h
    · next hin hboundary => exact ⟨by omega, hboundary⟩
    · cases h

theorem exists_columnIn?_iff (hl : s.lines[n]? = some l) :
    (∃ column, s.columnIn? n o = .ok column) ↔
      (l.offset ≤ o ∧ o ≤ l.stop) ∧ s.isBoundary o = true := by
  constructor
  · rintro ⟨column, h⟩
    exact bounds_of_columnIn? hl h
  · rintro ⟨⟨hge, hle⟩, hboundary⟩
    obtain ⟨t, ht⟩ := exists_standsBetween (isBoundary_offset hl) hboundary hge
    exact ⟨t.length, columnIn?_of_standsBetween hl ht hle⟩

theorem exists_standsBetween_of_columnIn? (hl : s.lines[n]? = some l) {column : Nat}
    (h : s.columnIn? n o = .ok column) :
    ∃ t, s.StandsBetween l.offset o t ∧ column = t.length := by
  obtain ⟨⟨hge, hle⟩, hboundary⟩ := bounds_of_columnIn? hl h
  obtain ⟨t, ht⟩ := exists_standsBetween (isBoundary_offset hl) hboundary hge
  rw [columnIn?_of_standsBetween hl ht hle, Except.ok.injEq] at h
  exact ⟨t, ht, h.symm⟩

/-- **What becomes of an offset in a line**: it is refused outside the line, it is refused inside a
character, and else it has a column. -/
theorem columnIn?_cases (hl : s.lines[n]? = some l) (o : Int) :
    ((o < l.offset ∨ (l.stop : Int) < o) ∧ ¬ (l.offset ≤ o ∧ o ≤ l.stop) ∧
      s.columnIn? n o = .error (LookupError.columnTooLarge (o - l.offset) l.length).built) ∨
    (¬ (o < l.offset ∨ (l.stop : Int) < o) ∧ (l.offset ≤ o ∧ o ≤ l.stop) ∧
      s.isBoundary o = false ∧
      s.columnIn? n o = .error (LookupError.insideCharacter o).built) ∨
    (¬ (o < l.offset ∨ (l.stop : Int) < o) ∧ s.isBoundary o = true ∧
      ∃ column, s.columnIn? n o = .ok column) := by
  rw [columnIn?_eq hl]
  by_cases hout : o < l.offset ∨ (l.stop : Int) < o
  · exact Or.inl ⟨hout, by omega, if_pos hout⟩
  · have hin : l.offset ≤ o ∧ o ≤ l.stop := by omega
    rw [if_neg hout]
    cases hboundary : s.isBoundary o with
    | false => exact Or.inr (Or.inl ⟨hout, hin, rfl, if_neg Bool.false_ne_true⟩)
    | true => exact Or.inr (Or.inr ⟨hout, rfl, _, if_pos rfl⟩)

theorem columnIn?_eq_columnTooLarge_iff (hl : s.lines[n]? = some l) :
    s.columnIn? n o = .error (.columnTooLarge (o - l.offset) l.length) ↔
      (o < l.offset ∨ (l.stop : Int) < o) ∧
        Text.isWritable (o - l.offset) = true ∧ Text.isWritable l.length = true := by
  rcases columnIn?_cases hl o with ⟨hout, -, h⟩ | ⟨hin, -, -, h⟩ | ⟨hin, -, column, h⟩
  · simp [h, hout, LookupError.IsWritable]
  · simp [h, hin]
  · simp [h, hin]

theorem columnIn?_eq_insideCharacter_iff (hl : s.lines[n]? = some l) :
    s.columnIn? n o = .error (.insideCharacter o) ↔
      ((l.offset ≤ o ∧ o ≤ l.stop) ∧ s.isBoundary o = false) ∧ Text.isWritable o = true := by
  rcases columnIn?_cases hl o with ⟨-, hout, h⟩ | ⟨-, hin, hb, h⟩ | ⟨-, hb, column, h⟩
  · simp [h, hout]
  · simp [h, hin, hb, LookupError.IsWritable]
  · simp [h, hb]

theorem columnIn?_eq_digits_iff (hl : s.lines[n]? = some l) :
    s.columnIn? n o = .error (.digits .writing) ↔
      ((o < l.offset ∨ (l.stop : Int) < o) ∧
        ¬ (Text.isWritable (o - l.offset) = true ∧ Text.isWritable l.length = true)) ∨
      ((l.offset ≤ o ∧ o ≤ l.stop) ∧ s.isBoundary o = false) ∧ Text.isWritable o = false := by
  rcases columnIn?_cases hl o with ⟨hout, hnot, h⟩ | ⟨hnot, hin, hb, h⟩ | ⟨hnot, hb, column, h⟩
  · simp [h, hout, hnot, LookupError.IsWritable]
  · simp [h, hnot, hin, hb, LookupError.IsWritable]
  · simp [h, hnot, hb]

/-! ## Places -/

/-- An offset inside the source is not behind the end of its line. -/
theorem IsLineOf.le_stop (h : s.IsLineOf o n) (hl : s.lines[n]? = some l) (ho : o ≤ s.length) :
    o ≤ l.stop := by
  obtain ⟨-, -, -, hlast | ⟨next, hnext, hlt⟩⟩ := h
  · have hlength : s.lines.length = n + 1 := by rw [hlast, lineStarts, List.length_map]
    rwa [stop_eq_length hl (List.getElem?_eq_none (Nat.le_of_eq hlength))]
  · rw [lineStarts_getElem?] at hnext
    obtain ⟨line, hline, rfl⟩ := Option.map_eq_some_iff.1 hnext
    rw [stop_eq_offset hl hline]
    exact Int.le_of_lt hlt

/-- **An offset inside the source** gets the column in its line, which it does not leave. -/
theorem exists_location?_eq (h : 0 ≤ o ∧ o ≤ s.length) :
    ∃ n l, s.lines[n]? = some l ∧ s.IsLineOf o n ∧ (l.offset ≤ o ∧ o ≤ l.stop) ∧
      s.location? o = (s.columnIn? n o).map fun column => ⟨n + 1, column + 1⟩ := by
  obtain ⟨n, l, hline, rfl, hl, hof⟩ := s.exists_lineOf?_eq h
  refine ⟨_, _, hl, hof, ⟨hof.offset_le hl, hof.le_stop hl h.2⟩, ?_⟩
  simp only [location?, hline, bind, Except.bind, pure, Except.pure]
  cases s.columnIn? l.index o <;> rfl

/-- **What becomes of an offset**: it is refused outside the source, it is refused inside a
character, and else it has a place. No two of these can be. -/
theorem location?_cases (s : Source) (o : Int) :
    ((o < 0 ∨ (s.length : Int) < o) ∧ ¬ s.LiesInside o ∧ s.isBoundary o = false ∧
      s.location? o = .error (LookupError.indexTooLarge o s.length).built) ∨
    (¬ (o < 0 ∨ (s.length : Int) < o) ∧ s.LiesInside o ∧ s.isBoundary o = false ∧
      s.location? o = .error (LookupError.insideCharacter o).built) ∨
    (¬ (o < 0 ∨ (s.length : Int) < o) ∧ ¬ s.LiesInside o ∧ s.isBoundary o = true ∧
      ∃ place, s.location? o = .ok place) := by
  by_cases hin : 0 ≤ o ∧ o ≤ s.length
  · have hnot : ¬ (o < 0 ∨ (s.length : Int) < o) := by omega
    obtain ⟨n, l, hl, -, hbounds, hlocation⟩ := s.exists_location?_eq hin
    rw [hlocation]
    rcases columnIn?_cases hl o with ⟨hout, -⟩ | ⟨-, -, hboundary, h⟩ | ⟨-, hboundary, column, h⟩
    · omega
    · exact Or.inr (Or.inl ⟨hnot, liesInside_iff.2 ⟨hin, hboundary⟩, hboundary, by rw [h]; rfl⟩)
    · have hclear : ¬ s.LiesInside o := fun hinside => by
        rw [hinside.isBoundary_eq_false] at hboundary
        cases hboundary
      exact Or.inr (Or.inr ⟨hnot, hclear, hboundary, _, by rw [h]; rfl⟩)
  · have hat : s.lineAt? o = none := if_neg hin
    refine Or.inl ⟨by omega, fun hinside => hin hinside.bounds,
      Bool.eq_false_iff.2 fun hboundary => hin (isBoundary_bounds hboundary), ?_⟩
    simp only [location?, lineOf?, hat, bind, Except.bind]

/-- A boundary has a place, and no other offset has one. -/
theorem exists_location?_iff : (∃ place, s.location? o = .ok place) ↔ s.isBoundary o = true := by
  rcases s.location?_cases o with ⟨-, -, hb, h⟩ | ⟨-, -, hb, h⟩ | ⟨-, -, hb, place, h⟩
  · simp [h, hb]
  · simp [h, hb]
  · simp [h, hb]

theorem location?_eq_indexTooLarge_iff :
    s.location? o = .error (.indexTooLarge o s.length) ↔
      (o < 0 ∨ (s.length : Int) < o) ∧
        Text.isWritable o = true ∧ Text.isWritable s.length = true := by
  rcases s.location?_cases o with ⟨hout, -, -, h⟩ | ⟨hin, -, -, h⟩ | ⟨hin, -, -, place, h⟩
  · simp [h, hout, LookupError.IsWritable]
  · simp [h, hin]
  · simp [h, hin]

theorem location?_eq_insideCharacter_iff :
    s.location? o = .error (.insideCharacter o) ↔
      s.LiesInside o ∧ Text.isWritable o = true := by
  rcases s.location?_cases o with ⟨-, hclear, -, h⟩ | ⟨-, hinside, -, h⟩ | ⟨-, hclear, -, place, h⟩
  · simp [h, hclear]
  · simp [h, hinside, LookupError.IsWritable]
  · simp [h, hclear]

theorem location?_eq_digits_iff :
    s.location? o = .error (.digits .writing) ↔
      ((o < 0 ∨ (s.length : Int) < o) ∧
        ¬ (Text.isWritable o = true ∧ Text.isWritable s.length = true)) ∨
      s.LiesInside o ∧ Text.isWritable o = false := by
  rcases s.location?_cases o with ⟨hout, hclear, -, h⟩ | ⟨hin, hinside, -, h⟩ |
    ⟨hin, hclear, -, place, h⟩
  · simp [h, hout, hclear, LookupError.IsWritable]
  · simp [h, hin, hinside, LookupError.IsWritable]
  · simp [h, hin, hclear]

/-- **A place** is made of the line of its offset and the characters in front of it. -/
theorem exists_standsBetween_of_location? {place : Location} (h : s.location? o = .ok place) :
    ∃ n l t, s.lines[n]? = some l ∧ s.IsLineOf o n ∧ s.StandsBetween l.offset o t ∧
      place = ⟨n + 1, t.length + 1⟩ := by
  have hin := isBoundary_bounds (exists_location?_iff.1 ⟨place, h⟩)
  obtain ⟨n, l, hl, hof, -, hlocation⟩ := s.exists_location?_eq hin
  rw [hlocation] at h
  cases hcolumn : s.columnIn? n o with
  | error e =>
    rw [hcolumn] at h
    cases h
  | ok column =>
    obtain ⟨t, ht, rfl⟩ := exists_standsBetween_of_columnIn? hl hcolumn
    rw [hcolumn] at h
    cases h
    exact ⟨n, l, t, hl, hof, ht, rfl⟩

/-- **Places and columns.** Exactly the boundaries have a place. Its line is one more than the lines
that start behind the first one and not behind the offset, its column one more than the characters
between the start of that line and the offset; offsets outside the source and inside a character are
refused, each for its own cause. In a line that is given, exactly the boundaries from its start to
its end have a column, which is the number of characters in front of them; offsets outside the line
and inside a character are refused likewise. Where an error would have to name a number of too many
digits, this is the cause. -/
theorem location_counts (s : Source) :
    (∀ o : Int, (∃ place, s.location? o = .ok place) ↔ s.isBoundary o = true) ∧
    (∀ (o : Int) (place : Location), s.location? o = .ok place →
      place.line = 1 + s.lineStarts.countP (fun start : Nat => 0 < start ∧ (start : Int) ≤ o) ∧
      ∃ (start : Nat) (t : Text), s.lineStarts[place.line - 1]? = some start ∧
        s.StandsBetween start o t ∧ s.read? start o = .ok t ∧ place.column = 1 + t.length) ∧
    (∀ o : Int, s.location? o = .error (.indexTooLarge o s.length) ↔
      (o < 0 ∨ (s.length : Int) < o) ∧
        Text.isWritable o = true ∧ Text.isWritable s.length = true) ∧
    (∀ o : Int, s.location? o = .error (.insideCharacter o) ↔
      s.LiesInside o ∧ Text.isWritable o = true) ∧
    (∀ o : Int, s.location? o = .error (.digits .writing) ↔
      ((o < 0 ∨ (s.length : Int) < o) ∧
        ¬ (Text.isWritable o = true ∧ Text.isWritable s.length = true)) ∨
      s.LiesInside o ∧ Text.isWritable o = false) ∧
    ∀ (n : Nat) (l : Line), s.lines[n]? = some l → ∀ o : Int,
      ((∃ column, s.columnIn? n o = .ok column) ↔
        (l.offset ≤ o ∧ o ≤ l.stop) ∧ s.isBoundary o = true) ∧
      (∀ column, s.columnIn? n o = .ok column →
        ∃ t, s.StandsBetween l.offset o t ∧ s.read? l.offset o = .ok t ∧ column = t.length) ∧
      (s.columnIn? n o = .error (.columnTooLarge (o - l.offset) l.length) ↔
        (o < l.offset ∨ (l.stop : Int) < o) ∧
          Text.isWritable (o - l.offset) = true ∧ Text.isWritable l.length = true) ∧
      (s.columnIn? n o = .error (.insideCharacter o) ↔
        ((l.offset ≤ o ∧ o ≤ l.stop) ∧ s.isBoundary o = false) ∧ Text.isWritable o = true) ∧
      (s.columnIn? n o = .error (.digits .writing) ↔
        ((o < l.offset ∨ (l.stop : Int) < o) ∧
          ¬ (Text.isWritable (o - l.offset) = true ∧ Text.isWritable l.length = true)) ∨
        ((l.offset ≤ o ∧ o ≤ l.stop) ∧ s.isBoundary o = false) ∧ Text.isWritable o = false) := by
  refine ⟨fun o => exists_location?_iff, fun o place h => ?_,
    fun o => location?_eq_indexTooLarge_iff, fun o => location?_eq_insideCharacter_iff,
    fun o => location?_eq_digits_iff,
    fun n l hl o => ⟨exists_columnIn?_iff hl, fun column h => ?_,
      columnIn?_eq_columnTooLarge_iff hl, columnIn?_eq_insideCharacter_iff hl,
      columnIn?_eq_digits_iff hl⟩⟩
  · obtain ⟨n, l, t, hl, hof, ht, rfl⟩ := exists_standsBetween_of_location? h
    refine ⟨by rw [countP_lineStarts hof, Nat.add_comm], l.offset, t, ?_, ht, ht.read?,
      Nat.add_comm _ _⟩
    rw [lineStarts_getElem?, Nat.add_sub_cancel, hl, Option.map_some]
  · obtain ⟨t, ht, hcolumn⟩ := exists_standsBetween_of_columnIn? hl h
    exact ⟨t, ht, ht.read?, hcolumn⟩

/-- The end of a source of two lines, and the end of its first line, which starts the second one. -/
theorem location_counts_pair :
    ((ofEncodable .anonymous "é\r\n𐐀" rfl).location? 8 = .ok ⟨2, 2⟩ ∧
      2 = 1 + (ofEncodable .anonymous "é\r\n𐐀" rfl).lineStarts.countP
        (fun start : Nat => 0 < start ∧ (start : Int) ≤ 8) ∧
      ∃ (start : Nat) (t : Text),
        (ofEncodable .anonymous "é\r\n𐐀" rfl).lineStarts[2 - 1]? = some start ∧
        (ofEncodable .anonymous "é\r\n𐐀" rfl).StandsBetween start 8 t ∧
        (ofEncodable .anonymous "é\r\n𐐀" rfl).read? start 8 = .ok t ∧ 2 = 1 + t.length) ∧
    (ofEncodable .anonymous "é\r\n𐐀" rfl).lines[0]? = some ⟨0, 0, "é\r\n"⟩ ∧
      (ofEncodable .anonymous "é\r\n𐐀" rfl).columnIn? 0 4 = .ok 3 ∧
      ∃ t, (ofEncodable .anonymous "é\r\n𐐀" rfl).StandsBetween 0 4 t ∧
        (ofEncodable .anonymous "é\r\n𐐀" rfl).read? 0 4 = .ok t ∧ 3 = t.length := by
  obtain ⟨-, hplace, -, -, -, hcolumn⟩ := location_counts (ofEncodable .anonymous "é\r\n𐐀" rfl)
  exact ⟨⟨rfl, hplace 8 ⟨2, 2⟩ rfl⟩, rfl, rfl, (hcolumn 0 ⟨0, 0, "é\r\n"⟩ rfl 4).2.1 3 rfl⟩

/-- **Not every offset outside a line** is refused for that. Before the second line of a source the
offset has `digitLimit` digits, and its distance from the start of the line one more. -/
theorem not_refused_outside_line : ¬ ∀ (s : Source) (n : Nat) (l : Line), s.lines[n]? = some l →
    ∀ o : Int, s.columnIn? n o = .error (.columnTooLarge (o - l.offset) l.length) ↔
      o < l.offset ∨ (l.stop : Int) < o := by
  intro h
  let s := ofEncodable .anonymous "\n" rfl
  let l : Line := ⟨1, 1, []⟩
  let o : Int := 1 - (10 ^ digitLimit : Nat)
  have hl : s.lines[1]? = some l := rfl
  have hpos : 0 < 10 ^ digitLimit := Nat.pow_pos (by decide)
  have hbefore : o < l.offset := by
    show 1 - ((10 ^ digitLimit : Nat) : Int) < 1
    omega
  have hgiven : o - l.offset = -((10 ^ digitLimit : Nat) : Int) := by
    show 1 - ((10 ^ digitLimit : Nat) : Int) - 1 = _
    omega
  have hwritable := ((columnIn?_eq_columnTooLarge_iff hl).1 ((h s 1 l hl o).2 (Or.inl hbefore))).2.1
  rw [hgiven, Text.isWritable_neg, Text.isWritable_pow_digitLimit] at hwritable
  cases hwritable

end Source

end SourceReport
