import SourceReport.Proofs.Source.Lookup
import SourceReport.Proofs.Source.Refusal

/-!
# Searching the line of an offset

The lines of a source start at ascending offsets. So the line of an offset can be searched by
halving the table of starts: the search counts the starts that are not behind the offset, and the
last of them starts the line.

* `bisect` is the search in any table of numbers, `Bisects` what holds of the two ends between which
  it goes on.
* `Source.findLine?` looks up the line of an offset with it, its index, and the bytes of the line
  before the offset.
* `Source.IsLineOf` says which line an offset belongs to.

Results:
* `Bisects.bisect`: in an ascending table the search ends between the numbers that are not larger
  and those that are.
* `Source.findLine?_eq`: the search finds the line that scanning the lines from the last one finds.
* `Source.offset_belongs_to_line`: offsets inside a source belong to one line, which is found, and
  all others are refused.
-/

namespace SourceReport

/-! ## Halving -/

/-- Searches between two ends where the numbers of an ascending table become larger than a given
one. -/
def bisect (table : List Nat) (given : Int) (low high : Nat) (h : high ≤ table.length) : Nat :=
  if hlt : low < high then
    have hmiddle : (low + high) / 2 < table.length := by omega
    if given < table[(low + high) / 2] then
      bisect table given low ((low + high) / 2) (Nat.le_of_lt hmiddle)
    else bisect table given ((low + high) / 2 + 1) high h
  else low
termination_by high - low

/-- The numbers in front of one end are not larger than the given one, those from the other end on
are. -/
structure Bisects (table : List Nat) (given : Int) (low high : Nat) : Prop where
  ordered : low ≤ high
  inside : high ≤ table.length
  before : ∀ (i : Nat) (h : i < table.length), i < low → (table[i] : Int) ≤ given
  behind : ∀ (i : Nat) (h : i < table.length), high ≤ i → given < table[i]

namespace Bisects

variable {table : List Nat} {given : Int} {low high middle : Nat}

theorem whole (table : List Nat) (given : Int) : Bisects table given 0 table.length where
  ordered := Nat.zero_le _
  inside := Nat.le_refl _
  before _ _ hi := absurd hi (Nat.not_lt_zero _)
  behind _ h hi := absurd h (Nat.not_lt_of_le hi)

variable (htable : table.Pairwise (· < ·))

include htable

theorem getElem_le {i j : Nat} (hj : j < table.length) (hij : i ≤ j) : table[i] ≤ table[j] := by
  rcases Nat.lt_or_eq_of_le hij with h | rfl
  · exact Nat.le_of_lt (List.pairwise_iff_getElem.1 htable i j (by omega) hj h)
  · exact Nat.le_refl _

/-- The number in the middle is larger, so the numbers behind it are. -/
theorem left (h : Bisects table given low high) (hlow : low ≤ middle)
    (hmiddle : middle < table.length) (hlt : given < table[middle]) :
    Bisects table given low middle where
  ordered := hlow
  inside := Nat.le_of_lt hmiddle
  before := h.before
  behind i hi hle := by
    have := getElem_le htable hi hle
    omega

/-- The number in the middle is not larger, and the numbers in front of it are not. -/
theorem right (h : Bisects table given low high) (hhigh : middle < high)
    (hmiddle : middle < table.length) (hle : (table[middle] : Int) ≤ given) :
    Bisects table given (middle + 1) high where
  ordered := hhigh
  inside := h.inside
  before i hi hlt := by
    have := getElem_le htable hmiddle (Nat.le_of_lt_succ hlt)
    omega
  behind := h.behind

end Bisects

/-- **The search ends** where the numbers become larger. -/
theorem bisects_bisect {table : List Nat} {given : Int} {low high : Nat}
    (htable : table.Pairwise (· < ·)) (h : Bisects table given low high) :
    Bisects table given (bisect table given low high h.inside)
      (bisect table given low high h.inside) := by
  have hend : ∀ inside, Bisects table given (bisect table given low high inside)
      (bisect table given low high inside) := by
    intro inside
    fun_induction bisect table given low high inside with
    | case1 low high inside hlt hmiddle hgiven ih =>
      exact ih (h.left htable (by omega) hmiddle hgiven)
    | case2 low high inside hlt hmiddle hgiven ih =>
      exact ih (h.right htable (by omega) hmiddle (Int.not_lt.1 hgiven))
    | case3 low high inside hlt =>
      obtain rfl : low = high := by have := h.ordered; omega
      exact h
  exact hend h.inside

namespace Source

/-- The line of an offset, its index, and the number of bytes between its start and the offset. The
index is searched by halving. -/
def findLine? (s : Source) (offset : Int) : Option (Line × Nat × Int) :=
  if offset < 0 ∨ (s.length : Int) < offset then none
  else
    let index := bisect s.lineStarts offset 0 s.lineStarts.length (Nat.le_refl _) - 1
    s.lines[index]?.map fun line => (line, index, offset - line.offset)

/-- The line starts at or before the offset, and the next one, if there is one, behind it. -/
def IsLineOf (s : Source) (offset : Int) (index : Nat) : Prop :=
  ∃ start, s.lineStarts[index]? = some start ∧ (start : Int) ≤ offset ∧
    (index + 1 = s.lineStarts.length ∨
      ∃ next, s.lineStarts[index + 1]? = some next ∧ offset < next)

variable {s : Source} {offset : Int} {index : Nat} {line : Line}

theorem lineStarts_getElem? (s : Source) (index : Nat) :
    s.lineStarts[index]? = s.lines[index]?.map (·.offset) :=
  List.getElem?_map

/-- A line that is not later ends before the start of the next one, so lines come in the order of
their offsets. -/
theorem IsLineOf.mono {a b : Int} {m n : Nat} (hab : a ≤ b) (ha : s.IsLineOf a m)
    (hb : s.IsLineOf b n) : m ≤ n := by
  obtain ⟨start, hstart, hle, -⟩ := ha
  obtain ⟨-, -, -, hnext⟩ := hb
  obtain ⟨hm, rfl⟩ := List.getElem?_eq_some_iff.1 hstart
  rcases hnext with hlast | ⟨next, hnext, hlt⟩
  · omega
  · obtain ⟨hn, rfl⟩ := List.getElem?_eq_some_iff.1 hnext
    refine Nat.le_of_not_lt fun hnm => ?_
    have := Bisects.getElem_le s.starts_increase hm (show n + 1 ≤ m from hnm)
    omega

/-- An offset belongs to one line only. -/
theorem IsLineOf.unique {i j : Nat} (hi : s.IsLineOf offset i) (hj : s.IsLineOf offset j) :
    i = j :=
  Nat.le_antisymm (hi.mono (Int.le_refl _) hj) (hj.mono (Int.le_refl _) hi)

/-- **An offset that is not negative** belongs to the last line whose start the search counts. -/
theorem isLineOf_bisect (h : 0 ≤ offset) :
    s.IsLineOf offset
      (bisect s.lineStarts offset 0 s.lineStarts.length (Nat.le_refl _) - 1) := by
  have hends := bisects_bisect s.starts_increase (Bisects.whole s.lineStarts offset)
  generalize bisect s.lineStarts offset 0 s.lineStarts.length (Nat.le_refl _) = count at hends ⊢
  obtain ⟨rest, hstarts⟩ := List.head?_eq_some_iff.1 s.starts_at_zero
  have hlength : 0 < s.lineStarts.length := by
    rw [hstarts]
    exact Nat.succ_pos _
  -- The first line starts at zero, so at least one start is counted.
  have hpos : 0 < count := by
    refine Nat.pos_of_ne_zero fun hzero => ?_
    have hlt := hends.behind 0 hlength (Nat.le_of_eq hzero)
    simp only [hstarts, List.getElem_cons_zero] at hlt
    omega
  have hcount := hends.inside
  have hlast : count - 1 < s.lineStarts.length := by omega
  refine ⟨_, List.getElem?_eq_getElem hlast, hends.before _ hlast (by omega), ?_⟩
  rcases Nat.lt_or_eq_of_le hcount with hlt | heq
  · have hnext : count - 1 + 1 < s.lineStarts.length := by omega
    exact Or.inr ⟨_, List.getElem?_eq_getElem hnext, hends.behind _ hnext (by omega)⟩
  · exact Or.inl (by omega)

theorem findLine?_eq_none_iff :
    s.findLine? offset = none ↔ offset < 0 ∨ (s.length : Int) < offset := by
  unfold findLine?
  split
  · next h => exact iff_of_true rfl h
  · next h =>
    refine iff_of_false ?_ h
    have hnonneg : 0 ≤ offset := by omega
    obtain ⟨start, hstart, -⟩ := s.isLineOf_bisect hnonneg
    rw [lineStarts_getElem?] at hstart
    obtain ⟨line, hline, -⟩ := Option.map_eq_some_iff.1 hstart
    simp [hline]

/-- **What the search finds** is the line to which the offset belongs. -/
theorem findLine?_eq_some_iff {column : Int} :
    s.findLine? offset = some (line, index, column) ↔
      (0 ≤ offset ∧ offset ≤ s.length) ∧ s.IsLineOf offset index ∧ s.lines[index]? = some line ∧
        column = offset - line.offset := by
  unfold findLine?
  split
  · next h =>
    constructor
    · intro hnone
      cases hnone
    · rintro ⟨hin, -⟩
      omega
  · next h =>
    have hnonneg : 0 ≤ offset := by omega
    have hfound := s.isLineOf_bisect hnonneg
    rw [Option.map_eq_some_iff]
    constructor
    · rintro ⟨found, hline, heq⟩
      cases heq
      exact ⟨by omega, hfound, hline, rfl⟩
    · rintro ⟨-, hindex, hline, rfl⟩
      rw [hfound.unique hindex]
      exact ⟨line, hline, rfl⟩

theorem exists_isLineOf (h : 0 ≤ offset) : ∃ index, s.IsLineOf offset index :=
  ⟨_, isLineOf_bisect h⟩

/-- An offset at or behind the start of a line, and in front of the next one, belongs to it. -/
theorem isLineOf_of_lt_next (hline : s.lines[index]? = some line) (hle : line.offset ≤ offset)
    (hlt : ∀ next, s.lines[index + 1]? = some next → offset < next.offset) :
    s.IsLineOf offset index := by
  refine ⟨line.offset, by rw [lineStarts_getElem?, hline, Option.map_some], hle, ?_⟩
  cases hafter : s.lines[index + 1]? with
  | none =>
    refine Or.inl ?_
    have := (List.getElem?_eq_some_iff.1 hline).1
    have := List.getElem?_eq_none_iff.1 hafter
    rw [lineStarts, List.length_map]
    omega
  | some next =>
    exact Or.inr ⟨next.offset, by rw [lineStarts_getElem?, hafter, Option.map_some],
      hlt next hafter⟩

/-- **The search finds the line** that scanning the lines from the last one finds. -/
theorem findLine?_eq (s : Source) (offset : Int) :
    s.findLine? offset =
      (s.lineAt? offset).map fun line => (line, line.index, offset - line.offset) := by
  unfold lineAt?
  split
  · next h =>
    obtain ⟨n, line, hline, hfrom, hle, hnext⟩ := s.exists_lineFrom offset.toNat
    rw [Option.map_some, findLine?_eq_some_iff, hfrom, ((s.lines_getElem?_eq n line).1 hline).2.1]
    refine ⟨h, isLineOf_of_lt_next hline (by omega) fun next hafter => ?_, hline, rfl⟩
    have := hnext next hafter
    omega
  · next h => exact findLine?_eq_none_iff.2 (by omega)

theorem IsLineOf.offset_le (h : s.IsLineOf offset index) (hline : s.lines[index]? = some line) :
    line.offset ≤ offset := by
  obtain ⟨start, hstart, hle, -⟩ := h
  rw [lineStarts_getElem?, hline, Option.map_some, Option.some.injEq] at hstart
  rwa [hstart]

/-- **An offset inside the source** has its line. -/
theorem exists_lineOf?_eq (h : 0 ≤ offset ∧ offset ≤ s.length) :
    ∃ n l, s.lineOf? offset = .ok l ∧ l.index = n ∧ s.lines[n]? = some l ∧
      s.IsLineOf offset n := by
  have hat : s.lineAt? offset = some (s.lineFrom offset.toNat) := if_pos h
  have hfound := s.findLine?_eq offset
  rw [hat, Option.map_some] at hfound
  obtain ⟨-, hof, hl, -⟩ := findLine?_eq_some_iff.1 hfound
  exact ⟨_, _, by rw [lineOf?, hat], rfl, hl, hof⟩

/-- **An offset outside the source** is refused, as one that is too large if the error can name it
and the length of the source. -/
theorem lineOf?_eq_error (h : s.lineAt? offset = none) :
    s.lineOf? offset = .error
      (if Text.isWritable offset = true ∧ Text.isWritable s.length = true then
        .indexTooLarge offset s.length
      else .digits .writing) := by
  rw [lineOf?, h]
  refine congrArg Except.error ?_
  by_cases hnumbers : Text.isWritable offset = true ∧ Text.isWritable s.length = true
  · rw [if_pos hnumbers]
    exact LookupError.built_of_isWritable hnumbers
  · rw [if_neg hnumbers]
    exact LookupError.built_of_not_isWritable hnumbers

/-- **Offsets and lines.** An offset inside the source belongs to one line: the search finds this
line, its index, and the bytes of the line before the offset. All other offsets are refused with the
length of the source, unless one of the two numbers has too many digits to be named. -/
theorem offset_belongs_to_line (s : Source) (offset : Int) :
    (s.findLine? offset = none ↔ offset < 0 ∨ (s.length : Int) < offset) ∧
    (∀ line index column, s.findLine? offset = some (line, index, column) ↔
      (0 ≤ offset ∧ offset ≤ s.length) ∧ s.IsLineOf offset index ∧ s.lines[index]? = some line ∧
        ∃ start, s.lineStarts[index]? = some start ∧ column = offset - start) ∧
    (0 ≤ offset ∧ offset ≤ s.length →
      ∃ index, s.IsLineOf offset index ∧ ∀ other, s.IsLineOf offset other → other = index) ∧
    s.lineAt? offset = (s.findLine? offset).map (·.1) ∧
    (s.lineOf? offset).map (·.index) =
      match s.findLine? offset with
      | some (_, index, _) => .ok index
      | none => .error
        (if Text.isWritable offset = true ∧ Text.isWritable s.length = true then
          .indexTooLarge offset s.length
        else .digits .writing) := by
  refine ⟨findLine?_eq_none_iff, fun line index column => ?_, fun h => ?_, ?_, ?_⟩
  · rw [findLine?_eq_some_iff]
    refine and_congr_right fun _ => and_congr_right fun _ => and_congr_right fun hline => ?_
    rw [lineStarts_getElem?, hline]
    simp
  · obtain ⟨index, hindex⟩ := exists_isLineOf (s := s) h.1
    exact ⟨index, hindex, fun other hother => hother.unique hindex⟩
  · rw [findLine?_eq]
    cases s.lineAt? offset <;> rfl
  · rw [findLine?_eq]
    cases hat : s.lineAt? offset with
    | some line =>
      rw [lineOf?, hat]
      rfl
    | none =>
      rw [lineOf?_eq_error hat]
      rfl

/-- **Not every offset outside a source** is refused as one that is too large: the error cannot name
a number of more than `digitLimit` digits. -/
theorem not_refused_as_outside : ¬ ∀ (s : Source) (offset : Int),
    s.lineOf? offset = .error (.indexTooLarge offset s.length) ↔ s.findLine? offset = none := by
  intro h
  let s := ofEncodable .anonymous [] rfl
  let offset : Int := (10 ^ digitLimit : Nat)
  have hbehind : (s.length : Int) < offset := Int.natCast_pos.2 (Nat.pow_pos (by decide))
  have hrefused := (h s offset).2 (findLine?_eq_none_iff.2 (Or.inr hbehind))
  have hat : s.lineAt? offset = none := if_neg fun hin => absurd hin.2 (Int.not_le.2 hbehind)
  rw [lineOf?_eq_error hat, if_neg fun hnumbers => ?_] at hrefused
  · cases hrefused
  · rw [Text.isWritable_pow_digitLimit] at hnumbers
    exact Bool.false_ne_true hnumbers.1

end Source

end SourceReport
