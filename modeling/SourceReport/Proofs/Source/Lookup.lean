import SourceReport.Proofs.Source.Lines

/-!
# Boundaries and the lines they lie in

A boundary of a text is the number of bytes of one of its prefixes. Prefixes of one text are ordered
by their bytes, since every code point takes at least one, so a boundary belongs to one prefix only;
and every offset of a source belongs to one line, the last one that starts at or before it.

Results:
* `isBoundary_iff`: the boundaries of a text are the lengths of its prefixes.
* `takeBytes_append`: a prefix is taken back from its number of bytes.
* `Source.isBoundary_floorBoundary`: the last boundary at or before an offset.
* `Source.exists_lineFrom`: the line of an offset, and where the next one starts.
* `Source.index_lineFrom_mono`: lines come in the order of their offsets.
* `Source.line?_eq_ok_iff`: which lines there are.
-/

namespace SourceReport

namespace Text

variable {a b t : Text}

/-! ## Prefixes -/

theorem utf8Length_eq_zero_iff : t.utf8Length = 0 ↔ t = [] := by
  cases t with
  | nil => exact iff_of_true rfl rfl
  | cons c t =>
    have := c.utf8Width_pos
    refine iff_of_false ?_ (List.cons_ne_nil c t)
    rw [utf8Length_cons]
    omega

theorem units16_eq_zero_iff : t.units16 = 0 ↔ t = [] := by
  cases t with
  | nil => exact iff_of_true rfl rfl
  | cons c t =>
    have := c.units16_pos
    refine iff_of_false ?_ (List.cons_ne_nil c t)
    rw [units16_cons]
    omega

/-- Of two prefixes the one with fewer bytes is a prefix of the other. -/
theorem prefix_of_utf8Length_le (ha : a <+: t) (hb : b <+: t)
    (h : a.utf8Length ≤ b.utf8Length) : a <+: b := by
  rcases List.prefix_or_prefix_of_prefix ha hb with hab | ⟨more, rfl⟩
  · exact hab
  · rw [utf8Length_append] at h
    have hmore : more = [] := utf8Length_eq_zero_iff.1 (by omega)
    exact ⟨[], by rw [hmore, List.append_nil, List.append_nil]⟩

/-- Prefixes are told apart by their bytes. -/
theorem eq_of_utf8Length_eq (ha : a <+: t) (hb : b <+: t) (h : a.utf8Length = b.utf8Length) :
    a = b := by
  obtain ⟨more, rfl⟩ := prefix_of_utf8Length_le ha hb (Nat.le_of_eq h)
  rw [utf8Length_append] at h
  have hmore : more = [] := utf8Length_eq_zero_iff.1 (by omega)
  rw [hmore, List.append_nil]

theorem utf8Length_mono (h : a <+: b) : a.utf8Length ≤ b.utf8Length := by
  obtain ⟨more, rfl⟩ := h
  rw [utf8Length_append]
  exact Nat.le_add_right _ _

theorem units16_mono (h : a <+: b) : a.units16 ≤ b.units16 := by
  obtain ⟨more, rfl⟩ := h
  rw [units16_append]
  exact Nat.le_add_right _ _

/-- Of two prefixes the one with fewer units is a prefix of the other. -/
theorem prefix_of_units16_le (ha : a <+: t) (hb : b <+: t) (h : a.units16 ≤ b.units16) :
    a <+: b := by
  rcases List.prefix_or_prefix_of_prefix ha hb with hab | ⟨more, rfl⟩
  · exact hab
  · rw [units16_append] at h
    have hmore : more = [] := units16_eq_zero_iff.1 (by omega)
    exact ⟨[], by rw [hmore, List.append_nil, List.append_nil]⟩

/-- A prefix is told apart from the whole text by its UTF-16 units. -/
theorem eq_of_units16_eq (ha : a <+: t) (h : a.units16 = t.units16) : a = t := by
  obtain ⟨more, rfl⟩ := ha
  rw [units16_append] at h
  have hmore : more = [] := units16_eq_zero_iff.1 (by omega)
  rw [hmore, List.append_nil]

/-! ## Boundaries -/

theorem takeBytes_append (a b : Text) : takeBytes (a ++ b) a.utf8Length = a := by
  induction a with
  | nil =>
    cases b with
    | nil => rfl
    | cons c b =>
      have := c.utf8Width_pos
      simp [takeBytes]
      omega
  | cons c a ih =>
    rw [List.cons_append, takeBytes, utf8Length_cons, if_pos (Nat.le_add_right _ _),
      Nat.add_sub_cancel_left, ih]

theorem dropBytes_append (a b : Text) : dropBytes (a ++ b) a.utf8Length = b := by
  induction a with
  | nil =>
    cases b with
    | nil => rfl
    | cons c b =>
      rw [List.nil_append, utf8Length_nil, dropBytes, if_neg (Nat.not_le_of_lt c.utf8Width_pos)]
  | cons c a ih =>
    rw [List.cons_append, dropBytes, utf8Length_cons, if_pos (Nat.le_add_right _ _),
      Nat.add_sub_cancel_left, ih]

theorem takeBytes_of_prefix (h : a <+: t) : takeBytes t a.utf8Length = a := by
  obtain ⟨more, rfl⟩ := h
  exact takeBytes_append a more

/-- **The boundaries of a text are the lengths of its prefixes.** -/
theorem isBoundary_iff {n : Nat} :
    t.isBoundary n = true ↔ ∃ p : Text, p <+: t ∧ p.utf8Length = n := by
  fun_induction isBoundary t n with
  | case1 t => exact ⟨fun _ => ⟨[], List.nil_prefix, rfl⟩, fun _ => rfl⟩
  | case2 n =>
    constructor
    · intro h
      cases h
    · rintro ⟨p, hp, hlen⟩
      rw [List.prefix_nil.1 hp] at hlen
      cases hlen
  | case3 c t n ih =>
    rw [Bool.and_eq_true, decide_eq_true_iff, ih]
    constructor
    · rintro ⟨hle, p, hp, hlen⟩
      refine ⟨c :: p, (List.prefix_cons_inj c).2 hp, ?_⟩
      rw [utf8Length_cons, hlen]
      omega
    · rintro ⟨p, hp, hlen⟩
      rcases List.prefix_cons_iff.1 hp with rfl | ⟨q, rfl, hq⟩
      · cases hlen
      · rw [utf8Length_cons] at hlen
        exact ⟨by omega, q, hq, by omega⟩

theorem takeBytes_prefix (t : Text) (n : Nat) : takeBytes t n <+: t := by
  induction t generalizing n with
  | nil => exact List.prefix_rfl
  | cons c t ih =>
    rw [takeBytes]
    split
    · exact (List.prefix_cons_inj c).2 (ih _)
    · exact List.nil_prefix

theorem floorBoundary_le (t : Text) (n : Nat) : t.floorBoundary n ≤ n := by
  unfold floorBoundary
  induction t generalizing n with
  | nil => exact Nat.zero_le n
  | cons c t ih =>
    rw [takeBytes]
    split
    · next hle =>
      have := ih (n - c.utf8Width)
      rw [utf8Length_cons]
      omega
    · exact Nat.zero_le n

/-- No other prefix within so many bytes is longer. -/
theorem utf8Length_le_floorBoundary {n : Nat} (h : a <+: t) (hle : a.utf8Length ≤ n) :
    a.utf8Length ≤ t.floorBoundary n := by
  unfold floorBoundary
  induction t generalizing a n with
  | nil => rw [List.prefix_nil.1 h]; exact Nat.le_refl _
  | cons c t ih =>
    rcases List.prefix_cons_iff.1 h with rfl | ⟨b, rfl, hb⟩
    · exact Nat.zero_le _
    · rw [utf8Length_cons] at hle
      rw [takeBytes, if_pos (by omega), utf8Length_cons, utf8Length_cons]
      have := ih (n := n - c.utf8Width) hb (by omega)
      omega

end Text

namespace Source

variable {s : Source} {n : Nat} {l : Line}

/-- The boundaries of a source lie inside it. -/
theorem le_length_of_isBoundary {o : Nat} (h : s.isBoundary o = true) : o ≤ s.length := by
  obtain ⟨p, ⟨more, hmore⟩, rfl⟩ := Text.isBoundary_iff.1 h
  rw [length, ← hmore, Text.utf8Length_append]
  exact Nat.le_add_right _ _

theorem isBoundary_zero (s : Source) : s.isBoundary 0 = true :=
  Text.isBoundary_iff.2 ⟨[], List.nil_prefix, rfl⟩

theorem isBoundary_length (s : Source) : s.isBoundary s.length = true :=
  Text.isBoundary_iff.2 ⟨s.content, List.prefix_rfl, rfl⟩

theorem checkBoundary_of_isBoundary {o : Nat} (h : s.isBoundary o = true) :
    s.checkBoundary o = .ok () := by
  have hle : ¬ (s.length : Int) < o := by
    have := le_length_of_isBoundary h
    omega
  rw [checkBoundary, if_neg hle, if_pos h]

/-- **The repair of an offset** is the last boundary at or before it: behind the end of the source
its length, inside a character the start of that. -/
theorem isBoundary_floorBoundary (s : Source) (o : Nat) :
    s.isBoundary (s.floorBoundary o) = true ∧ s.floorBoundary o ≤ o ∧
      ∀ b : Nat, s.isBoundary b = true → b ≤ o → b ≤ s.floorBoundary o := by
  refine ⟨Text.isBoundary_iff.2 ⟨_, s.content.takeBytes_prefix o, rfl⟩,
    s.content.floorBoundary_le o, fun b hb hle => ?_⟩
  obtain ⟨p, hp, rfl⟩ := Text.isBoundary_iff.1 hb
  exact Text.utf8Length_le_floorBoundary hp hle

theorem floorBoundary_of_isBoundary {o : Nat} (h : s.isBoundary o = true) :
    s.floorBoundary o = o := by
  obtain ⟨-, hle, hgreatest⟩ := s.isBoundary_floorBoundary o
  exact Nat.le_antisymm hle (hgreatest o h (Nat.le_refl o))

theorem floorBoundary_mono {a b : Nat} (h : a ≤ b) : s.floorBoundary a ≤ s.floorBoundary b := by
  obtain ⟨hboundary, hle, -⟩ := s.isBoundary_floorBoundary a
  exact (s.isBoundary_floorBoundary b).2.2 _ hboundary (Nat.le_trans hle h)

/-! ## The line of an offset -/

/-- Among the first `k` lines there is a last one that starts at or before an offset. -/
theorem exists_last_line_le (s : Source) (o : Nat) : ∀ k, 0 < k → k ≤ s.lines.length →
    ∃ n l, s.lines[n]? = some l ∧ n < k ∧ l.offset ≤ o ∧
      ∀ next, n + 1 < k → s.lines[n + 1]? = some next → o < next.offset
  | 0, hpos, _ => absurd hpos (Nat.lt_irrefl 0)
  | 1, _, hlen => by
    obtain ⟨l, hl⟩ := s.exists_line (show 0 < s.lines.length by omega)
    obtain ⟨-, -, hoffset⟩ := (s.lines_getElem?_eq 0 l).1 hl
    refine ⟨0, l, hl, Nat.one_pos, ?_, fun next h => absurd h (by omega)⟩
    rw [hoffset, Text.beforeLine_zero]
    exact Nat.zero_le o
  | k + 2, _, hlen => by
    obtain ⟨n, l, hl, hn, hle, hnext⟩ := exists_last_line_le s o (k + 1) (by omega) (by omega)
    obtain ⟨l', hl'⟩ := s.exists_line (show k + 1 < s.lines.length by omega)
    -- One more line: it takes the place of the one found so far if it starts early enough.
    by_cases h : l'.offset ≤ o
    · exact ⟨k + 1, l', hl', by omega, h, fun next h => absurd h (by omega)⟩
    · refine ⟨n, l, hl, by omega, hle, fun next hlt hsome => ?_⟩
      by_cases hnk : n + 1 = k + 1
      · rw [hnk, hl', Option.some.injEq] at hsome
        rw [← hsome]
        omega
      · exact hnext next (by omega) hsome

/-- The last line that starts at or before an offset is found. -/
theorem lineFrom_eq {o : Nat} (h : s.lines[n]? = some l) (hle : l.offset ≤ o)
    (hlt : ∀ next, s.lines[n + 1]? = some next → o < next.offset) : s.lineFrom o = l := by
  have hsplit : s.lines = s.lines.take n ++ l :: s.lines.drop (n + 1) := by
    obtain ⟨hn, hget⟩ := List.getElem?_eq_some_iff.1 h
    rw [← hget, List.getElem_cons_drop, List.take_append_drop]
  have hfind : s.lines.reverse.find? (fun l => decide (l.offset ≤ o)) = some l := by
    rw [List.find?_eq_some_iff_append]
    refine ⟨by simpa using hle, (s.lines.drop (n + 1)).reverse, (s.lines.take n).reverse, ?_, ?_⟩
    · conv => lhs; rw [hsplit]
      simp
    · intro later hlater
      obtain ⟨m, hm⟩ := List.getElem?_of_mem (List.mem_reverse.1 hlater)
      rw [List.getElem?_drop] at hm
      obtain ⟨next, hnext⟩ := s.exists_line (n := n + 1)
        (by have := (List.getElem?_eq_some_iff.1 hm).1; omega)
      -- Lines start in ascending order, so the ones further on start too late as well.
      have hge : next.offset ≤ later.offset := by
        cases m with
        | zero =>
          rw [Nat.add_zero, hnext, Option.some.injEq] at hm
          exact Nat.le_of_eq (congrArg Line.offset hm)
        | succ m => exact Nat.le_of_lt (offset_strictMono hnext hm (by omega))
      have := hlt next hnext
      simp
      omega
  rw [lineFrom, hfind, Option.getD_some]

/-- **Every offset belongs to one line**: the last one that starts at or before it. -/
theorem exists_lineFrom (s : Source) (o : Nat) :
    ∃ n l, s.lines[n]? = some l ∧ s.lineFrom o = l ∧ l.offset ≤ o ∧
      ∀ next, s.lines[n + 1]? = some next → o < next.offset := by
  obtain ⟨n, l, hl, hn, hle, hnext⟩ := s.exists_last_line_le o s.lines.length
    (List.length_pos_iff.2 s.lines_ne_nil) (Nat.le_refl _)
  have hlt : ∀ next, s.lines[n + 1]? = some next → o < next.offset := fun next h =>
    hnext next (List.getElem?_eq_some_iff.1 h).1 h
  exact ⟨n, l, hl, lineFrom_eq hl hle hlt, hle, hlt⟩

/-- The line of an offset has its index. -/
theorem getElem?_index_lineFrom (s : Source) (o : Nat) :
    s.lines[(s.lineFrom o).index]? = some (s.lineFrom o) := by
  obtain ⟨n, l, hl, heq, -⟩ := s.exists_lineFrom o
  rw [heq, ((s.lines_getElem?_eq n l).1 hl).2.1, hl]

/-- A later offset does not belong to an earlier line. -/
theorem index_lineFrom_mono {a b : Nat} (h : a ≤ b) :
    (s.lineFrom a).index ≤ (s.lineFrom b).index := by
  obtain ⟨m, l, hl, ha, hle, -⟩ := s.exists_lineFrom a
  obtain ⟨n, k, hk, hb, -, hlt⟩ := s.exists_lineFrom b
  rw [ha, hb, ((s.lines_getElem?_eq m l).1 hl).2.1, ((s.lines_getElem?_eq n k).1 hk).2.1]
  refine Nat.le_of_not_lt fun hmn => ?_
  obtain ⟨next, hnext⟩ := s.exists_line
    (show n + 1 < s.lines.length by have := (List.getElem?_eq_some_iff.1 hl).1; omega)
  have hbefore : next.offset ≤ l.offset := by
    rcases Nat.lt_or_eq_of_le (show n + 1 ≤ m by omega) with hlt' | rfl
    · exact Nat.le_of_lt (offset_strictMono hnext hl hlt')
    · rw [hnext, Option.some.injEq] at hl
      exact Nat.le_of_eq (congrArg Line.offset hl)
  have := hlt next hnext
  omega

theorem lineOf?_of_le {o : Nat} (h : o ≤ s.length) : s.lineOf? o = .ok (s.lineFrom o) := by
  have hin : (0 : Int) ≤ o ∧ (o : Int) ≤ s.length := ⟨Int.natCast_nonneg o, by omega⟩
  rw [lineOf?, lineAt?, if_pos hin, Int.toNat_natCast]

/-- The lines of a source are numbered from zero. -/
theorem line?_eq_ok_iff {i : Int} :
    s.line? i = .ok l ↔ ∃ n : Nat, i = n ∧ s.lines[n]? = some l := by
  cases i with
  | ofNat n =>
    constructor
    · intro h
      refine ⟨n, rfl, ?_⟩
      rw [line?] at h
      split at h
      · next line hline =>
        rw [Except.ok.injEq] at h
        rw [hline, h]
      · cases h
    · rintro ⟨m, hm, hl⟩
      obtain rfl : n = m := Int.ofNat.inj hm
      rw [line?, hl]
  | negSucc n =>
    constructor
    · intro h
      cases h
    · rintro ⟨m, hm, -⟩
      cases hm

end Source

end SourceReport
