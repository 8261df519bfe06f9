import SourceReport.Proofs.Text.Encoding
import SourceReport.Source.Basic

/-!
# The lines of a source

`Text.lines` cuts a text behind each of its terminators, and `Line.list` adds up where the pieces
start. What is proved here ties the three ways to count together: the pieces are code points, their
offsets bytes, and the bytes between two offsets are read back as the piece.

* `Text.IsTerminator` lists the terminators by their code points, CR LF being one of them, and
  `Text.IsUnbroken` says that a text holds none.
* `Text.IsCut` is what a list of lines looks like: every line but the last is an unbroken text and
  one terminator, CR LF is never torn apart, and the last line is unbroken.
* `Source.IndexesLines` puts the parts of the index of a source together.

Results:
* `isCut_lines`, `flatten_lines`: the lines of a text are a cut, and in order they are the text.
* `getElem?_list`: the line with an index and the number of bytes before it.
* `Source.indexesLines`: the index of every source is the decomposition of its text into lines.
* `ofText?_indexesLines`: so it is for a new source, and again after it has been cleared.
-/

namespace SourceReport

namespace Text

/-! ## Terminators -/

/-- The code points of the texts that end a line. -/
def terminators : List (List Nat) :=
  [[0x0D, 0x0A], [0x0A], [0x0D], [0x0B], [0x0C], [0x85], [0x2028], [0x2029]]

/-- A text that ends a line. -/
def IsTerminator (t : Text) : Prop := t.map (·.val) ∈ terminators

/-- A text in which no line ends. -/
def IsUnbroken (t : Text) : Prop := ∀ c ∈ t, ¬ IsTerminator [c]

/-- An unbroken text and one terminator behind it. -/
def IsEnded (t : Text) : Prop :=
  ∃ body terminator, t = body ++ terminator ∧ IsUnbroken body ∧ IsTerminator terminator

/-- A CR at the end of a line and the LF that belongs to it at the start of the next one. -/
def Tears (a b : Text) : Prop := a.getLast? = some '\r' ∧ b.head? = some '\n'

/-- Lines that end where they should. -/
def IsCut : List Text → Prop
  | [] => False
  | [last] => IsUnbroken last
  | line :: next :: more => IsEnded line ∧ ¬ Tears line next ∧ IsCut (next :: more)

theorem isTerminator_singleton (c : CodePoint) : IsTerminator [c] ↔ c.isTerminator = true := by
  have hLF : c = '\n' ↔ c.val = 0x0A := by rw [CodePoint.ext_iff]; rfl
  have hCR : c = '\r' ↔ c.val = 0x0D := by rw [CodePoint.ext_iff]; rfl
  simp only [IsTerminator, terminators, CodePoint.isTerminator, hLF, hCR, List.map_cons,
    List.map_nil, List.mem_cons, List.cons.injEq, List.not_mem_nil, and_true, and_false, or_false,
    false_or, Bool.or_eq_true, decide_eq_true_eq, reduceCtorEq]
  omega

theorem isEnded_singleton {c : CodePoint} (h : c.isTerminator = true) : IsEnded [c] :=
  ⟨[], [c], rfl, fun _ hc => absurd hc List.not_mem_nil, (isTerminator_singleton c).2 h⟩

theorem isEnded_crlf : IsEnded ['\r', '\n'] :=
  ⟨[], ['\r', '\n'], rfl, fun _ hc => absurd hc List.not_mem_nil, List.mem_cons_self⟩

theorem isUnbroken_cons {c : CodePoint} {t : Text} :
    IsUnbroken (c :: t) ↔ c.isTerminator = false ∧ IsUnbroken t := by
  unfold IsUnbroken
  rw [List.forall_mem_cons, isTerminator_singleton, Bool.not_eq_true]

theorem IsEnded.cons {c : CodePoint} {t : Text} (hc : c.isTerminator = false) (h : IsEnded t) :
    IsEnded (c :: t) := by
  obtain ⟨body, terminator, rfl, hbody, hterm⟩ := h
  exact ⟨c :: body, terminator, rfl, isUnbroken_cons.2 ⟨hc, hbody⟩, hterm⟩

theorem IsEnded.ne_nil {t : Text} (h : IsEnded t) : t ≠ [] := by
  obtain ⟨body, terminator, rfl, -, hterm⟩ := h
  intro hnil
  rw [(List.append_eq_nil_iff.1 hnil).2] at hterm
  exact absurd hterm (by simp [IsTerminator, terminators])

/-! ## Cutting -/

theorem lines_ne_nil (t : Text) : lines t ≠ [] := by
  fun_induction lines t <;> simp [pushFront]
  split <;> simp

/-- The first line of a text starts with its first code point. -/
theorem exists_lines_cons (c : CodePoint) (t : Text) :
    ∃ line more, lines (c :: t) = (c :: line) :: more := by
  cases t with
  | nil =>
    unfold lines
    split
    · exact ⟨[], [[]], rfl⟩
    · exact ⟨[], [], rfl⟩
  | cons d t =>
    unfold lines
    split
    · exact ⟨_, _, rfl⟩
    · split
      · exact ⟨_, _, rfl⟩
      · cases lines (d :: t) with
        | nil => exact ⟨_, _, rfl⟩
        | cons line more => exact ⟨_, _, rfl⟩

/-- **Nothing is lost**: the lines of a text in order are the text. -/
theorem flatten_lines (t : Text) : (lines t).flatten = t := by
  fun_induction lines t with
  | case1 => rfl
  | case2 c hc => rfl
  | case3 c hc => rfl
  | case4 c d rest h ih => simp [ih]
  | case5 c d rest hpair hc ih => simp [ih]
  | case6 c d rest hpair hc ih =>
    obtain ⟨line, more, h⟩ := exists_lines_cons d rest
    rw [h] at ih ⊢
    simpa [pushFront] using ih

theorem isUnbroken_nil : IsUnbroken [] := fun _ hc => absurd hc List.not_mem_nil

/-- A line that no terminator starts goes on like the line without its first code point. -/
theorem IsCut.cons {c : CodePoint} {line : Text} {more : List Text} (hc : c.isTerminator = false)
    (hne : line ≠ []) (h : IsCut (line :: more)) : IsCut ((c :: line) :: more) := by
  cases more with
  | nil => exact isUnbroken_cons.2 ⟨hc, h⟩
  | cons next more =>
    obtain ⟨hended, htears, hmore⟩ := h
    refine ⟨hended.cons hc, fun ht => htears ⟨?_, ht.2⟩, hmore⟩
    rw [← ht.1, List.getLast?_cons]
    obtain ⟨last, hlast⟩ := Option.isSome_iff_exists.1 (List.getLast?_isSome.2 hne)
    rw [hlast]
    rfl

/-- A terminator of its own in front of a cut is a line, unless it is a CR before an LF. -/
theorem IsCut.cons_line {line : Text} {ls : List Text} (hended : IsEnded line)
    (htears : ∀ next ∈ ls.head?, ¬ Tears line next) (h : IsCut ls) : IsCut (line :: ls) := by
  cases ls with
  | nil => exact absurd h id
  | cons next more => exact ⟨hended, htears next rfl, h⟩

/-- **Every line but the last ends with its one terminator.** -/
theorem isCut_lines (t : Text) : IsCut (lines t) := by
  fun_induction lines t with
  | case1 => exact isUnbroken_nil
  | case2 c hc => exact ⟨isEnded_singleton hc, fun h => absurd h.2 (by simp), isUnbroken_nil⟩
  | case3 c hc => exact isUnbroken_cons.2 ⟨by simpa using hc, isUnbroken_nil⟩
  | case4 c d rest h ih =>
    obtain ⟨rfl, rfl⟩ := h
    refine ih.cons_line isEnded_crlf fun next _ h => ?_
    exact absurd h.1 (by decide)
  | case5 c d rest hpair hc ih =>
    refine ih.cons_line (isEnded_singleton hc) fun next hnext h => hpair ?_
    obtain ⟨line, more, hlines⟩ := exists_lines_cons d rest
    rw [hlines, List.head?_cons, Option.mem_some_iff] at hnext
    subst hnext
    exact ⟨by simpa using h.1, by simpa using h.2⟩
  | case6 c d rest hpair hc ih =>
    obtain ⟨line, more, hlines⟩ := exists_lines_cons d rest
    rw [hlines] at ih ⊢
    exact ih.cons (by simpa using hc) (List.cons_ne_nil d line)

example : lines "a\r\n\rb\n" = [("a\r\n" : Text), "\r", "b\n", ""] := by decide

/-! ## Reading a cut off by index -/

theorem IsCut.ended {ls : List Text} (h : IsCut ls) {n : Nat} {line next : Text}
    (hn : ls[n]? = some line) (hnext : ls[n + 1]? = some next) :
    IsEnded line ∧ ¬ Tears line next := by
  induction ls generalizing n with
  | nil => exact absurd h id
  | cons first ls ih =>
    cases ls with
    | nil => simp at hnext
    | cons second more =>
      obtain ⟨hended, htears, hmore⟩ := h
      cases n with
      | zero =>
        obtain rfl : first = line := by simpa using hn
        obtain rfl : second = next := by simpa using hnext
        exact ⟨hended, htears⟩
      | succ n => exact ih hmore (by simpa using hn) (by simpa using hnext)

theorem IsCut.unbroken {ls : List Text} (h : IsCut ls) {n : Nat} {last : Text}
    (hn : ls[n]? = some last) (hnext : ls[n + 1]? = none) : IsUnbroken last := by
  induction ls generalizing n with
  | nil => exact absurd h id
  | cons first ls ih =>
    cases ls with
    | nil =>
      cases n with
      | zero =>
        obtain rfl : first = last := by simpa using hn
        exact h
      | succ n => simp at hn
    | cons second more =>
      cases n with
      | zero => simp at hnext
      | succ n => exact ih h.2.2 (by simpa using hn) (by simpa using hnext)

end Text

/-! ## Offsets -/

/-- The text before the line with an index. -/
def Text.beforeLine (t : Text) (n : Nat) : Text := (t.lines.take n).flatten

theorem Text.beforeLine_zero (t : Text) : t.beforeLine 0 = [] := rfl

theorem Text.beforeLine_succ {t raw : Text} {n : Nat} (h : t.lines[n]? = some raw) :
    t.beforeLine (n + 1) = t.beforeLine n ++ raw := by
  simp [beforeLine, List.take_add_one, h]

theorem Text.beforeLine_of_length_le {t : Text} {n : Nat} (h : t.lines.length ≤ n) :
    t.beforeLine n = t := by
  rw [beforeLine, List.take_of_length_le h, flatten_lines]

/-- A text is what stands before a line, the line, and what follows it. -/
theorem Text.exists_eq_beforeLine_append {t raw : Text} {n : Nat} (h : t.lines[n]? = some raw) :
    ∃ after, t = t.beforeLine n ++ raw ++ after := by
  refine ⟨(t.lines.drop (n + 1)).flatten, ?_⟩
  rw [← beforeLine_succ h, beforeLine, ← List.flatten_append, List.take_append_drop,
    flatten_lines]

theorem getElem?_listFrom (index offset n : Nat) (ts : List Text) :
    (Line.listFrom index offset ts)[n]? =
      ts[n]?.map fun raw => ⟨index + n, offset + Text.utf8Length (ts.take n).flatten, raw⟩ := by
  induction ts generalizing index offset n with
  | nil => simp [Line.listFrom]
  | cons t ts ih =>
    cases n with
    | zero => simp [Line.listFrom]
    | succ n =>
      simp only [Line.listFrom, List.getElem?_cons_succ, ih, List.take_succ_cons,
        List.flatten_cons, Text.utf8Length_append]
      congr 1
      funext raw
      rw [Nat.add_assoc index, Nat.add_comm 1 n, Nat.add_assoc offset]

theorem map_raw_listFrom (index offset : Nat) (ts : List Text) :
    (Line.listFrom index offset ts).map (·.raw) = ts := by
  induction ts generalizing index offset with
  | nil => rfl
  | cons t ts ih => simp [Line.listFrom, ih]

/-- **The line with an index**: its number, the bytes before it, and its text. -/
theorem getElem?_list {t : Text} {n : Nat} {l : Line} :
    (Line.list t)[n]? = some l ↔
      t.lines[n]? = some l.raw ∧ l.index = n ∧ l.offset = (t.beforeLine n).utf8Length := by
  rw [Line.list, getElem?_listFrom, Option.map_eq_some_iff]
  simp only [Nat.zero_add]
  constructor
  · rintro ⟨raw, hraw, rfl⟩
    exact ⟨hraw, rfl, rfl⟩
  · rintro ⟨hraw, rfl, hoffset⟩
    refine ⟨l.raw, hraw, ?_⟩
    rw [← Text.beforeLine, ← hoffset]

namespace Source

variable {s : Source} {n : Nat} {l next : Line}

theorem lines_getElem?_eq (s : Source) (n : Nat) (l : Line) :
    s.lines[n]? = some l ↔ s.content.lines[n]? = some l.raw ∧ l.index = n ∧
      l.offset = (s.content.beforeLine n).utf8Length :=
  getElem?_list

theorem length_lines (s : Source) : s.lines.length = s.content.lines.length := by
  rw [lines, Line.list, ← List.length_map (·.raw), map_raw_listFrom]

theorem lines_ne_nil (s : Source) : s.lines ≠ [] := by
  intro h
  have hlen := s.length_lines
  rw [h, List.length_nil] at hlen
  exact Text.lines_ne_nil s.content (List.length_eq_zero_iff.1 hlen.symm)

/-- A line ends behind its bytes. -/
theorem stop_eq (h : s.lines[n]? = some l) :
    l.stop = (s.content.beforeLine (n + 1)).utf8Length := by
  obtain ⟨hraw, -, hoffset⟩ := (s.lines_getElem?_eq n l).1 h
  rw [Text.beforeLine_succ hraw, Text.utf8Length_append, Line.stop, Line.length, hoffset]

/-- Neighbouring lines touch. -/
theorem stop_eq_offset (h : s.lines[n]? = some l) (hnext : s.lines[n + 1]? = some next) :
    l.stop = next.offset := by
  rw [stop_eq h, ((s.lines_getElem?_eq (n + 1) next).1 hnext).2.2]

/-- The last line ends at the end of the source. -/
theorem stop_eq_length (h : s.lines[n]? = some l) (hnext : s.lines[n + 1]? = none) :
    l.stop = s.length := by
  have hlen : s.content.lines.length ≤ n + 1 := by
    rw [← length_lines]
    exact List.getElem?_eq_none_iff.1 hnext
  rw [stop_eq h, Text.beforeLine_of_length_le hlen, length]

/-- A line that another one follows is not empty. -/
theorem offset_lt_offset (h : s.lines[n]? = some l) (hnext : s.lines[n + 1]? = some next) :
    l.offset < next.offset := by
  obtain ⟨hraw, -, -⟩ := (s.lines_getElem?_eq n l).1 h
  obtain ⟨hraw', -, -⟩ := (s.lines_getElem?_eq (n + 1) next).1 hnext
  have hne : l.raw ≠ [] := ((Text.isCut_lines s.content).ended hraw hraw').1.ne_nil
  have hpos : 0 < l.raw.utf8Length := by
    obtain ⟨c, rest, hc⟩ := List.exists_cons_of_ne_nil hne
    rw [hc, Text.utf8Length_cons]
    have := c.utf8Width_pos
    omega
  rw [← stop_eq_offset h hnext, Line.stop, Line.length]
  omega

theorem exists_line (h : n < s.lines.length) : ∃ l, s.lines[n]? = some l :=
  ⟨s.lines[n], List.getElem?_eq_getElem h⟩

/-- Later lines start at larger offsets. -/
theorem offset_strictMono {m : Nat} {a b : Line} (ha : s.lines[m]? = some a)
    (hb : s.lines[n]? = some b) (h : m < n) : a.offset < b.offset := by
  induction n generalizing b with
  | zero => exact absurd h (Nat.not_lt_zero m)
  | succ n ih =>
    have hlen := (List.getElem?_eq_some_iff.1 hb).1
    obtain ⟨c, hc⟩ := s.exists_line (show n < s.lines.length by omega)
    have hcb := offset_lt_offset hc hb
    rcases Nat.lt_or_eq_of_le (Nat.le_of_lt_succ h) with hmn | rfl
    · exact Nat.lt_trans (ih hc hmn) hcb
    · rw [ha, Option.some.injEq] at hc
      rwa [hc]

theorem isSurrogate_of_mem {c : CodePoint} (hc : c ∈ s.content) : c.isSurrogate = false :=
  List.findIdx?_eq_none_iff.1 s.encodable c hc

/-- **The bytes of a line are read back as the line.** -/
theorem decode?_extract (h : s.lines[n]? = some l) :
    Utf8.decode? (s.content.utf8.extract l.offset l.stop) = .ok l.raw := by
  obtain ⟨hraw, -, hoffset⟩ := (s.lines_getElem?_eq n l).1 h
  obtain ⟨after, hafter⟩ := Text.exists_eq_beforeLine_append hraw
  have hbytes : s.content.utf8 =
      (s.content.beforeLine n).utf8 ++ l.raw.utf8 ++ Text.utf8 after :=
    (congrArg Text.utf8 hafter).trans (by simp only [Text.utf8, List.flatMap_append])
  have hstart : (s.content.beforeLine n).utf8.length = l.offset := by
    rw [Text.length_utf8, hoffset]
  have hlength : l.raw.utf8.length = l.stop - l.offset := by
    rw [Text.length_utf8, Line.stop, Line.length, Nat.add_sub_cancel_left]
  have hslice : s.content.utf8.extract l.offset l.stop = l.raw.utf8 := by
    rw [List.extract_eq_take_drop, hbytes, List.append_assoc, ← hstart, List.drop_left, hstart,
      ← hlength, List.take_left]
  rw [hslice]
  refine Utf8.decode?_utf8 fun c hc => isSurrogate_of_mem (s := s) ?_
  rw [hafter]
  exact List.mem_append_left _ (List.mem_append_right _ hc)

/-! ## The index -/

/-- **The index of a source is the decomposition of its text into lines.** -/
structure IndexesLines (s : Source) : Prop where
  /-- The first line starts at the first byte. -/
  starts_at_zero : s.lineStarts.head? = some 0
  /-- Every line starts behind the ones before it. -/
  starts_increase : s.lineStarts.Pairwise (· < ·)
  /-- A line knows its index. -/
  numbered : ∀ (n : Nat) (l : Line), s.lines[n]? = some l → l.index = n
  /-- A line ends where the next one starts. -/
  stops_at_next : ∀ (n : Nat) (l next : Line), s.lines[n]? = some l →
    s.lines[n + 1]? = some next → l.stop = next.offset
  /-- The last line ends at the end of the source. -/
  stops_at_length : ∀ last, s.lines.getLast? = some last → last.stop = s.length
  /-- The bytes of a line are the encoding of its text. -/
  decodes : ∀ l ∈ s.lines, Utf8.decode? (s.content.utf8.extract l.offset l.stop) = .ok l.raw
  /-- The lines in order are the text. -/
  joins : (s.lines.map (·.raw)).flatten = s.content
  /-- Every line but the last ends with its one terminator. -/
  ended : ∀ (n : Nat) (l next : Line), s.lines[n]? = some l → s.lines[n + 1]? = some next →
    l.raw.IsEnded
  /-- CR LF is not torn apart. -/
  paired : ∀ (n : Nat) (l next : Line), s.lines[n]? = some l → s.lines[n + 1]? = some next →
    ¬ Text.Tears l.raw next.raw
  /-- The last line has no terminator. -/
  unbroken : ∀ last, s.lines.getLast? = some last → last.raw.IsUnbroken

/-- The last line is the one that no other follows. -/
theorem getLast?_lines {last : Line} (h : s.lines.getLast? = some last) :
    ∃ n, s.lines[n]? = some last ∧ s.lines[n + 1]? = none := by
  have hpos := List.length_pos_iff.2 s.lines_ne_nil
  rw [List.getLast?_eq_getElem?] at h
  exact ⟨s.lines.length - 1, h, List.getElem?_eq_none_iff.2 (by omega)⟩

theorem starts_at_zero (s : Source) : s.lineStarts.head? = some 0 := by
  obtain ⟨first, hfirst⟩ := s.exists_line (List.length_pos_iff.2 s.lines_ne_nil)
  obtain ⟨-, -, hoffset⟩ := (s.lines_getElem?_eq 0 first).1 hfirst
  rw [lineStarts, List.head?_map, List.head?_eq_getElem?, hfirst, Option.map_some, hoffset,
    Text.beforeLine_zero, Text.utf8Length_nil]

theorem starts_increase (s : Source) : s.lineStarts.Pairwise (· < ·) := by
  rw [lineStarts, List.pairwise_map, List.pairwise_iff_getElem]
  intro m n hm hn hmn
  exact offset_strictMono (List.getElem?_eq_getElem hm) (List.getElem?_eq_getElem hn) hmn

/-- The index of every source, new or cleared, is that of its text. -/
theorem indexesLines (s : Source) : s.IndexesLines where
  starts_at_zero := s.starts_at_zero
  starts_increase := s.starts_increase
  numbered n l h := ((s.lines_getElem?_eq n l).1 h).2.1
  stops_at_next _ _ _ := stop_eq_offset
  stops_at_length last h := by
    obtain ⟨n, hn, hnext⟩ := getLast?_lines h
    exact stop_eq_length hn hnext
  decodes l h := by
    obtain ⟨n, hn⟩ := List.getElem?_of_mem h
    exact decode?_extract hn
  joins := by rw [lines, Line.list, map_raw_listFrom, Text.flatten_lines]
  ended n l next h hnext := by
    obtain ⟨hraw, -⟩ := (s.lines_getElem?_eq n l).1 h
    obtain ⟨hraw', -⟩ := (s.lines_getElem?_eq (n + 1) next).1 hnext
    exact ((Text.isCut_lines s.content).ended hraw hraw').1
  paired n l next h hnext := by
    obtain ⟨hraw, -⟩ := (s.lines_getElem?_eq n l).1 h
    obtain ⟨hraw', -⟩ := (s.lines_getElem?_eq (n + 1) next).1 hnext
    exact ((Text.isCut_lines s.content).ended hraw hraw').2
  unbroken last h := by
    obtain ⟨n, hn, hnext⟩ := getLast?_lines h
    obtain ⟨hraw, -⟩ := (s.lines_getElem?_eq n last).1 hn
    refine (Text.isCut_lines s.content).unbroken hraw (List.getElem?_eq_none_iff.2 ?_)
    rw [← length_lines]
    exact List.getElem?_eq_none_iff.1 hnext

/-- A text without surrogates makes a source. -/
theorem ofText?_eq_ok (name : SourceName) {t : Text} (ht : ∀ c ∈ t, c.isSurrogate = false) :
    ∃ s, ofText? name t = .ok s ∧ s.content = t := by
  have hnone : t.loneSurrogate? = none := List.findIdx?_eq_none_iff.2 ht
  refine ⟨ofEncodable name t hnone, ?_, rfl⟩
  unfold ofText?
  split
  · next position h => rw [hnone] at h; cases h
  · rfl

theorem content_repeat_clear (s : Source) (n : Nat) :
    (Nat.repeat clear (n + 1) s).content = [] := rfl

/-- **Every text that has an encoding is cut into its lines**, and so is the empty text that is left
after clearing the source any number of times. -/
theorem ofText?_indexesLines (name : SourceName) {t : Text}
    (ht : ∀ c ∈ t, c.isSurrogate = false) :
    ∃ s, ofText? name t = .ok s ∧ s.content = t ∧ s.IndexesLines ∧
      ∀ n, (Nat.repeat clear (n + 1) s).content = [] ∧
        (Nat.repeat clear (n + 1) s).IndexesLines := by
  obtain ⟨s, hs, hcontent⟩ := ofText?_eq_ok name ht
  exact ⟨s, hs, hcontent, s.indexesLines,
    fun n => ⟨content_repeat_clear s n, indexesLines _⟩⟩

/-- CR LF, a CR of its own, and a separator of three bytes. -/
theorem ofText?_indexesLines_mixed :
    (∀ c ∈ ("a\r\n\ré\u2028𐐀" : Text), c.isSurrogate = false) ∧
      ∃ s, ofText? .anonymous "a\r\n\ré\u2028𐐀" = .ok s ∧ s.content = "a\r\n\ré\u2028𐐀" ∧
        s.IndexesLines ∧ ∀ n, (Nat.repeat clear (n + 1) s).content = [] ∧
          (Nat.repeat clear (n + 1) s).IndexesLines :=
  ⟨by decide, ofText?_indexesLines .anonymous (by decide)⟩

end Source

end SourceReport
