import SourceReport.Proofs.Report.Lead
import SourceReport.Proofs.Report.Messages
import SourceReport.Proofs.Style.Color

/-!
# The ink of a snippet

A snippet prints source lines and the messages of labels, and digits, glyphs and words of its own.
The source lines are printed without control characters, whatever they hold. So no control character
stands in its rows but those that the messages bring along.

* An `Ink` is a set of code points, in which all but the control characters are.
* `Row.IsIn` says that a row is printed in an ink, and in styles that can be written.

Results:
* `DisplayLine.isIn_text`: source lines are printed in every ink.
* `Row.IsIn.printed`: what is written of a row is printed in the ink of its parts.
* `Snippet.isIn_bodyRows`: so are the rows of a snippet if the messages of its labels are.
-/

namespace SourceReport

/-- A set of code points to print with. -/
structure Ink where
  Has : CodePoint → Prop
  /-- What is no control character can be printed. -/
  has_of_not_control : ∀ c : CodePoint, c.isControl = false → Has c
  has_newline : Has '\n'

/-! ## Texts -/

/-- A text can be printed. -/
def Text.IsIn (ink : Ink) (t : Text) : Prop := ∀ c ∈ t, ink.Has c

namespace Text

variable {ink : Ink} {s t : Text}

theorem isIn_nil : IsIn ink [] := fun _ hc => absurd hc List.not_mem_nil

theorem IsIn.append (hs : s.IsIn ink) (ht : t.IsIn ink) : (s ++ t).IsIn ink :=
  List.forall_mem_append.2 ⟨hs, ht⟩

/-- Texts without control characters can be printed. -/
theorem isIn_of_all (h : t.all (!·.isControl) = true) : t.IsIn ink := by
  intro c hc
  exact ink.has_of_not_control c (by simpa using List.all_eq_true.1 h c hc)

theorem isIn_spaces (n : Nat) : (spaces n).IsIn ink := by
  intro c hc
  rw [List.eq_of_mem_replicate hc]
  exact ink.has_of_not_control _ (by decide)

theorem isIn_ofNat (n : Nat) : (ofNat n).IsIn ink := by
  intro c hc
  have hval : 48 ≤ c.val ∧ c.val ≤ 57 := by
    simpa [CodePoint.isAsciiDigit] using isAsciiDigit_of_mem_ofNat hc
  refine ink.has_of_not_control c ?_
  simp [CodePoint.isControl]
  omega

theorem isIn_ofHex (width n : Nat) : (ofHex width n).IsIn ink := by
  intro c hc
  have hval := CodePoint.isAsciiDigit_or_isAsciiLetter (hexValue?_of_mem_ofHex hc)
  refine ink.has_of_not_control c ?_
  simp [CodePoint.isAsciiDigit, CodePoint.isAsciiLetter] at hval
  simp [CodePoint.isControl]
  omega

theorem IsIn.of_mem_rows (h : t.IsIn ink) (hs : s ∈ rows t) : s.IsIn ink :=
  fun c hc => h c (mem_of_mem_splitOn hs hc).1

theorem IsIn.trimEnd (h : t.IsIn ink) : t.trimEnd.IsIn ink :=
  fun c hc => h c (t.trimEnd_prefix.subset hc)

end Text

/-- Every code point is shown in print. -/
theorem CodePoint.isIn_shown {ink : Ink} (c : CodePoint) (cells : Nat) :
    (c.shown cells).IsIn ink := by
  unfold shown
  split
  · exact Text.isIn_spaces cells
  · split
    · split
      · exact Text.isIn_nil
      · exact Text.isIn_of_all (by decide)
    · next hcontrol =>
      intro d hd
      rw [List.mem_singleton.1 hd]
      exact ink.has_of_not_control c (Bool.eq_false_iff.2 hcontrol)

/-- **Source lines** are printed in every ink. -/
theorem DisplayLine.isIn_text {ink : Ink} (tabWidth : Int) (raw : Text) :
    (ofLine tabWidth raw).text.IsIn ink := by
  have hlaid : ∀ (t : Text) (offset column : Nat),
      Text.IsIn ink ((layoutFrom tabWidth offset column t).flatMap (·.shown)) := by
    intro t
    induction t with
    | nil => exact fun _ _ => Text.isIn_nil
    | cons c t ih =>
      intro offset column
      rw [layoutFrom, List.flatMap_cons]
      exact (c.isIn_shown _).append (ih _ _)
  exact hlaid raw.trimEnd 0 0

/-! ## Rows -/

/-- A run is printed in an ink, and in a style that can be written. -/
structure Run.IsIn (ink : Ink) (r : Run) : Prop where
  text : r.text.IsIn ink
  style : ∀ s ∈ r.style, s.IsShowable

/-- The parts of a row are printed in an ink. -/
structure Row.IsIn (ink : Ink) (r : Row) : Prop where
  gutter : ∀ run ∈ r.gutter, run.IsIn ink
  margin : ∀ c ∈ r.margin, c.run.IsIn ink
  cells : ∀ c ∈ r.cells, c.run.IsIn ink
  text : ∀ run ∈ r.text, run.IsIn ink

section Rows

variable {ink : Ink}

theorem Run.isIn_of_none {t : Text} (h : t.IsIn ink) : Run.IsIn ink ⟨t, none⟩ where
  text := h
  style _ hs := nomatch hs

theorem Run.isIn_of_some {t : Text} {s : Style} (h : t.IsIn ink) (hs : s.IsShowable) :
    Run.IsIn ink ⟨t, some s⟩ where
  text := h
  style s' hs' := by
    obtain rfl := Option.some.inj hs'
    exact hs

theorem Row.isIn_of_text {kind : RowKind} {text : List Run} (h : ∀ run ∈ text, run.IsIn ink) :
    Row.IsIn ink { kind := kind, text := text } where
  gutter _ hr := nomatch hr
  margin _ hc := nomatch hc
  cells _ hc := nomatch hc
  text := h

theorem isIn_of_mem_trimRuns {rs : List Run} (h : ∀ r ∈ rs, r.IsIn ink) :
    ∀ r ∈ trimRuns rs, r.IsIn ink := by
  induction rs with
  | nil => exact h
  | cons first rs ih =>
    have hrest := ih fun r hr => h r (List.mem_cons_of_mem first hr)
    have hfirst := h first List.mem_cons_self
    rw [trimRuns]
    cases hkept : trimRuns rs with
    | nil =>
      have htrimmed := hfirst.text.trimEnd
      dsimp only
      split
      · exact fun r hr => absurd hr List.not_mem_nil
      · intro r hr
        rw [List.mem_singleton.1 hr]
        exact ⟨htrimmed, hfirst.style⟩
    | cons next kept =>
      rw [hkept] at hrest
      intro r hr
      rcases List.mem_cons.1 hr with rfl | hr
      · exact hfirst
      · exact hrest r hr

theorem isIn_of_mem_joinRuns {rs : List Run} (h : ∀ r ∈ rs, r.IsIn ink) :
    ∀ r ∈ joinRuns rs, r.IsIn ink := by
  induction rs with
  | nil => exact h
  | cons first rs ih =>
    have hrest := ih fun r hr => h r (List.mem_cons_of_mem first hr)
    have hfirst := h first List.mem_cons_self
    rw [joinRuns]
    cases hjoined : joinRuns rs with
    | nil =>
      intro r hr
      rw [List.mem_singleton.1 hr]
      exact hfirst
    | cons next more =>
      rw [hjoined] at hrest
      have hnext := hrest next List.mem_cons_self
      dsimp only
      split
      · intro r hr
        rcases List.mem_cons.1 hr with rfl | hr
        · exact ⟨hfirst.text.append hnext.text, hfirst.style⟩
        · exact hrest r (List.mem_cons_of_mem next hr)
      · intro r hr
        rcases List.mem_cons.1 hr with rfl | hr
        · exact hfirst
        · exact hrest r hr

/-- **What is written of a row** is printed in the ink of its parts. -/
theorem Row.IsIn.printed {row : Row} (h : row.IsIn ink) : ∀ r ∈ row.printed, r.IsIn ink := by
  refine isIn_of_mem_joinRuns (isIn_of_mem_trimRuns fun r hr => ?_)
  simp only [runs, List.mem_append, List.mem_map] at hr
  rcases hr with ((hr | ⟨c, hc, rfl⟩) | ⟨c, hc, rfl⟩) | hr
  · exact h.gutter r hr
  · exact h.margin c hc
  · exact h.cells c hc
  · exact h.text r hr

end Rows

/-! ## What is drawn with a pen -/

/-- The styles of a pen can be written. -/
structure Pen.IsShowable (pen : Pen) : Prop where
  theme : pen.settings.theme.IsValid
  styles : ∀ s ∈ pen.styles, s.IsShowable

namespace Pen

variable {ink : Ink} {pen : Pen} (hpen : pen.IsShowable)

/-- Glyphs can be printed. -/
theorem isIn_glyph (pen : Pen) {glyph : CodePoint} (h : glyph ∈ pen.glyphs.inCells) :
    Text.IsIn ink [glyph] := by
  have hunicode : ∀ c ∈ Glyphs.unicode.inCells, c.isControl = false := by decide
  have hascii : ∀ c ∈ Glyphs.ascii.inCells, c.isControl = false := by decide
  intro c hc
  rw [List.mem_singleton.1 hc]
  refine ink.has_of_not_control glyph ?_
  unfold glyphs at h
  generalize pen.settings.charSet = set at h
  cases set with
  | unicode => exact hunicode glyph h
  | ascii => exact hascii glyph h

include hpen

/-- The cells that a pen draws can be printed. -/
theorem Draws.isIn {c : Cell} (h : pen.Draws c) : c.run.IsIn ink := by
  cases h with
  | blank => exact Run.isIn_of_none (Text.isIn_of_all (by decide))
  | glyph p hglyph =>
    exact ⟨isIn_glyph pen hglyph, fun s hs => hpen.styles s (List.mem_of_getElem? hs)⟩

theorem isIn_gutterWith (number : Option Nat) {border : Run} (h : border.IsIn ink) :
    ∀ run ∈ pen.gutterWith number border, run.IsIn ink := by
  have hspace : Run.IsIn ink ⟨" ", none⟩ := Run.isIn_of_none (Text.isIn_of_all (by decide))
  have hlineNumber := hpen.theme.isShowable (s := pen.settings.theme.lineNumber)
    (by simp [Theme.styles])
  have hnil : ∀ run ∈ ([] : List Run), run.IsIn ink := fun _ hr => absurd hr List.not_mem_nil
  cases number with
  | none =>
    simp only [gutterWith, List.forall_mem_cons]
    exact ⟨Run.isIn_of_none (Text.isIn_spaces _), hspace, h, hspace, hnil⟩
  | some n =>
    simp only [gutterWith, List.forall_mem_cons]
    exact ⟨Run.isIn_of_some ((Text.isIn_spaces _).append (Text.isIn_ofNat n)) hlineNumber, hspace,
      h, hspace, hnil⟩

theorem isIn_gutter (number : Option Nat) : ∀ run ∈ pen.gutter number, run.IsIn ink := by
  refine isIn_gutterWith hpen number
    (Run.isIn_of_some (isIn_glyph pen (by simp [Glyphs.inCells])) ?_)
  exact hpen.theme.isShowable (by simp [Theme.styles])

end Pen

/-! ## Snippets -/

/-- The texts that a snippet shows beside the source lines can be printed. -/
structure Snippet.IsIn (ink : Ink) (s : Snippet) : Prop where
  name : s.name.IsIn ink
  messages : ∀ p ∈ s.labels, ∀ row ∈ p.messageRows, row.IsIn ink
  lanes : ∀ e ∈ s.lanes, e.1 ∈ s.labels

namespace Snippet

variable {ink : Ink} {pen : Pen} {s : Snippet} (hpen : pen.IsShowable)

include hpen

theorem isIn_messageRows {p : Placement} (hp : ∀ row ∈ p.messageRows, row.IsIn ink)
    {margin margins cells cellsBelow : List Cell} {lead : Text}
    (hmargin : ∀ c ∈ margin, pen.Draws c) (hmargins : ∀ c ∈ margins, pen.Draws c)
    (hcells : ∀ c ∈ cells, pen.Draws c) (hbelow : ∀ c ∈ cellsBelow, pen.Draws c)
    (hlead : lead.IsIn ink) :
    ∀ r ∈ messageRows pen p margin margins cells cellsBelow lead, r.IsIn ink := by
  intro r hr
  obtain ⟨n, hn, rfl⟩ := List.mem_mapIdx.1 hr
  refine ⟨Pen.isIn_gutter hpen none, fun c hc => ?_, fun c hc => ?_, fun run hrun => ?_⟩
  · refine Pen.Draws.isIn hpen ?_
    dsimp only at hc
    split at hc
    · exact hmargin c hc
    · exact hmargins c hc
  · refine Pen.Draws.isIn hpen ?_
    dsimp only at hc
    split at hc
    · exact hcells c hc
    · exact hbelow c hc
  · rw [List.mem_singleton.1 hrun]
    exact Run.isIn_of_none (hlead.append (hp _ (List.getElem_mem hn)))

theorem isIn_markMessages {margin : List Cell} (hmargin : ∀ c ∈ margin, pen.Draws c) (column : Nat)
    {marks : Marks} (hmarks : ∀ m ∈ marks, ∀ row ∈ m.1.messageRows, row.IsIn ink) :
    ∀ r ∈ markMessages pen margin column marks, r.IsIn ink := by
  induction marks with
  | nil => exact fun _ hr => nomatch hr
  | cons m later ih =>
    obtain ⟨p, range⟩ := m
    intro r hr
    rcases List.mem_append.1 hr with hr | hr
    · exact isIn_messageRows hpen (hmarks _ List.mem_cons_self) hmargin hmargin
        (fun c hc => Marks.draws_connectors pen column later p range.attach hc)
        (fun c hc => Marks.draws_hanging pen column later hc) (Text.isIn_of_all (by decide)) r hr
    · exact ih (fun m hm => hmarks m (List.mem_cons_of_mem _ hm)) r hr

/-- The underlines of labels of one line and their messages can be printed. -/
theorem isIn_markRows (line : Nat) (pending : List Placement) (display : DisplayLine)
    {labels : List Placement} (hlabels : ∀ p ∈ labels, ∀ row ∈ p.messageRows, row.IsIn ink) :
    ∀ r ∈ markRows pen s line pending (.ofLabels pen display labels), r.IsIn ink := by
  have hmargin : ∀ c ∈ betweenMargin pen s pen.glyphs.vertical line pending, pen.Draws c :=
    fun c hc => draws_betweenMargin pen s (by simp [Glyphs.inCells]) line pending hc
  intro r hr
  unfold markRows at hr
  split at hr
  · exact absurd hr List.not_mem_nil
  · rcases List.mem_cons.1 hr with rfl | hr
    · exact ⟨Pen.isIn_gutter hpen none, fun c hc => Pen.Draws.isIn hpen (hmargin c hc),
        fun c hc => Pen.Draws.isIn hpen (Marks.draws_underline pen _ hc),
        fun _ hr => absurd hr List.not_mem_nil⟩
    · refine isIn_markMessages hpen hmargin _ (fun m hm => ?_) r hr
      rw [Marks.withMessages_ofLabels] at hm
      obtain ⟨p, hp, rfl⟩ := List.mem_map.1 hm
      exact hlabels p (Placement.mem_messageOrder.1 hp).1

/-- So can the messages of labels of several lines. -/
theorem isIn_endingMessages (line : Nat) {endings : Lanes}
    (hendings : ∀ e ∈ endings, ∀ row ∈ e.1.messageRows, row.IsIn ink) :
    ∀ r ∈ endingMessages pen s line endings, r.IsIn ink := by
  induction endings with
  | nil => exact fun _ hr => nomatch hr
  | cons e later ih =>
    obtain ⟨p, lane⟩ := e
    intro r hr
    rcases List.mem_append.1 hr with hr | hr
    · exact isIn_messageRows hpen (hendings _ List.mem_cons_self)
        (fun c hc => draws_messageMargin pen s line p lane _ hc)
        (fun c hc => draws_betweenMargin pen s (by simp [Glyphs.inCells]) line _ hc)
        (fun _ hc => absurd hc List.not_mem_nil) (fun _ hc => absurd hc List.not_mem_nil)
        Text.isIn_nil r hr
    · exact ih (fun e he => hendings e (List.mem_cons_of_mem _ he)) r hr

theorem isIn_sourceRow (line : Nat) (tabWidth : Int) (raw : Text) :
    (sourceRow pen s line (.ofLine tabWidth raw)).IsIn ink where
  gutter := Pen.isIn_gutter hpen (some (line + 1))
  margin c hc := Pen.Draws.isIn hpen (draws_sourceMargin pen s line hc)
  cells _ hc := nomatch hc
  text run hrun := by
    rw [List.mem_singleton.1 hrun]
    exact Run.isIn_of_none (DisplayLine.isIn_text tabWidth raw)

theorem isIn_skippedRow (first count : Nat) : (skippedRow pen s first count).IsIn ink where
  gutter := by
    refine Pen.isIn_gutterWith hpen none
      (Run.isIn_of_some (Pen.isIn_glyph pen (by simp [Glyphs.inCells])) ?_)
    exact hpen.theme.isShowable (by simp [Theme.styles])
  margin c hc :=
    Pen.Draws.isIn hpen (draws_betweenMargin pen s (by simp [Glyphs.inCells]) (first - 1) [] hc)
  cells _ hc := nomatch hc
  text run hrun := by
    have hellipsis : pen.glyphs.ellipsis.IsIn ink := by
      unfold Pen.glyphs
      cases pen.settings.charSet <;> exact Text.isIn_of_all (by decide)
    have hspace : Text.IsIn ink " " := Text.isIn_of_all (by decide)
    have hskipped : Text.IsIn ink " skipped" := Text.isIn_of_all (by decide)
    have hnoun : Text.IsIn ink (if count = 1 then "line" else "lines") := by
      split <;> exact Text.isIn_of_all (by decide)
    rw [List.mem_singleton.1 hrun]
    refine Run.isIn_of_some ?_ (hpen.theme.isShowable (by simp [Theme.styles]))
    exact ((((hellipsis.append hspace).append (Text.isIn_ofNat count)).append hspace).append
      hnoun).append hskipped

theorem isIn_borderRow : pen.borderRow.IsIn ink where
  gutter := Pen.isIn_gutter hpen none
  margin _ hc := nomatch hc
  cells _ hc := nomatch hc
  text _ hr := nomatch hr

theorem isIn_unavailableRow : pen.unavailableRow.IsIn ink where
  gutter := Pen.isIn_gutter hpen none
  margin _ hc := nomatch hc
  cells _ hc := nomatch hc
  text run hrun := by
    rw [List.mem_singleton.1 hrun]
    exact Run.isIn_of_some (Text.isIn_of_all (by decide))
      (hpen.theme.isShowable (by simp [Theme.styles]))

/-- **The rows of a source line** can be printed if the messages can, whatever the line holds. -/
theorem isIn_lineRows (hs : s.IsIn ink) (source : Source) (line : Nat) :
    ∀ r ∈ lineRows pen s source line, r.IsIn ink := by
  have hendings : ∀ e ∈ s.endings line, ∀ row ∈ e.1.messageRows, row.IsIn ink := fun e he =>
    hs.messages e.1 (hs.lanes e (mem_endings.1 he).1)
  intro r hr
  rcases List.mem_append.1 hr with hr | hr
  · rcases List.mem_cons.1 hr with rfl | hr
    · exact isIn_sourceRow hpen line _ _
    · exact isIn_markRows hpen line _ _
        (fun p hp => hs.messages p (List.mem_filter.1 hp).1) r hr
  · exact isIn_endingMessages hpen line hendings r hr

/-- **The rows of a snippet** can be printed if the messages of its labels can. -/
theorem isIn_bodyRows (hs : s.IsIn ink) : ∀ r ∈ bodyRows pen s, r.IsIn ink := by
  have hborder : ∀ r ∈ (if pen.settings.compact then [] else [pen.borderRow]), r.IsIn ink := by
    intro r hr
    split at hr
    · exact absurd hr List.not_mem_nil
    · rw [List.mem_singleton.1 hr]
      exact isIn_borderRow hpen
  intro r hr
  unfold bodyRows at hr
  cases hsource : s.source with
  | none =>
    rw [hsource] at hr
    rcases List.mem_append.1 hr with hr | hr
    · exact hborder r hr
    · rw [List.mem_singleton.1 hr]
      exact isIn_unavailableRow hpen
  | some source =>
    rw [hsource] at hr
    dsimp only at hr
    split at hr
    · exact absurd hr List.not_mem_nil
    · rcases List.mem_append.1 hr with hr | hr
      · rcases List.mem_append.1 hr with hr | hr
        · exact hborder r hr
        · obtain ⟨entry, _, hr⟩ := List.mem_flatMap.1 hr
          cases entry with
          | line index => exact isIn_lineRows hpen hs source index r hr
          | skipped first count =>
            rw [List.mem_singleton.1 hr]
            exact isIn_skippedRow hpen first count
      · exact hborder r hr

end Snippet

end SourceReport
