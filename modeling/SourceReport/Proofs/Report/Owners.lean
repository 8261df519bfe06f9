import SourceReport.Proofs.Report.Labels
import SourceReport.Proofs.Report.Printed

/-!
# The labels that cells belong to

Three rules settle what a cell below a source line shows. Where the connector of a message hangs it
is a junction, of the label whose message comes first. Any other cell that labels cover is
underlined for the one of them with the best claim. The others are blank.

* `Placement.Covers` and `Placement.HangsAt` say what a label asks of a cell.
* `Cell.Underlines` are the rules for a cell, `Row.Underlines` is a row of such cells.

Results:
* `Marks.isFirst_attachedAt?`, `isFirst_ownerAt?`: the labels that are looked up come first.
* `Marks.underlines_underlineCell`: every cell follows the rules.
* `Marks.getElem?_underline_of_isFirst`: a cell where no message hangs.
* `Snippet.underlines_underlineRow`: so does the row below any labels of one line.
* `Report.underlines_drawn`: all rows of underlines of a report are of this kind.
-/

namespace SourceReport

namespace Placement

variable (settings : Settings) (raw : Text) (cell : Nat)

/-- The label covers a cell below its line. -/
def Covers (p : Placement) : Prop :=
  (p.underlined settings raw).start ≤ cell ∧ cell < (p.underlined settings raw).stop

/-- The connector of the label's message hangs at a cell. -/
def HangsAt (p : Placement) : Prop :=
  p.hasMessage = true ∧ (p.underlined settings raw).attach = cell

instance (p : Placement) : Decidable (p.Covers settings raw cell) :=
  inferInstanceAs (Decidable (_ ∧ _))

instance (p : Placement) : Decidable (p.HangsAt settings raw cell) :=
  inferInstanceAs (Decidable (_ ∧ _))

variable {settings raw cell}

theorem isProper_underlined (settings : Settings) (raw : Text) (p : Placement) :
    (p.underlined settings raw).IsProper :=
  CellRange.isProper_ofPlacement _ _ p

theorem HangsAt.covers {p : Placement} (h : p.HangsAt settings raw cell) :
    p.Covers settings raw cell := by
  obtain ⟨hstart, hstop⟩ := p.isProper_underlined settings raw
  rw [h.2] at hstart hstop
  exact ⟨hstart, hstop⟩

end Placement

/-! ## Glyphs -/

/-- The glyph that underlines a label. -/
def Glyphs.underlineOf (g : Glyphs) : Emphasis → CodePoint
  | .primary => g.primaryUnderline
  | .secondary => g.secondaryUnderline

theorem Glyphs.underlineOf_mem (g : Glyphs) (e : Emphasis) : g.underlineOf e ∈ g.underlines := by
  cases e <;> simp [underlineOf, underlines]

/-- A junction is told from an underline in both sets. -/
theorem CharSet.underlineOf_ne_junction (set : CharSet) (e : Emphasis) :
    set.glyphs.underlineOf e ≠ set.glyphs.junction := by
  cases set <;> cases e <;> decide

theorem CharSet.blank_ne_junction (set : CharSet) : Cell.blank.glyph ≠ set.glyphs.junction := by
  cases set <;> decide

/-! ## Rules -/

/-- What a cell shows of the labels in the line above it. -/
structure Cell.Underlines (pen : Pen) (raw : Text) (labels : List Placement) (cell : Nat)
    (c : Cell) : Prop where
  /-- It is blank just where no label covers it. -/
  blank_iff : c.glyph.isBlank = true ↔ ∀ p ∈ labels, ¬ p.Covers pen.settings raw cell
  eq_blank : c.glyph.isBlank = true → c = .blank
  /-- It is a junction just where the connector of a message hangs. -/
  junction_iff : c.glyph = pen.glyphs.junction ↔ ∃ p ∈ labels, p.HangsAt pen.settings raw cell
  /-- The junction belongs to the label there whose message comes first. -/
  junction : (∃ p ∈ labels, p.HangsAt pen.settings raw cell) →
    ∃ p, Placement.IsFirst Placement.SpeaksBefore
        (fun q => q ∈ labels ∧ q.HangsAt pen.settings raw cell) p ∧
      c = pen.draw p pen.glyphs.junction
  /-- Any other underline belongs to the label with the best claim. -/
  underline : (∀ p ∈ labels, ¬ p.HangsAt pen.settings raw cell) →
    (∃ p ∈ labels, p.Covers pen.settings raw cell) →
    ∃ p, Placement.IsFirst Placement.ClaimsBefore
        (fun q => q ∈ labels ∧ q.Covers pen.settings raw cell) p ∧
      c = pen.draw p (pen.glyphs.underlineOf p.label.emphasis)

/-- A row of underlines for labels of one line. -/
structure Row.Underlines (pen : Pen) (raw : Text) (labels : List Placement) (r : Row) : Prop where
  /-- Every label has cells, and its connector hangs at one of them. -/
  ranges : ∀ p ∈ labels,
    (p.underlined pen.settings raw).start < (p.underlined pen.settings raw).stop ∧
    (p.underlined pen.settings raw).start ≤ (p.underlined pen.settings raw).attach ∧
    (p.underlined pen.settings raw).attach < (p.underlined pen.settings raw).stop
  cells : ∀ cell (c : Cell), r.cells[cell]? = some c → c.Underlines pen raw labels cell
  /-- The row ends at the last cell that a label covers. -/
  ends : ∃ last, r.cells.length = last + 1 ∧
    (∃ p ∈ labels, p.Covers pen.settings raw last) ∧
    ∀ p ∈ labels, ∀ cell, p.Covers pen.settings raw cell → cell ≤ last
  /-- All cells are written, and nothing else behind the margin. -/
  written : r.written = r.lead ++ r.cells.map (·.glyph)

/-! ## Cells -/

namespace Marks

variable (pen : Pen) (raw : Text) {labels : List Placement} {cell : Nat} {p : Placement}

theorem attachedAt?_ofLabels (ps : List Placement) (cell : Nat) :
    (ofLabels pen (.ofLine pen.settings.tabWidth raw) ps).attachedAt? cell =
      ps.find? fun p => (p.underlined pen.settings raw).attach = cell := by
  rw [attachedAt?, ofLabels, List.find?_map, Option.map_map]
  exact congrFun Option.map_id _

theorem ownerAt?_ofLabels (ps : List Placement) (cell : Nat) :
    (ofLabels pen (.ofLine pen.settings.tabWidth raw) ps).ownerAt? cell =
      Placement.owner? (ps.filter fun p => (p.underlined pen.settings raw).covers cell) := by
  rw [ownerAt?, ofLabels, List.filter_map, List.map_map]
  exact congrArg Placement.owner? (List.map_id _)

variable {pen raw}

/-- The label that a junction belongs to is the first one there. -/
theorem isFirst_attachedAt? (hindices : (labels.map (·.index)).Nodup)
    (h : (ofLabels pen (.ofLine pen.settings.tabWidth raw)
      (Placement.messageOrder labels)).attachedAt? cell = some p) :
    Placement.IsFirst Placement.SpeaksBefore
      (fun q => q ∈ labels ∧ q.HangsAt pen.settings raw cell) p := by
  rw [attachedAt?_ofLabels] at h
  obtain ⟨⟨hmem, hattach⟩, hbefore⟩ :=
    Placement.isFirst_find? (Placement.pairwise_messageOrder hindices) h
  obtain ⟨hlabel, hmessage⟩ := Placement.mem_messageOrder.1 hmem
  refine ⟨⟨hlabel, hmessage, by simpa using hattach⟩, fun q hq hne => hbefore q ⟨?_, ?_⟩ hne⟩
  · exact Placement.mem_messageOrder.2 ⟨hq.1, hq.2.1⟩
  · simpa using hq.2.2

theorem attachedAt?_eq_none_iff :
    (ofLabels pen (.ofLine pen.settings.tabWidth raw)
      (Placement.messageOrder labels)).attachedAt? cell = none ↔
      ∀ p ∈ labels, ¬ p.HangsAt pen.settings raw cell := by
  rw [attachedAt?_ofLabels, List.find?_eq_none]
  simp only [Placement.mem_messageOrder, Placement.HangsAt, decide_eq_true_eq, not_and, and_imp]

/-- The label that an underline belongs to has the best claim of those that cover the cell. -/
theorem isFirst_ownerAt? (hindices : (labels.map (·.index)).Nodup)
    (h : (ofLabels pen (.ofLine pen.settings.tabWidth raw) labels).ownerAt? cell = some p) :
    Placement.IsFirst Placement.ClaimsBefore
      (fun q => q ∈ labels ∧ q.Covers pen.settings raw cell) p := by
  rw [ownerAt?_ofLabels] at h
  have hmem (q : Placement) :
      q ∈ labels.filter (fun p => (p.underlined pen.settings raw).covers cell) ↔
        q ∈ labels ∧ q.Covers pen.settings raw cell := by
    rw [List.mem_filter, CellRange.covers_natCast]
    rfl
  obtain ⟨hp, hbefore⟩ :=
    Placement.isFirst_owner? (hindices.sublist (List.filter_sublist.map _)) h
  exact ⟨(hmem p).1 hp, fun q hq hne => hbefore q ((hmem q).2 hq) hne⟩

/-- A cell where connectors hang follows the rules. -/
theorem underlines_junction (h : Placement.IsFirst Placement.SpeaksBefore
    (fun q => q ∈ labels ∧ q.HangsAt pen.settings raw cell) p) :
    (pen.draw p pen.glyphs.junction).Underlines pen raw labels cell := by
  obtain ⟨hp, hhangs⟩ := h.mem
  have hglyph : pen.glyphs.junction.isBlank = false :=
    (pen.isSingle_of_mem (Glyphs.mem_inCells_of_mem_underlines
      (by simp [Glyphs.underlines]))).not_blank
  refine ⟨?_, fun hblank => ?_, ⟨fun _ => ⟨p, hp, hhangs⟩, fun _ => rfl⟩, fun _ => ⟨p, h, rfl⟩,
    fun hnone => absurd hhangs (hnone p hp)⟩
  · exact iff_of_false (by simp [Pen.draw, hglyph]) fun hnone => hnone p hp hhangs.covers
  · rw [Pen.draw, hglyph] at hblank
    cases hblank

/-- So does a cell that labels cover without one. -/
theorem underlines_owner (h : Placement.IsFirst Placement.ClaimsBefore
    (fun q => q ∈ labels ∧ q.Covers pen.settings raw cell) p)
    (hnone : ∀ q ∈ labels, ¬ q.HangsAt pen.settings raw cell) :
    (pen.draw p (pen.glyphs.underlineOf p.label.emphasis)).Underlines pen raw labels cell := by
  obtain ⟨hp, hcovers⟩ := h.mem
  have hglyph : (pen.glyphs.underlineOf p.label.emphasis).isBlank = false :=
    (pen.isSingle_of_mem (Glyphs.mem_inCells_of_mem_underlines
      (pen.glyphs.underlineOf_mem _))).not_blank
  refine ⟨?_, fun hblank => ?_, ?_, fun ⟨q, hq, hhangs⟩ => absurd hhangs (hnone q hq),
    fun _ _ => ⟨p, h, rfl⟩⟩
  · exact iff_of_false (by simp [Pen.draw, hglyph]) fun hfree => hfree p hp hcovers
  · rw [Pen.draw, hglyph] at hblank
    cases hblank
  · exact iff_of_false (pen.settings.charSet.underlineOf_ne_junction _)
      fun ⟨q, hq, hhangs⟩ => hnone q hq hhangs

/-- So does a cell that no label covers. -/
theorem underlines_blank (h : ∀ p ∈ labels, ¬ p.Covers pen.settings raw cell) :
    Cell.blank.Underlines pen raw labels cell := by
  have hnone : ¬ ∃ p ∈ labels, p.HangsAt pen.settings raw cell :=
    fun ⟨p, hp, hhangs⟩ => h p hp hhangs.covers
  exact ⟨iff_of_true rfl h, fun _ => rfl,
    iff_of_false pen.settings.charSet.blank_ne_junction hnone, fun hhangs => absurd hhangs hnone,
    fun _ ⟨p, hp, hcovers⟩ => absurd hcovers (h p hp)⟩

/-- **Every cell follows the rules.** -/
theorem underlines_underlineCell (hindices : (labels.map (·.index)).Nodup) (cell : Nat) :
    (underlineCell pen (ofLabels pen (.ofLine pen.settings.tabWidth raw) labels)
      (ofLabels pen (.ofLine pen.settings.tabWidth raw) labels).withMessages cell).Underlines
        pen raw labels cell := by
  rw [withMessages_ofLabels]
  unfold underlineCell
  split
  · next p hp => exact underlines_junction (isFirst_attachedAt? hindices hp)
  · next hattached =>
    split
    · next p hp =>
      have hcell := underlines_owner (isFirst_ownerAt? hindices hp)
        (attachedAt?_eq_none_iff.1 hattached)
      cases hemphasis : p.label.emphasis <;> rwa [hemphasis] at hcell
    · next howner =>
      refine underlines_blank fun p hp hcovers => ?_
      obtain ⟨q, hq⟩ := exists_ownerAt? ((covers_ofLabels_iff pen).2 ⟨p, hp, hcovers⟩)
      rw [howner] at hq
      cases hq

/-- Where no message hangs, the row shows how the label with the best claim is underlined. -/
theorem getElem?_underline_of_isFirst (hindices : (labels.map (·.index)).Nodup)
    (hfirst : Placement.IsFirst Placement.ClaimsBefore
      (fun q => q ∈ labels ∧ q.Covers pen.settings raw cell) p)
    (hsilent : ∀ q ∈ labels, ¬ q.HangsAt pen.settings raw cell) :
    ((underline pen (ofLabels pen (.ofLine pen.settings.tabWidth raw) labels)).map
      (·.glyph))[cell]? = some (pen.glyphs.underlineOf p.label.emphasis) := by
  obtain ⟨hp, hcovers⟩ := hfirst.mem
  have hlt := lt_width ((covers_ofLabels_iff pen).2 ⟨p, hp, hcovers⟩)
  obtain ⟨q, hq, hcell⟩ :=
    (underlines_underlineCell hindices cell).underline hsilent ⟨p, hp, hcovers⟩
  have heq : q = p := Classical.byContradiction fun hne =>
    (hfirst.before_others q hq.mem hne).asymm (hq.before_others p hfirst.mem (Ne.symm hne))
  rw [List.getElem?_map, getElem?_underline, if_pos hlt, hcell, heq]
  rfl

end Marks

/-! ## Rows -/

/-- **The row below the labels of a line** follows the rules. -/
theorem Snippet.underlines_underlineRow (pen : Pen) (s : Snippet) (line : Nat)
    (pending : List Placement) (raw : Text) {labels : List Placement} (hne : labels ≠ [])
    (hindices : (labels.map (·.index)).Nodup) :
    (underlineRow pen s line pending
      (.ofLabels pen (.ofLine pen.settings.tabWidth raw) labels)).Underlines pen raw labels := by
  have hproper := Marks.isProper_ofLabels pen (.ofLine pen.settings.tabWidth raw) labels
  have hmarks : Marks.ofLabels pen (.ofLine pen.settings.tabWidth raw) labels ≠ [] :=
    fun hnil => hne (List.map_eq_nil_iff.1 hnil)
  refine ⟨fun p _ => ?_, fun cell c hc => ?_, ?_, Row.written_underline hproper hmarks rfl rfl⟩
  · obtain ⟨hstart, hstop⟩ := p.isProper_underlined pen.settings raw
    exact ⟨Nat.lt_of_le_of_lt hstart hstop, hstart, hstop⟩
  · rw [underlineRow, Marks.getElem?_underline] at hc
    split at hc
    · rw [← Option.some.inj hc]
      exact Marks.underlines_underlineCell hindices cell
    · cases hc
  · obtain ⟨last, hwidth, hlast⟩ := Marks.exists_last hproper hmarks
    refine ⟨last, ?_, (Marks.covers_ofLabels_iff pen).1 hlast, fun p hp cell hcell => ?_⟩
    · rw [underlineRow, Marks.underline, List.length_map, List.length_range, hwidth]
    · have hlt := Marks.lt_width ((Marks.covers_ofLabels_iff pen).2 ⟨p, hp, hcell⟩)
      omega

/-- A cell that a label covers is in the row, and not blank. -/
theorem Row.Underlines.exists_cell {pen : Pen} {raw : Text} {labels : List Placement} {r : Row}
    (h : r.Underlines pen raw labels) {p : Placement} (hp : p ∈ labels) {cell : Nat}
    (hcovers : p.Covers pen.settings raw cell) :
    ∃ c, r.cells[cell]? = some c ∧ c.glyph.isBlank = false := by
  obtain ⟨last, hlength, -, hlast⟩ := h.ends
  have hlt : cell < r.cells.length := by
    rw [hlength]
    exact Nat.lt_succ_of_le (hlast p hp cell hcovers)
  have hcell := List.getElem?_eq_getElem hlt
  refine ⟨_, hcell, Bool.eq_false_iff.2 fun hblank => ?_⟩
  exact (h.cells cell _ hcell).blank_iff.1 hblank p hp hcovers

/-! ## Reports -/

/-- A row of underlines for the labels of a diagnostic that stand in a line of a source. -/
structure Report.DrawsUnderlines (settings : Settings) (registry : Registry) (d : Diagnostic)
    (file : SourceId) (s : Source) (line : Nat) (underline : Row) : Prop where
  registered : registry.source? file = some s
  labelled : d.labelsOn file s line ≠ []
  kind : underline.kind = .underline line
  drawn : ∃ l, s.lines[line]? = some l ∧
    underline.Underlines (pen settings registry d) l.raw (d.labelsOn file s line)

namespace Report

variable {settings : Settings} {registry : Registry} {d : Diagnostic} {file : SourceId} {s : Source}
  {line : Nat}

theorem exists_drawsUnderlines (settings : Settings) (hs : registry.source? file = some s)
    (h : d.labelsOn file s line ≠ []) :
    ∃ source underline rest,
      Snippet.lineRows (pen settings registry d) (.ofFile settings registry d file) s line =
        source :: underline :: rest ∧
      source.kind = .source line ∧ DrawsUnderlines settings registry d file s line underline ∧
      ∀ r ∈ rest, ∀ line, r.kind ≠ .underline line := by
  obtain ⟨l, hl⟩ := Diagnostic.exists_line h
  have hlabels := Snippet.labelsOn_ofFile settings d hs line
  obtain ⟨pending, rest, heq, hrest⟩ := Snippet.lineRows_eq (pen settings registry d)
    (.ofFile settings registry d file) s hl (hlabels ▸ h)
  rw [hlabels] at heq
  exact ⟨_, _, rest, heq, rfl, ⟨hs, h, rfl, l, hl,
    Snippet.underlines_underlineRow _ _ line pending l.raw h (d.nodup_labelsOn file s line)⟩, hrest⟩

/-- A row of underlines in a body is drawn for a line of its source. -/
theorem drawsUnderlines_of_mem_bodyRows {r : Row}
    (hr : r ∈ Snippet.bodyRows (pen settings registry d) (.ofFile settings registry d file))
    (hkind : r.kind = .underline line) :
    ∃ s, DrawsUnderlines settings registry d file s line r := by
  cases hs : registry.source? file with
  | none =>
    have hmissing : (Snippet.ofFile settings registry d file).source = none := by
      simp only [Snippet.ofFile, hs]
    rcases Snippet.kind_of_mem_bodyRows_of_none hmissing hr with hborder | hborder <;>
      rw [hkind] at hborder <;> cases hborder
  | some s =>
    obtain ⟨above, below, hsplit⟩ := List.append_of_mem hr
    obtain ⟨-, e, -, front, back, -, hentry, -, -⟩ := Snippet.exists_entry_of_split
      (Snippet.source_ofFile hs) hsplit (by rw [hkind]; rfl)
    have hmem : r ∈ Snippet.entryRows (pen settings registry d)
        (.ofFile settings registry d file) s e := by
      rw [hentry]
      simp
    cases e with
    | skipped first count =>
      rw [Snippet.entryRows, List.mem_singleton] at hmem
      rw [hmem] at hkind
      cases hkind
    | line line' =>
      by_cases h : d.labelsOn file s line' = []
      · rw [← Snippet.labelsOn_ofFile settings d hs] at h
        exact absurd hkind (Snippet.kind_lineRows _ _ s h hmem line)
      · obtain ⟨source, underline, rest, heq, hsource, hdraws, hrest⟩ :=
          exists_drawsUnderlines settings hs h
        rw [Snippet.entryRows, heq] at hmem
        rcases List.mem_cons.1 hmem with rfl | hmem
        · rw [hsource] at hkind
          cases hkind
        · rcases List.mem_cons.1 hmem with rfl | hmem
          · obtain rfl := RowKind.underline.inj (hdraws.kind.symm.trans hkind)
            exact ⟨s, hdraws⟩
          · exact absurd hkind (hrest r hmem line)

/-- **Underlines follow the rules for shared cells.** In a rich report every line of a source with
labels of one line is followed by a row of underlines: a junction where a message hangs, an
underline of the label with the best claim in the other cells that are covered, blanks between
them, and nothing behind. No report has other rows of underlines. -/
theorem underlines_drawn (settings : Settings) (registry : Registry) (d : Diagnostic) :
    (settings.detail = .rich → ∀ file s line, registry.source? file = some s →
      d.labelsOn file s line ≠ [] →
      ∃ source underline, [source, underline] <:+: (ofDiagnostic settings registry d).rows ∧
        source.kind = .source line ∧ DrawsUnderlines settings registry d file s line underline) ∧
    ∀ r ∈ (ofDiagnostic settings registry d).rows, ∀ line, r.kind = .underline line →
      ∃ file s, DrawsUnderlines settings registry d file s line r := by
  refine ⟨fun hrich file s line hs h => ?_, fun r hr line hkind => ?_⟩
  · obtain ⟨source, underline, rest, heq, hsource, hdraws, -⟩ :=
      exists_drawsUnderlines settings hs h
    have hrows := lineRows_infix_rows settings hrich hs h
    rw [heq] at hrows
    have hpair : [source, underline] <:+: source :: underline :: rest := ⟨[], rest, rfl⟩
    exact ⟨source, underline, hpair.trans hrows, hsource, hdraws⟩
  · rcases part_of_mem_rows hr with ⟨front, -, hr⟩ | ⟨file, -, ⟨first, rfl⟩ | hr⟩ | ⟨column, hr⟩
    · exact absurd hkind (kind_headerRows hr line)
    · cases hkind
    · exact ⟨file, drawsUnderlines_of_mem_bodyRows hr hkind⟩
    · exact absurd hkind (kind_noteRows hr line)

/-- Two labels share a cell, which belongs to the one with the shorter span; the message of the
other one hangs at a cell of its own. -/
theorem underlines_drawn_shared :
    let s : Source := ⟨.snippet "a", "abcd\n", by decide, ⟨1⟩, false⟩
    let long : Label := { span := ⟨⟨1⟩, 0, 3, by decide, by decide⟩, message := some "m" }
    let short : Label := { span := ⟨⟨1⟩, 2, 4, by decide, by decide⟩, emphasis := .secondary }
    let d : Diagnostic := { level := .error, labels := [long, short] }
    ({} : Settings).detail = .rich ∧ d.labelsOn ⟨1⟩ s 0 ≠ [] ∧
      ∃ source underline,
        [source, underline] <:+: (ofDiagnostic {} ⟨[⟨s, s.name, none⟩]⟩ d).rows ∧
        underline.cells.length = 4 ∧
        (∀ c, underline.cells[1]? = some c → c.glyph = Glyphs.unicode.junction) ∧
        ∀ c, underline.cells[2]? = some c → c.glyph = Glyphs.unicode.secondaryUnderline := by
  intro s long short d
  let a : Placement := ⟨0, long, 0, 3, 0, 0, 0, 3⟩
  let b : Placement := ⟨1, short, 2, 4, 0, 0, 2, 4⟩
  have hlabels : d.labelsOn ⟨1⟩ s 0 = [a, b] := by decide +kernel
  have hne : d.labelsOn ⟨1⟩ s 0 ≠ [] := by
    rw [hlabels]
    exact List.cons_ne_nil _ _
  obtain ⟨source, underline, hpair, -, -, -, -, l, hl, hdrawn⟩ :=
    (underlines_drawn {} ⟨[⟨s, s.name, none⟩]⟩ d).1 rfl ⟨1⟩ s 0 rfl hne
  have hraw : l.raw = "abcd\n" := by
    have hline : (s.lines[0]?.map (·.raw)) = some ("abcd\n" : Text) := by decide +kernel
    rw [hl] at hline
    exact Option.some.inj hline
  rw [hlabels, hraw] at hdrawn
  have ha : a.underlined {} "abcd\n" = ⟨0, 3, 1⟩ := by decide +kernel
  have hb : b.underlined {} "abcd\n" = ⟨2, 4, 3⟩ := by decide +kernel
  have hcovers (p : Placement) (cell : Nat) (r : CellRange) (hr : p.underlined {} "abcd\n" = r) :
      p.Covers {} "abcd\n" cell ↔ r.start ≤ cell ∧ cell < r.stop := by
    rw [Placement.Covers, hr]
  refine ⟨rfl, hne, source, underline, hpair, ?_, fun c hc => ?_, fun c hc => ?_⟩
  · obtain ⟨last, hlength, ⟨p, hp, hlast⟩, hall⟩ := hdrawn.ends
    have hle := hall b (by simp) 3 ((hcovers b 3 _ hb).2 (by decide))
    have hlt : last < 4 := by
      rcases List.mem_pair.1 hp with rfl | rfl
      · exact Nat.lt_succ_of_lt ((hcovers a last _ ha).1 hlast).2
      · exact ((hcovers b last _ hb).1 hlast).2
    omega
  · refine (hdrawn.cells 1 c hc).junction_iff.2 ⟨a, List.mem_cons_self, rfl, ?_⟩
    exact congrArg CellRange.attach ha
  · have hnone : ∀ p ∈ [a, b], ¬ p.HangsAt {} "abcd\n" 2 := by
      rintro p hp ⟨hmessage, hattach⟩
      rcases List.mem_pair.1 hp with rfl | rfl
      · exact absurd ((congrArg CellRange.attach ha).symm.trans hattach) (by decide)
      · exact absurd hmessage (by decide)
    have hshort := (hcovers b 2 _ hb).2 (by decide)
    obtain ⟨p, hfirst, rfl⟩ :=
      (hdrawn.cells 2 c hc).underline hnone ⟨b, by simp, hshort⟩
    rcases List.mem_pair.1 hfirst.mem.1 with rfl | rfl
    · have hbefore := hfirst.before_others b ⟨by simp, hshort⟩ (by decide)
      unfold Placement.ClaimsBefore at hbefore
      exact absurd hbefore (by decide)
    · rfl

end Report

end SourceReport
