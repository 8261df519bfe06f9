import SourceReport.Proofs.Layout.Lanes
import SourceReport.Proofs.Report.Lead
import SourceReport.Proofs.Report.Snippet

/-!
# What a margin shows of a lane

The connector of a label that is open on a row is drawn in the cell of its lane. The cell of a lane
without such a label stays blank, unless a label in a lane before it turns off towards the source
and its horizontal run passes over the cell.

* `Row.IsRunOver` says that a run passes over the cell of a lane.
* `Row.Connects` is what the margin of a row shows of the labels that are open on it.

Results:
* `Lanes.at?_eq_some`, `Lanes.leads_lastBefore?`: which label a cell belongs to.
* `Snippet.connects_between`, `connects_source`, `connects_message`: the margins of the three kinds
  of rows.
-/

namespace SourceReport

/-! ## Rows that connect -/

/-- A label turns off towards the source on a row. -/
def Row.TurnsOff (r : Row) (p : Placement) : Prop :=
  r.kind = .source p.firstLine ∨ r.kind = .source p.lastLine ∨ r.kind = .message p.index 0

/-- A horizontal run that starts in a lane before a lane passes over its cell. -/
def Row.IsRunOver (pen : Pen) (lanes : Lanes) (r : Row) (k : Nat) : Prop :=
  ∃ p lane, (p, lane) ∈ lanes ∧ lane < k ∧ r.TurnsOff p ∧
    ∀ cell, 2 * lane < cell → cell ≤ 2 * k →
      ∃ crosses, r.margin[cell]? = some (pen.drawRun p crosses)

/-- What the margin of a row shows of the labels that are open on it. -/
structure Row.Connects (pen : Pen) (lanes : Lanes) (isOpen : Placement → Prop) (r : Row) :
    Prop where
  /-- A lane has at most one of them. -/
  at_most_one : ∀ k p q, (p, k) ∈ lanes → (q, k) ∈ lanes → isOpen p → isOpen q → p = q
  /-- Its cell is not blank. -/
  drawn : ∀ k p, (p, k) ∈ lanes → isOpen p →
    ∃ c, r.margin[2 * k]? = some c ∧ c.glyph.isBlank = false
  /-- The cell of a lane without one is blank, but for the runs of other lanes. -/
  blank : ∀ k, k < lanes.count → (∀ p, (p, k) ∈ lanes → ¬ isOpen p) →
    r.margin[2 * k]? = some .blank ∨ r.IsRunOver pen lanes k

theorem Row.Connects.congr {pen : Pen} {lanes : Lanes} {f g : Placement → Prop} {r : Row}
    (h : r.Connects pen lanes f) (hfg : ∀ p k, (p, k) ∈ lanes → (g p ↔ f p)) :
    r.Connects pen lanes g where
  at_most_one := fun k p q hp hq hgp hgq =>
    h.at_most_one k p q hp hq ((hfg p k hp).1 hgp) ((hfg q k hq).1 hgq)
  drawn := fun k p hp hgp => h.drawn k p hp ((hfg p k hp).1 hgp)
  blank := fun k hk hnone => h.blank k hk fun p hp hfp => hnone p hp ((hfg p k hp).2 hfp)

/-! ## The label of a cell -/

namespace Lanes

variable {lanes : Lanes} {holds : Placement → Bool} {cell k : Nat} {p q : Placement}

theorem at?_eq_some (h : lanes.at? holds cell = some p) :
    ∃ k, (p, k) ∈ lanes ∧ 2 * k = cell ∧ holds p = true := by
  obtain ⟨⟨q, k⟩, hfind, rfl⟩ := Option.map_eq_some_iff.1 h
  have hcell : 2 * k = cell ∧ holds q = true := by simpa using List.find?_some hfind
  exact ⟨k, List.mem_of_find?_eq_some hfind, hcell⟩

theorem not_of_at?_eq_none (h : lanes.at? holds (2 * k) = none) (hp : (p, k) ∈ lanes) :
    ¬ holds p = true := by
  have hnone := List.find?_eq_none.1 (Option.map_eq_none_iff.1 h) (p, k) hp
  simpa using hnone

/-- A label qualifies for a run over a cell. -/
def Qualifies (holds : Placement → Bool) (cell : Nat) (e : Placement × Nat) : Prop :=
  2 * e.2 < cell ∧ holds e.1 = true

/-- The label in the last lane among those that qualify, if there is one. -/
def Leads (holds : Placement → Bool) (cell : Nat) (seen : Lanes) : Option (Placement × Nat) → Prop
  | none => ∀ e ∈ seen, ¬ Qualifies holds cell e
  | some best => best ∈ seen ∧ Qualifies holds cell best ∧
      ∀ e ∈ seen, Qualifies holds cell e → e.2 ≤ best.2

/-- One more label takes the lead if it qualifies and its lane is a later one. -/
def lead (holds : Placement → Bool) (cell : Nat) (best : Option (Placement × Nat))
    (e : Placement × Nat) : Option (Placement × Nat) :=
  if 2 * e.2 < cell ∧ holds e.1 ∧ best.all (·.2 < e.2) then some e else best

theorem lastBefore?_eq (lanes : Lanes) (holds : Placement → Bool) (cell : Nat) :
    lanes.lastBefore? holds cell = (lanes.foldl (lead holds cell) none).map (·.1) := rfl

theorem Leads.step {seen : Lanes} {best : Option (Placement × Nat)}
    (h : Leads holds cell seen best) (e : Placement × Nat) :
    Leads holds cell (seen ++ [e]) (lead holds cell best e) := by
  unfold lead
  split
  · next htakes =>
    obtain ⟨hcell, hholds, hbest⟩ := htakes
    refine ⟨by simp, ⟨hcell, hholds⟩, fun e' he' hq => ?_⟩
    rcases List.mem_append.1 he' with he' | he'
    · cases best with
      | none => exact absurd hq (h e' he')
      | some b =>
        have hlt : b.2 < e.2 := by simpa using hbest
        exact Nat.le_trans (h.2.2 e' he' hq) (Nat.le_of_lt hlt)
    · exact Nat.le_of_eq (congrArg Prod.snd (List.mem_singleton.1 he'))
  · next hkeeps =>
    cases best with
    | none =>
      intro e' he' hq
      rcases List.mem_append.1 he' with he' | he'
      · exact h e' he' hq
      · rw [List.mem_singleton.1 he'] at hq
        exact hkeeps ⟨hq.1, hq.2, rfl⟩
    | some b =>
      refine ⟨List.mem_append_left _ h.1, h.2.1, fun e' he' hq => ?_⟩
      rcases List.mem_append.1 he' with he' | he'
      · exact h.2.2 e' he' hq
      · rw [List.mem_singleton.1 he'] at hq ⊢
        refine Nat.le_of_not_lt fun hlt => hkeeps ⟨hq.1, hq.2, ?_⟩
        simpa using hlt

/-- **The label before a cell** is the one in the last lane among those that qualify. -/
theorem leads_lastBefore? (lanes : Lanes) (holds : Placement → Bool) (cell : Nat) :
    ∃ best, lanes.lastBefore? holds cell = best.map (·.1) ∧ Leads holds cell lanes best := by
  have hfold : ∀ (rest seen : Lanes) (best : Option (Placement × Nat)),
      Leads holds cell seen best →
        Leads holds cell (seen ++ rest) (rest.foldl (lead holds cell) best) := by
    intro rest
    induction rest with
    | nil =>
      intro seen best h
      rwa [List.append_nil]
    | cons e rest ih =>
      intro seen best h
      have hstep := ih (seen ++ [e]) _ (h.step e)
      rwa [List.append_assoc, List.singleton_append] at hstep
  exact ⟨_, rfl, hfold lanes [] none fun e he => by cases he⟩

end Lanes

/-! ## Cells -/

namespace Pen

variable (pen : Pen)

/-- A cell that draws a glyph is not blank. -/
theorem not_blank_draw (p : Placement) {glyph : CodePoint} (h : glyph ∈ pen.glyphs.inCells) :
    (pen.draw p glyph).glyph.isBlank = false :=
  (pen.isSingle_of_mem h).not_blank

theorem not_blank_drawRun (p : Placement) (crosses : Bool) :
    (pen.drawRun p crosses).glyph.isBlank = false := by
  refine pen.not_blank_draw p ?_
  split <;> simp [Glyphs.inCells]

end Pen

namespace Placement

variable {p : Placement} {line : Nat}

theorem endsAt_or_passes_of_touches (h : p.touches line = true) :
    p.endsAt line = true ∨ p.passes line = true := by
  rw [touches_iff] at h
  simp only [endsAt, passes, decide_eq_true_eq]
  omega

theorem touches_of_passes (h : p.passes line = true) : p.touches line = true := by
  simp only [passes, decide_eq_true_eq] at h
  rw [touches_iff]
  omega

end Placement

namespace Snippet

variable (pen : Pen) {s : Snippet} {line k : Nat} {p : Placement}

/-- The cells of a lane and those before it lie in the margin, with two more behind. -/
theorem lt_marginSize {lanes : Lanes} (hk : k < lanes.count) : 2 * k + 3 < lanes.marginSize := by
  unfold Lanes.marginSize
  split <;> omega

theorem getElem?_map_range {f : Nat → Cell} {size cell : Nat} (h : cell < size) :
    ((List.range size).map f)[cell]? = some (f cell) := by
  rw [List.getElem?_map, List.getElem?_range h, Option.map_some]

namespace IsLaidOut

variable (h : s.IsLaidOut)

include h

/-- Labels in one lane do not touch the same line. -/
theorem eq_of_touches {p q : Placement} (hp : (p, k) ∈ s.lanes) (hq : (q, k) ∈ s.lanes)
    (hpline : p.touches line = true) (hqline : q.touches line = true) : p = q := by
  rw [h.lanes] at hp hq
  rw [Placement.touches_iff] at hpline hqline
  refine Classical.byContradiction fun hne => ?_
  rcases Lanes.lt_or_lt_of_mem_assign hp hq hne with hlt | hlt <;> omega

/-- A label has one lane. -/
theorem lane_unique {j : Nat} (hj : (p, j) ∈ s.lanes) (hk : (p, k) ∈ s.lanes) : j = k := by
  rw [h.lanes, ← Lanes.lane?_assign_eq_some_iff h.indices] at hj hk
  rw [hj, Option.some.injEq] at hk
  exact hk

theorem touches_of_isOpenBelow (hp : (p, k) ∈ s.lanes) {pending : List Placement}
    (hopen : p.isOpenBelow line pending = true) : p.touches line = true := by
  have hordered := h.ordered p (h.mem_of_mem_lanes hp).1
  simp only [Placement.isOpenBelow, decide_eq_true_eq] at hopen
  rw [Placement.touches_iff]
  omega

/-- **The margin of rows below a line** shows the labels that are open there. -/
theorem connects_between {glyph : CodePoint} (hglyph : glyph ∈ pen.glyphs.inCells)
    {pending : List Placement} {r : Row}
    (hmargin : r.margin = betweenMargin pen s glyph line pending) :
    r.Connects pen s.lanes fun p => p.isOpenBelow line pending = true where
  at_most_one := fun _ _ _ hp hq hpopen hqopen => h.eq_of_touches hp hq
    (h.touches_of_isOpenBelow hp hpopen) (h.touches_of_isOpenBelow hq hqopen)
  drawn := by
    intro k p hp hopen
    have hlt := lt_marginSize (Lanes.lt_count hp)
    rw [hmargin, betweenMargin, getElem?_map_range (by omega)]
    refine ⟨_, rfl, ?_⟩
    split
    · exact pen.not_blank_draw _ hglyph
    · next hnone => exact absurd hopen (Lanes.not_of_at?_eq_none hnone hp)
  blank := by
    intro k hk hnone
    have hlt := lt_marginSize hk
    rw [hmargin, betweenMargin, getElem?_map_range (by omega)]
    split
    · next p hat =>
      obtain ⟨j, hp, hj, hopen⟩ := Lanes.at?_eq_some hat
      obtain rfl : j = k := by omega
      exact absurd hopen (hnone p hp)
    · exact Or.inl rfl

/-! ## Source lines -/

theorem touches_of_endsAt (hp : (p, k) ∈ s.lanes) (hends : p.endsAt line = true) :
    p.touches line = true := by
  have hordered := h.ordered p (h.mem_of_mem_lanes hp).1
  simp only [Placement.endsAt, decide_eq_true_eq] at hends
  rw [Placement.touches_iff]
  omega

/-- The run of the label that leads before the cell of a lane passes over all cells up to it. -/
theorem lastBefore?_eq_of_leads {best : Placement × Nat}
    (hleads : Lanes.Leads (·.endsAt line) (2 * k) s.lanes (some best)) {cell : Nat}
    (hafter : 2 * best.2 < cell) (hle : cell ≤ 2 * k) :
    s.lanes.lastBefore? (·.endsAt line) cell = some best.1 := by
  obtain ⟨hmem, ⟨-, hends⟩, hlast⟩ := hleads
  obtain ⟨other, heq, hother⟩ := Lanes.leads_lastBefore? s.lanes (·.endsAt line) cell
  cases other with
  | none => exact absurd ⟨hafter, hends⟩ (hother best hmem)
  | some other =>
    obtain ⟨hmem', ⟨hcell', hends'⟩, hlast'⟩ := hother
    have hge : best.2 ≤ other.2 := hlast' best hmem ⟨hafter, hends⟩
    have hle : other.2 ≤ best.2 := hlast other hmem' ⟨by omega, hends'⟩
    have hlane : best.2 = other.2 := Nat.le_antisymm hge hle
    have hother : (other.1, best.2) ∈ s.lanes := hlane ▸ hmem'
    rw [heq, Option.map_some,
      h.eq_of_touches hother hmem (h.touches_of_endsAt hother hends')
        (h.touches_of_endsAt hmem hends)]

/-- **The margin of a source line** shows the labels that touch it. Those that start or end in it
turn off, and the run of the last one before a cell passes over it. -/
theorem connects_source {r : Row} (hmargin : r.margin = sourceMargin pen s line)
    (hkind : r.kind = .source line) :
    r.Connects pen s.lanes fun p => p.touches line = true where
  at_most_one := fun _ _ _ hp hq => h.eq_of_touches hp hq
  drawn := by
    intro k p hp htouches
    have hlt := lt_marginSize (Lanes.lt_count hp)
    rw [hmargin, sourceMargin, getElem?_map_range (by omega)]
    refine ⟨_, rfl, ?_⟩
    unfold sourceMarginCell
    dsimp only
    split
    · exact pen.not_blank_draw _ (cornerGlyph_mem pen line _)
    · next hends =>
      split
      · split
        · exact pen.not_blank_draw _ (by simp [Glyphs.inCells])
        · exact pen.not_blank_drawRun _ _
      · split
        · exact pen.not_blank_draw _ (by simp [Glyphs.inCells])
        · next hpasses =>
          rcases Placement.endsAt_or_passes_of_touches htouches with he | he
          · exact absurd he (Lanes.not_of_at?_eq_none hends hp)
          · exact absurd he (Lanes.not_of_at?_eq_none hpasses hp)
  blank := by
    intro k hk hnone
    have hlt := lt_marginSize hk
    have hends : s.lanes.at? (·.endsAt line) (2 * k) = none := by
      refine Option.eq_none_iff_forall_not_mem.2 fun p hat => ?_
      obtain ⟨j, hp, hj, he⟩ := Lanes.at?_eq_some hat
      obtain rfl : j = k := by omega
      exact hnone p hp (h.touches_of_endsAt hp he)
    have hpasses : s.lanes.at? (·.passes line) (2 * k) = none := by
      refine Option.eq_none_iff_forall_not_mem.2 fun p hat => ?_
      obtain ⟨j, hp, hj, he⟩ := Lanes.at?_eq_some hat
      obtain rfl : j = k := by omega
      exact hnone p hp (Placement.touches_of_passes he)
    obtain ⟨best, hbest, hleads⟩ := Lanes.leads_lastBefore? s.lanes (·.endsAt line) (2 * k)
    by_cases hrun : pen.settings.arrows = true ∧ best.isSome = true
    · obtain ⟨harrows, hsome⟩ := hrun
      obtain ⟨best, rfl⟩ := Option.isSome_iff_exists.1 hsome
      obtain ⟨hmem, ⟨hcell, he⟩, hlast⟩ := hleads
      refine Or.inr ⟨best.1, best.2, hmem, by omega, ?_, fun cell hafter hle => ?_⟩
      · simp only [Placement.endsAt, decide_eq_true_eq] at he
        rcases he with rfl | rfl
        · exact Or.inl hkind
        · exact Or.inr (Or.inl hkind)
      · -- No label of a lane in between turns off: it would lead.
        have hnoEnds : s.lanes.at? (·.endsAt line) cell = none := by
          refine Option.eq_none_iff_forall_not_mem.2 fun p hat => ?_
          obtain ⟨j, hp, rfl, hend⟩ := Lanes.at?_eq_some hat
          rcases Nat.lt_or_eq_of_le hle with hlt | heq
          · have hj : j ≤ best.2 := hlast (p, j) hp ⟨hlt, hend⟩
            omega
          · rw [heq, hends] at hat
            cases hat
        rw [hmargin, sourceMargin, getElem?_map_range (by omega), sourceMarginCell]
        dsimp only
        rw [hnoEnds, if_pos ⟨harrows, by omega⟩,
          h.lastBefore?_eq_of_leads ⟨hmem, ⟨hcell, he⟩, hlast⟩ hafter hle]
        dsimp only
        rw [if_neg (by omega)]
        exact ⟨_, rfl⟩
    · left
      rw [hmargin, sourceMargin, getElem?_map_range (by omega), sourceMarginCell]
      dsimp only
      rw [hends, hpasses, hbest]
      cases best with
      | none => simp
      | some best =>
        have harrows : ¬ pen.settings.arrows = true := fun harrows => hrun ⟨harrows, rfl⟩
        simp [harrows]

/-! ## Messages -/

/-- **The margin of the first row of a message** shows its label and those that are open below. The
label turns off, and its run passes over the lanes behind. -/
theorem connects_message {lane : Nat} (hp : (p, lane) ∈ s.lanes) (hlast : p.lastLine = line)
    {pending : List Placement} {r : Row}
    (hmargin : r.margin = messageMargin pen s line p lane pending)
    (hkind : r.kind = .message p.index 0) :
    r.Connects pen s.lanes fun q => q = p ∨ q.isOpenBelow line pending = true where
  at_most_one := by
    have htouches : ∀ k q, (q, k) ∈ s.lanes → q = p ∨ q.isOpenBelow line pending = true →
        q.touches line = true := by
      rintro k q hq (rfl | hopen)
      · refine h.touches_of_endsAt hq ?_
        simp [Placement.endsAt, hlast]
      · exact h.touches_of_isOpenBelow hq hopen
    exact fun k q q' hq hq' hopen hopen' =>
      h.eq_of_touches hq hq' (htouches k q hq hopen) (htouches k q' hq' hopen')
  drawn := by
    intro k q hq hopen
    have hlt := lt_marginSize (Lanes.lt_count hq)
    rw [hmargin, messageMargin, getElem?_map_range (by omega)]
    refine ⟨_, rfl, ?_⟩
    unfold messageMarginCell
    dsimp only
    split
    · exact pen.not_blank_draw _ (by simp [Glyphs.inCells])
    · next hlane =>
      split
      · exact pen.not_blank_drawRun _ _
      · split
        · exact pen.not_blank_draw _ (by simp [Glyphs.inCells])
        · next hnone =>
          rcases hopen with rfl | hopen
          · exact absurd (congrArg (2 * ·) (h.lane_unique hq hp)) hlane
          · exact absurd hopen (Lanes.not_of_at?_eq_none hnone hq)
  blank := by
    intro k hk hnone
    have hlt := lt_marginSize hk
    have hlane : k ≠ lane := by
      rintro rfl
      exact hnone p hp (Or.inl rfl)
    have hat : s.lanes.at? (·.isOpenBelow line pending) (2 * k) = none := by
      refine Option.eq_none_iff_forall_not_mem.2 fun q hat => ?_
      obtain ⟨j, hq, hj, hopen⟩ := Lanes.at?_eq_some hat
      obtain rfl : j = k := by omega
      exact hnone q hq (Or.inr hopen)
    by_cases hrun : pen.settings.arrows = true ∧ lane < k
    · obtain ⟨harrows, hbefore⟩ := hrun
      refine Or.inr ⟨p, lane, hp, hbefore, Or.inr (Or.inr hkind), fun cell hafter hle => ?_⟩
      rw [hmargin, messageMargin, getElem?_map_range (by omega), messageMarginCell]
      rw [if_neg (by omega), if_pos ⟨harrows, hafter, by omega⟩]
      exact ⟨_, rfl⟩
    · left
      rw [hmargin, messageMargin, getElem?_map_range (by omega), messageMarginCell]
      rw [if_neg (by omega), if_neg (fun hand => hrun ⟨hand.1, by omega⟩), hat]

end IsLaidOut

end Snippet

end SourceReport
