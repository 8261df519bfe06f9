import SourceReport.Proofs.Source.Position

/-!
# Places for people

The line and the column of an offset are counted from 1, the column in characters. An offset between
two characters has both; the boundaries at or before an offset are such offsets.

Results:
* `Source.location?_of_prefix`: the place behind a prefix of a line.
* `Source.exists_location?_floorBoundary`: an offset that has been repaired has a place.
-/

namespace SourceReport.Source

variable {s : Source} {n o : Nat} {l : Line}

/-- **The place of a boundary**: its line, and the characters in front of it. -/
theorem location?_of_prefix {q : Text} (hl : s.lines[n]? = some l) (hq : q <+: l.raw)
    (hlt : ∀ next, s.lines[n + 1]? = some next → l.offset + q.utf8Length < next.offset) :
    s.location? (l.offset + q.utf8Length : Nat) = .ok ⟨n + 1, q.length + 1⟩ := by
  obtain ⟨-, hindex, -⟩ := (s.lines_getElem?_eq n l).1 hl
  have hboundary := isBoundary_of_prefix hl hq
  have hof : s.lineOf? (l.offset + q.utf8Length : Nat) = .ok l := by
    rw [lineOf?_of_le (le_length_of_isBoundary hboundary),
      lineFrom_eq hl (Nat.le_add_right _ _) hlt]
  have hline : s.line? (l.index : Int) = .ok l := line?_eq_ok_iff.2 ⟨n, by rw [hindex], hl⟩
  have hbytes : (((l.offset + q.utf8Length : Nat) : Int) - l.offset).toNat = q.utf8Length := by
    omega
  have hinside : ¬ (((l.offset + q.utf8Length : Nat) : Int) < l.offset ∨
      (l.stop : Int) < (l.offset + q.utf8Length : Nat)) := by
    obtain ⟨rest, hrest⟩ := hq
    have hlength : l.raw.utf8Length = q.utf8Length + Text.utf8Length rest := by
      rw [← hrest, Text.utf8Length_append]
    have hstop : l.stop = l.offset + l.raw.utf8Length := rfl
    omega
  simp only [location?, hof, columnIn?, hline, bind, Except.bind, pure, Except.pure]
  rw [if_neg hinside, if_pos hboundary, hbytes, Text.takeBytes_of_prefix hq, hindex]

/-- An offset that has been repaired has a place. -/
theorem exists_location?_floorBoundary (s : Source) (o : Int) :
    ∃ place, s.location? (s.floorBoundary o) = .ok place := by
  have hboundary : s.isBoundary (s.floorBoundary o) = true := by
    have hnat := (s.isBoundary_floorBoundary o.toNat).1
    rwa [floorBoundary, Int.toNat_natCast] at hnat
  obtain ⟨n, l, q, hl, hq, heq, hlt⟩ := exists_prefix_of_isBoundary hboundary
  rw [heq] at hlt ⊢
  exact ⟨_, location?_of_prefix hl hq hlt⟩

end SourceReport.Source
