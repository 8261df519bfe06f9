import SourceReport.Files.Path

/-!
# Directories above a path

A directory is above a path if the parts of the path begin with those of the directory. Upwards from
a path these directories come one after the other, the path itself first, so the first of them of
which something holds is the nearest one.

* `Path.upwards` lists a path and the directories above it.
* `Path.IsNearest` says that a directory is the nearest one of which something holds.

Results:
* `Path.mem_upwards_iff`: the list holds exactly what is above the path, the path included.
* `Path.find?_upwards_eq_some_iff`, `Path.find?_upwards_eq_none_iff`: the first hit of a search
  upwards is the nearest one.
-/

namespace SourceReport.Path

/-- A path and the directories above it, the nearest one first. -/
def upwards (p : Path) : List Path := p :: p.parents

/-- A directory is a path or above it. -/
def IsAbove (d p : Path) : Prop := d.root = p.root ∧ d.parts <+: p.parts

/-- A directory is the nearest one at or above a path of which something holds: any other one is
above it. -/
structure IsNearest (P : Path → Prop) (p d : Path) : Prop where
  isAbove : d.IsAbove p
  holds : P d
  nearest : ∀ e : Path, e.IsAbove p → P e → e.IsAbove d

namespace IsAbove

variable {d e p : Path}

theorem refl (p : Path) : p.IsAbove p := ⟨rfl, List.prefix_rfl⟩

theorem antisymm (h : d.IsAbove e) (h' : e.IsAbove d) : d = e := by
  have hparts : d.parts = e.parts := h.2.eq_of_length_le h'.2.length_le
  obtain ⟨root, parts⟩ := d
  obtain ⟨root', parts'⟩ := e
  obtain rfl : root = root' := h.1
  exact congrArg (Path.mk root) hparts

end IsAbove

theorem IsNearest.unique {P : Path → Prop} {p d e : Path} (h : IsNearest P p d)
    (h' : IsNearest P p e) : d = e :=
  (h'.nearest d h.isAbove h.holds).antisymm (h.nearest e h'.isAbove h'.holds)

/-- Upwards from a path its parts are taken away one by one. -/
theorem upwards_eq (p : Path) : p.upwards = (List.range (p.parts.length + 1)).map fun n =>
    ⟨p.root, p.parts.take (p.parts.length - n)⟩ := by
  rw [List.range_succ_eq_map, List.map_cons, List.map_map, Nat.sub_zero, List.take_length]
  refine congrArg (List.cons p) (List.map_congr_left fun n _ => ?_)
  rw [Function.comp_apply, Nat.sub_sub, Nat.add_comm]

/-- **Upwards from a path** lies what is above it, the path included. -/
theorem mem_upwards_iff {d p : Path} : d ∈ p.upwards ↔ d.IsAbove p := by
  rw [upwards_eq, List.mem_map]
  constructor
  · rintro ⟨n, -, rfl⟩
    exact ⟨rfl, List.take_prefix ..⟩
  · rintro ⟨hroot, hparts⟩
    refine ⟨p.parts.length - d.parts.length, List.mem_range.2 (by omega), ?_⟩
    rw [Nat.sub_sub_self hparts.length_le, ← List.prefix_iff_eq_take.1 hparts, ← hroot]

/-- Of two directories upwards from a path the later one is above the earlier one. -/
theorem pairwise_upwards (p : Path) : p.upwards.Pairwise fun d e => e.IsAbove d := by
  rw [upwards_eq, List.pairwise_map]
  exact List.pairwise_lt_range.imp fun hlt => ⟨rfl, List.take_prefix_take_left (by omega)⟩

section Search

variable {P : Path → Bool} {p : Path}

theorem isNearest_of_find?_upwards {d : Path} (h : p.upwards.find? P = some d) :
    IsNearest (P · = true) p d := by
  obtain ⟨hd, before, after, heq, hbefore⟩ := List.find?_eq_some_iff_append.1 h
  have hsorted := p.pairwise_upwards
  rw [heq, List.pairwise_append, List.pairwise_cons] at hsorted
  refine ⟨mem_upwards_iff.1 (List.mem_of_find?_eq_some h), hd, fun e he hPe => ?_⟩
  rw [← mem_upwards_iff, heq, List.mem_append, List.mem_cons] at he
  rcases he with he | rfl | he
  · exact absurd hPe (by simpa using hbefore e he)
  · exact .refl e
  · exact hsorted.2.1.1 e he

/-- **The first hit of a search upwards** is the nearest one. -/
theorem find?_upwards_eq_some_iff {d : Path} :
    p.upwards.find? P = some d ↔ IsNearest (P · = true) p d := by
  refine ⟨isNearest_of_find?_upwards, fun h => ?_⟩
  cases hfind : p.upwards.find? P with
  | none => exact absurd h.holds (List.find?_eq_none.1 hfind d (mem_upwards_iff.2 h.isAbove))
  | some e => rw [(isNearest_of_find?_upwards hfind).unique h]

theorem find?_upwards_eq_none_iff :
    p.upwards.find? P = none ↔ ∀ d : Path, d.IsAbove p → ¬ P d = true := by
  simp only [List.find?_eq_none, mem_upwards_iff]

end Search

open Classical in
/-- If something holds of a directory above a path, it holds of a nearest one. -/
theorem exists_isNearest {P : Path → Prop} {p d : Path} (hd : d.IsAbove p) (h : P d) :
    ∃ e, IsNearest P p e := by
  cases hfind : p.upwards.find? fun e => decide (P e) with
  | none => exact absurd (decide_eq_true h) (find?_upwards_eq_none_iff.1 hfind d hd)
  | some e => exact ⟨e, by simpa using find?_upwards_eq_some_iff.1 hfind⟩

end SourceReport.Path
