import Mathlib.Data.List.Basic
import SourceReport.Proofs.Source.Registry

/-!
# Registering many sources

The first source with an identity takes its place in a registry, and those after it change nothing:
they are refused if they have another text. So what a registry holds in the end tells which sources
were refused, and the order in which they came matters only where one of them was.

* `Registry.insertAll` registers sources in order and goes on after one that is refused.
* `Source.Collides` says that two sources have one identity and two texts.

Results:
* `Registry.find?_insertAll`, `Registry.answers_insertAll`: what is found in the end, and what was
  answered.
* `Registry.exists_error_iff`: a source is refused exactly if two of the sources collide.
* `Registry.insertAll_perm`: sources in another order.
-/

namespace SourceReport

/-- Another source has the same identity and another text. -/
def Source.Collides (s t : Source) : Prop := s.id = t.id ∧ s.content ≠ t.content

instance (s t : Source) : Decidable (s.Collides t) :=
  inferInstanceAs (Decidable (s.id = t.id ∧ s.content ≠ t.content))

namespace Registry

variable {r : Registry} {ss ss' : List Source} {s : Source} {id : SourceId}

/-- Registers sources in order, none of them to replace another one. A source that is refused leaves
the registry, and those behind it are registered all the same. -/
def insertAll (r : Registry) : List Source → List (Except RegistryError SourceId) × Registry
  | [] => ([], r)
  | s :: rest =>
    match r.insert s false none with
    | .error e => (.error e :: (r.insertAll rest).1, (r.insertAll rest).2)
    | .ok (id, r') => (.ok id :: (r'.insertAll rest).1, (r'.insertAll rest).2)

/-- The text under an identity. -/
def content? (r : Registry) (id : SourceId) : Option Text := (r.source? id).map (·.content)

theorem content?_eq (r : Registry) (id : SourceId) :
    r.content? id = (r.find? id).map (·.source.content) := Option.map_map _ _ _

theorem insertAll_of_error {e : RegistryError} (h : r.insert s false none = .error e)
    (rest : List Source) :
    r.insertAll (s :: rest) = (.error e :: (r.insertAll rest).1, (r.insertAll rest).2) := by
  rw [insertAll, h]

theorem insertAll_of_ok {r' : Registry} (h : r.insert s false none = .ok (id, r'))
    (rest : List Source) :
    r.insertAll (s :: rest) = (.ok id :: (r'.insertAll rest).1, (r'.insertAll rest).2) := by
  rw [insertAll, h]

theorem isSome_find?_of_source? {known : Source} (h : r.source? id = some known) :
    ∃ e, r.find? id = some e ∧ e.source = known := Option.map_eq_some_iff.1 h

/-- **The first source with an identity** is found in the end, under its own name, unless one was
found before. -/
theorem find?_insertAll (r : Registry) (ss : List Source) (id : SourceId) :
    (r.insertAll ss).2.find? id =
      (r.find? id).or ((ss.find? fun s => s.id = id).map fun s => ⟨s, s.name, none⟩) := by
  induction ss generalizing r with
  | nil => exact Option.or_none.symm
  | cons s rest ih =>
    rw [List.find?_cons]
    cases hinsert : r.insert s false none with
    | error e =>
      rw [insertAll_of_error hinsert, ih]
      obtain ⟨-, known, hknown, -⟩ := insert_eq_error_iff.1 hinsert
      obtain ⟨entry, hentry, -⟩ := isSome_find?_of_source? hknown
      by_cases hid : s.id = id
      · rw [← hid, hentry, Option.some_or, Option.some_or]
      · simp [hid]
    | ok added =>
      obtain ⟨_, r'⟩ := added
      rw [insertAll_of_ok hinsert, ih, find?_insert hinsert, Option.or_assoc]
      by_cases hid : s.id = id
      · simp [hid]
      · simp [hid, Ne.symm hid]

/-- **Every answer** can be read off the registry in the end: a source was refused exactly if
another text is found under its identity. -/
theorem answers_insertAll (r : Registry) (ss : List Source) :
    (r.insertAll ss).1 = ss.map fun s =>
      if (r.insertAll ss).2.content? s.id = some s.content then .ok s.id
      else .error (.collision s.id s.name) := by
  induction ss generalizing r with
  | nil => rfl
  | cons s rest ih =>
    rw [List.map_cons]
    -- The entry that is found after the first source stays.
    have hstays : ∀ {r' : Registry} {e : Registered}, r'.find? s.id = some e →
        (r'.insertAll rest).2.content? s.id = some e.source.content := by
      intro r' e he
      rw [content?_eq, find?_insertAll, he, Option.some_or, Option.map_some]
    cases hinsert : r.insert s false none with
    | error e =>
      obtain ⟨-, known, hknown, hcontent, rfl⟩ := insert_eq_error_iff.1 hinsert
      obtain ⟨entry, hentry, rfl⟩ := isSome_find?_of_source? hknown
      rw [insertAll_of_error hinsert]
      dsimp only
      rw [hstays hentry, if_neg fun h => hcontent (Option.some.inj h), ← ih]
    | ok added =>
      obtain ⟨id, r'⟩ := added
      obtain ⟨rfl, hcontent, hsource⟩ := source?_insert hinsert
      have hfound : ∃ known, r'.source? s.id = some known ∧ known.content = s.content := by
        rw [hsource, if_pos rfl]
        cases hknown : r.source? s.id with
        | none => exact ⟨s, rfl, rfl⟩
        | some known => exact ⟨known, rfl, hcontent known hknown⟩
      obtain ⟨known, hknown, hsame⟩ := hfound
      obtain ⟨entry, hentry, rfl⟩ := isSome_find?_of_source? hknown
      rw [insertAll_of_ok hinsert]
      dsimp only
      rw [hstays hentry, hsame, if_pos rfl, ← ih]

/-! ## An empty registry -/

theorem find?_insertAll_empty (ss : List Source) (id : SourceId) :
    (empty.insertAll ss).2.find? id =
      (ss.find? fun s => s.id = id).map fun s => ⟨s, s.name, none⟩ := by
  rw [find?_insertAll]
  rfl

/-- Under the identity of a source stands the text of a source that comes first. -/
theorem exists_content?_insertAll (h : s ∈ ss) : ∃ first ∈ ss, first.id = s.id ∧
    (empty.insertAll ss).2.find? s.id = some ⟨first, first.name, none⟩ := by
  cases hfind : ss.find? fun t => t.id = s.id with
  | none => exact absurd (decide_eq_true rfl) (List.find?_eq_none.1 hfind s h)
  | some first =>
    refine ⟨first, List.mem_of_find?_eq_some hfind, ?_, ?_⟩
    · exact of_decide_eq_true (List.find?_some (p := fun t : Source => t.id = s.id) hfind)
    · rw [find?_insertAll_empty, hfind, Option.map_some]

theorem error_mem_answers_iff {e : RegistryError} : .error e ∈ (r.insertAll ss).1 ↔
    ∃ s ∈ ss, (r.insertAll ss).2.content? s.id ≠ some s.content ∧ e = .collision s.id s.name := by
  rw [answers_insertAll, List.mem_map]
  refine exists_congr fun s => and_congr_right fun _ => ?_
  split
  · next hcontent => simp [hcontent]
  · next hcontent => simp [hcontent, eq_comm]

/-- **A source is refused** exactly if two of the sources collide. -/
theorem exists_error_iff : (∃ e, .error e ∈ (empty.insertAll ss).1) ↔
    ∃ s ∈ ss, ∃ t ∈ ss, s.Collides t := by
  simp only [error_mem_answers_iff]
  constructor
  · rintro ⟨-, s, hs, hcontent, -⟩
    obtain ⟨first, hfirst, hid, hfind⟩ := exists_content?_insertAll hs
    refine ⟨first, hfirst, s, hs, hid, fun hsame => hcontent ?_⟩
    rw [content?_eq, hfind, Option.map_some, hsame]
  · rintro ⟨s, hs, t, ht, hid, hcontent⟩
    -- One of the two has another text than what is found under their identity.
    by_cases hfound : (empty.insertAll ss).2.content? s.id = some s.content
    · exact ⟨_, t, ht, fun h => hcontent (Option.some.inj (hfound.symm.trans (hid ▸ h))), rfl⟩
    · exact ⟨_, s, hs, hfound, rfl⟩

/-- Sources without collisions are found with their texts, and under their names if sources of one
identity have one name. -/
theorem find?_insertAll_of_not_collides (hcollides : ¬ ∃ s ∈ ss, ∃ t ∈ ss, s.Collides t)
    (hs : s ∈ ss) : (empty.insertAll ss).2.content? s.id = some s.content ∧
      ((∀ t ∈ ss, t.id = s.id → t.name = s.name) →
        (empty.insertAll ss).2.shown? s.id = some s.name) := by
  obtain ⟨first, hfirst, hid, hfind⟩ := exists_content?_insertAll hs
  refine ⟨?_, fun hname => ?_⟩
  · have hsame : first.content = s.content := by
      by_contra hcontent
      exact hcollides ⟨first, hfirst, s, hs, hid, hcontent⟩
    rw [content?_eq, hfind, Option.map_some, hsame]
  · rw [shown?, hfind, Option.map_some, hname first hfirst hid]

/-- An identity that no source has finds nothing. -/
theorem find?_insertAll_eq_none (h : ∀ s ∈ ss, s.id ≠ id) :
    (empty.insertAll ss).2.find? id = none := by
  rw [find?_insertAll_empty, List.find?_eq_none.2 fun s hs => by simpa using h s hs]
  rfl

theorem exists_collides_iff_of_perm (h : ss.Perm ss') :
    (∃ s ∈ ss, ∃ t ∈ ss, s.Collides t) ↔ ∃ s ∈ ss', ∃ t ∈ ss', s.Collides t := by
  simp only [h.mem_iff]

/-- An identity that no source has finds nothing in either order. -/
theorem find?_insertAll_perm_of_ne (h : ss.Perm ss') (hid : ∀ s ∈ ss, s.id ≠ id) :
    (empty.insertAll ss).2.find? id = (empty.insertAll ss').2.find? id := by
  rw [find?_insertAll_eq_none hid, find?_insertAll_eq_none fun s hs => hid s (h.mem_iff.2 hs)]

/-- **Texts** are found in both orders if there are no collisions. -/
theorem content?_insertAll_perm (h : ss.Perm ss')
    (hcollides : ¬ ∃ s ∈ ss, ∃ t ∈ ss, s.Collides t) (id : SourceId) :
    (empty.insertAll ss).2.content? id = (empty.insertAll ss').2.content? id := by
  have hcollides' := mt (exists_collides_iff_of_perm h).2 hcollides
  by_cases hid : ∃ s ∈ ss, s.id = id
  · obtain ⟨s, hs, rfl⟩ := hid
    rw [(find?_insertAll_of_not_collides hcollides hs).1,
      (find?_insertAll_of_not_collides hcollides' (h.mem_iff.1 hs)).1]
  · rw [content?_eq, content?_eq, find?_insertAll_perm_of_ne h fun s hs hsid => hid ⟨s, hs, hsid⟩]

/-- **Names** are found in both orders if, besides, sources of one identity have one name. -/
theorem shown?_insertAll_perm (h : ss.Perm ss')
    (hcollides : ¬ ∃ s ∈ ss, ∃ t ∈ ss, s.Collides t)
    (hnames : ∀ s ∈ ss, ∀ t ∈ ss, s.id = t.id → s.name = t.name) (id : SourceId) :
    (empty.insertAll ss).2.shown? id = (empty.insertAll ss').2.shown? id := by
  have hcollides' := mt (exists_collides_iff_of_perm h).2 hcollides
  by_cases hid : ∃ s ∈ ss, s.id = id
  · obtain ⟨s, hs, rfl⟩ := hid
    rw [(find?_insertAll_of_not_collides hcollides hs).2 fun t ht => hnames t ht s hs,
      (find?_insertAll_of_not_collides hcollides' (h.mem_iff.1 hs)).2 fun t ht =>
        hnames t (h.mem_iff.2 ht) s hs]
  · rw [shown?, shown?, find?_insertAll_perm_of_ne h fun s hs hsid => hid ⟨s, hs, hsid⟩]

/-- **Sources in another order** are registered alike. In both orders a source is refused exactly if
two of them collide, and for that reason only. If none is refused, each identity finds one text in
both, and it is shown under one name provided that sources of one identity have one name. -/
theorem insertAll_perm {ss ss' : List Source} (h : ss.Perm ss') :
    let x := insertAll empty ss
    let y := insertAll empty ss'
    ((∃ e, .error e ∈ x.1) ↔ ∃ s ∈ ss, ∃ t ∈ ss, s.Collides t) ∧
    ((∃ e, .error e ∈ y.1) ↔ ∃ s ∈ ss, ∃ t ∈ ss, s.Collides t) ∧
    (∀ e, .error e ∈ x.1 ∨ .error e ∈ y.1 → ∃ s ∈ ss, e = .collision s.id s.name) ∧
    ((¬ ∃ e, .error e ∈ x.1) →
      (∀ id, x.2.content? id = y.2.content? id) ∧
      ((∀ s ∈ ss, ∀ t ∈ ss, s.id = t.id → s.name = t.name) →
        ∀ id, x.2.shown? id = y.2.shown? id)) := by
  have hcollides := exists_collides_iff_of_perm h
  refine ⟨exists_error_iff, exists_error_iff.trans hcollides.symm, ?_, fun hnone => ?_⟩
  · rintro e (he | he)
    · obtain ⟨s, hs, -, rfl⟩ := error_mem_answers_iff.1 he
      exact ⟨s, hs, rfl⟩
    · obtain ⟨s, hs, -, rfl⟩ := error_mem_answers_iff.1 he
      exact ⟨s, h.mem_iff.2 hs, rfl⟩
  · rw [exists_error_iff] at hnone
    exact ⟨content?_insertAll_perm h hnone, fun hnames => shown?_insertAll_perm h hnone hnames⟩

/-- One text under a name, twice, without a name and in a file, and the other way round. -/
theorem insertAll_perm_reversed :
    let named : Source := .ofEncodable (.snippet "a") "x" (by decide)
    let unnamed : Source := .ofEncodable .anonymous "x" (by decide)
    let file : Source := .ofEncodable (.file (.ofText "a")) "y" (by decide)
    let ss := [named, unnamed, named, file]
    ss.Perm ss.reverse ∧ (¬ ∃ e, .error e ∈ (empty.insertAll ss).1) ∧
      (∀ id, (empty.insertAll ss).2.content? id = (empty.insertAll ss.reverse).2.content? id) ∧
      ∀ id, (empty.insertAll ss).2.shown? id = (empty.insertAll ss.reverse).2.shown? id := by
  intro named unnamed file ss
  have hperm : ss.Perm ss.reverse := ss.reverse_perm.symm
  have hcollides : ¬ ∃ s ∈ ss, ∃ t ∈ ss, s.Collides t := by decide +kernel
  have hnames : ∀ s ∈ ss, ∀ t ∈ ss, s.id = t.id → s.name = t.name := by decide +kernel
  obtain ⟨hrefused, -, -, hsame⟩ := insertAll_perm hperm
  have hnone := mt hrefused.1 hcollides
  exact ⟨hperm, hnone, (hsame hnone).1, (hsame hnone).2 hnames⟩

end Registry

end SourceReport
