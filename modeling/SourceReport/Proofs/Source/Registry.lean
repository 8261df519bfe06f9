import Mathlib.Data.List.Basic
import SourceReport.Source.Registry

/-!
# What is registered

A registry never forgets a source: registering one adds its identity, and showing a source under
another name keeps all identities.

Results:
* `Registry.contains_iff_mem_ids`: a source can be looked up exactly if its identity is listed.
* `Registry.mem_ids_insert`, `Registry.ids_showAs`: the identities after either change.
* `Registry.insert_eq_error_iff`, `Registry.find?_insert`: which source is refused, and what is
  found after one that is not.
-/

namespace SourceReport.Registry

variable {r r' : Registry} {id : SourceId}

theorem contains_iff_mem_ids : r.contains id = true ↔ id ∈ r.ids := by
  simp [contains, find?, ids]

theorem ids_modify {f : Registered → Registered}
    (h : ∀ e : Registered, e.source.id = id → (f e).source.id = id) :
    (r.modify id f).ids = r.ids := by
  unfold modify ids
  rw [List.map_map]
  refine List.map_congr_left fun e _ => ?_
  by_cases he : e.source.id = id
  · rw [Function.comp_apply, if_pos he, h e he, he]
  · rw [Function.comp_apply, if_neg he]

theorem mem_ids_of_source? {s : Source} (h : r.source? id = some s) : id ∈ r.ids := by
  obtain ⟨e, he, -⟩ := Option.map_eq_some_iff.1 h
  exact contains_iff_mem_ids.1 (Option.isSome_iff_exists.2 ⟨e, he⟩)

/-- **Registering a source** adds its identity. -/
theorem mem_ids_insert {s : Source} {replace : Bool} {held : Option Nat}
    (h : r.insert s replace held = .ok (id, r')) :
    id = s.id ∧ ∀ other, other ∈ r'.ids ↔ other ∈ r.ids ∨ other = s.id := by
  unfold insert at h
  cases hsource : r.source? s.id with
  | none =>
    simp only [hsource, Except.ok.injEq, Prod.mk.injEq] at h
    obtain ⟨rfl, rfl⟩ := h
    exact ⟨rfl, fun other => by simp [ids]⟩
  | some existing =>
    -- The identity was listed before, so a replaced source and a known one change no identities.
    have hsame : ∀ other, other ∈ r.ids ↔ other ∈ r.ids ∨ other = s.id := by
      intro other
      refine ⟨Or.inl, ?_⟩
      rintro (hother | rfl)
      · exact hother
      · exact mem_ids_of_source? hsource
    simp only [hsource] at h
    split at h
    · simp only [Except.ok.injEq, Prod.mk.injEq] at h
      obtain ⟨rfl, rfl⟩ := h
      have hids : (r.modify s.id fun _ => ⟨s, s.name, held⟩).ids = r.ids :=
        ids_modify fun _ _ => rfl
      exact ⟨rfl, fun other => by rw [hids]; exact hsame other⟩
    · split at h
      · simp only [Except.ok.injEq, Prod.mk.injEq] at h
        obtain ⟨rfl, rfl⟩ := h
        exact ⟨rfl, hsame⟩
      · cases h

/-- **Another name** for a source keeps the identities. -/
theorem ids_showAs {name : SourceName} (h : r.showAs id name = some r') : r'.ids = r.ids := by
  unfold showAs at h
  split at h
  · obtain rfl := Option.some.inj h
    exact ids_modify fun _ he => he
  · cases h

/-! ## What is found -/

theorem id_of_find? {e : Registered} (h : r.find? id = some e) : e.source.id = id :=
  of_decide_eq_true (List.find?_some (p := fun e : Registered => e.source.id = id) h)

theorem find?_modify {f : Registered → Registered}
    (h : ∀ e : Registered, e.source.id = id → (f e).source.id = id) (other : SourceId) :
    (r.modify id f).find? other =
      (r.find? other).map fun e => if e.source.id = id then f e else e := by
  unfold modify find?
  rw [List.find?_map]
  congr 2
  funext e
  by_cases he : e.source.id = id
  · rw [Function.comp_apply, if_pos he, h e he, he]
  · rw [Function.comp_apply, if_neg he]

/-- An entry that is new comes last and is found. -/
theorem find?_append {e : Registered} (h : r.source? e.source.id = none) (other : SourceId) :
    (Registry.mk (r.entries ++ [e])).find? other =
      if other = e.source.id then some e else r.find? other := by
  have hnone : r.entries.find? (fun e' : Registered => e'.source.id = e.source.id) = none :=
    Option.map_eq_none_iff.1 h
  unfold find?
  rw [List.find?_append]
  by_cases hother : other = e.source.id
  · rw [hother, hnone]
    simp
  · simp [hother, Ne.symm hother]

/-- An entry that takes the place of another one is found in its place. -/
theorem find?_replace {e : Registered} {known : Source} (h : r.source? e.source.id = some known)
    (other : SourceId) :
    (r.modify e.source.id fun _ => e).find? other =
      if other = e.source.id then some e else r.find? other := by
  rw [find?_modify fun _ _ => rfl]
  by_cases hother : other = e.source.id
  · obtain ⟨e', he', -⟩ := Option.map_eq_some_iff.1 h
    rw [hother, he', Option.map_some, if_pos (id_of_find? he'), if_pos rfl]
  · rw [if_neg hother]
    cases he : r.find? other with
    | none => rfl
    | some e' => rw [Option.map_some, if_neg (fun h => hother ((id_of_find? he).symm.trans h))]

/-- Another name for a source is the name in its entry. -/
theorem find?_showAs {name : SourceName} (h : r.showAs id name = some r') (other : SourceId) :
    r'.find? other =
      (r.find? other).map fun e => if e.source.id = id then { e with shown := name } else e := by
  unfold showAs at h
  split at h
  · obtain rfl := Option.some.inj h
    exact find?_modify (f := fun e => { e with shown := name }) (fun _ he => he) other
  · cases h

/-- It leaves all sources. -/
theorem source?_showAs {name : SourceName} (h : r.showAs id name = some r') (other : SourceId) :
    r'.source? other = r.source? other := by
  unfold source?
  rw [find?_showAs h, Option.map_map]
  congr 1
  funext e
  by_cases he : e.source.id = id
  · rw [Function.comp_apply, if_pos he]
  · rw [Function.comp_apply, if_neg he]

/-- **A source is refused** if another text stands under its identity and stays there. -/
theorem insert_eq_error_iff {s : Source} {replace : Bool} {held : Option Nat} {e : RegistryError} :
    r.insert s replace held = .error e ↔ replace = false ∧
      ∃ known, r.source? s.id = some known ∧ known.content ≠ s.content ∧
        .collision s.id s.name = e := by
  unfold insert
  cases hsource : r.source? s.id with
  | none => simp
  | some known =>
    cases replace with
    | true => simp
    | false =>
      by_cases hcontent : known.content = s.content
      · simp [hcontent]
      · simp [hcontent]

/-- **A source that is not to replace another one** gets an entry of its own, unless its identity
has one already. -/
theorem find?_insert {s : Source} {held : Option Nat} (h : r.insert s false held = .ok (id, r'))
    (other : SourceId) : r'.find? other =
      (r.find? other).or (if other = s.id then some ⟨s, s.name, held⟩ else none) := by
  unfold insert at h
  cases hsource : r.source? s.id with
  | none =>
    simp only [hsource, Except.ok.injEq, Prod.mk.injEq] at h
    obtain ⟨rfl, rfl⟩ := h
    rw [find?_append hsource]
    by_cases hother : other = s.id
    · have hfind : r.find? s.id = none := Option.map_eq_none_iff.1 hsource
      rw [if_pos hother, if_pos hother, hother, hfind, Option.none_or]
    · rw [if_neg hother, if_neg hother, Option.or_none]
  | some known =>
    simp only [hsource, Bool.false_eq_true, if_false] at h
    split at h
    · simp only [Except.ok.injEq, Prod.mk.injEq] at h
      obtain ⟨rfl, rfl⟩ := h
      by_cases hother : other = s.id
      · obtain ⟨e, he, -⟩ := Option.map_eq_some_iff.1 hsource
        rw [hother, he, Option.some_or]
      · rw [if_neg hother, Option.or_none]
    · cases h

/-- **It is found** afterwards, unless another one was found before, which has the same text. -/
theorem source?_insert {s : Source} {held : Option Nat} (h : r.insert s false held = .ok (id, r')) :
    id = s.id ∧ (∀ known, r.source? s.id = some known → known.content = s.content) ∧
      ∀ other, r'.source? other = (r.source? other).or (if other = s.id then some s else none) := by
  refine ⟨(mem_ids_insert h).1, fun known hknown => ?_, fun other => ?_⟩
  · by_contra hcontent
    obtain ⟨rfl, -⟩ := mem_ids_insert h
    rw [insert_eq_error_iff.2 ⟨rfl, known, hknown, hcontent, rfl⟩] at h
    cases h
  · unfold source?
    rw [find?_insert h, Option.map_or, apply_ite (Option.map _)]
    rfl

end SourceReport.Registry
