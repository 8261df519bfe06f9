import Mathlib.Data.List.Basic
import Mathlib.Data.List.Nodup

/-!
# Dictionaries

A dictionary keeps values under keys, in the order in which the keys were first set. Setting a key
again replaces its value where it stands.

Results:
* `Dictionary.keys_set`: a key that is new comes last, and no key is lost.
* `Dictionary.get?_set`: only the value of the key changes.
* `Dictionary.get?_ofFirsts`: of several values the first one stays.
-/

namespace SourceReport

/-- Values under keys, each key once. -/
structure Dictionary (κ ν : Type) where
  entries : List (κ × ν)
  nodup : (entries.map (·.1)).Nodup

namespace Dictionary

variable {κ ν : Type}

/-- No key is set. -/
def empty : Dictionary κ ν := ⟨[], List.nodup_nil⟩

/-- The keys in the order in which they were first set. -/
def keys (d : Dictionary κ ν) : List κ := d.entries.map (·.1)

theorem nodup_keys (d : Dictionary κ ν) : d.keys.Nodup := d.nodup

@[simp] theorem keys_empty : (empty : Dictionary κ ν).keys = [] := rfl

variable [DecidableEq κ]

/-- The value of a key. -/
def get? (d : Dictionary κ ν) (k : κ) : Option ν := d.entries.lookup k

/-- The entries with another value of a key. -/
def setEntry (k : κ) (v : ν) : List (κ × ν) → List (κ × ν)
  | [] => [(k, v)]
  | e :: rest => if e.1 = k then (k, v) :: rest else e :: setEntry k v rest

theorem map_fst_setEntry (k : κ) (v : ν) (es : List (κ × ν)) :
    (setEntry k v es).map (·.1) =
      if k ∈ es.map (·.1) then es.map (·.1) else es.map (·.1) ++ [k] := by
  induction es with
  | nil => rfl
  | cons e es ih =>
    unfold setEntry
    by_cases he : e.1 = k
    · simp [he]
    · rw [if_neg he, List.map_cons, ih, List.map_cons]
      by_cases hk : k ∈ es.map (·.1)
      · rw [if_pos hk, if_pos (List.mem_cons_of_mem _ hk)]
      · rw [if_neg hk, if_neg (List.not_mem_cons_of_ne_of_not_mem (Ne.symm he) hk),
          List.cons_append]

theorem lookup_cons_ite (k k' : κ) (v : ν) (es : List (κ × ν)) :
    ((k, v) :: es).lookup k' = if k' = k then some v else es.lookup k' := by
  rw [List.lookup_cons]
  by_cases hk : k' = k
  · rw [if_pos hk, beq_iff_eq.2 hk]
  · rw [if_neg hk, beq_eq_false_iff_ne.2 hk]

theorem lookup_setEntry (k k' : κ) (v : ν) (es : List (κ × ν)) :
    (setEntry k v es).lookup k' = if k' = k then some v else es.lookup k' := by
  induction es with
  | nil => exact lookup_cons_ite k k' v []
  | cons e es ih =>
    obtain ⟨key, value⟩ := e
    unfold setEntry
    by_cases he : key = k
    · subst he
      rw [if_pos rfl, lookup_cons_ite, lookup_cons_ite]
      by_cases hk : k' = key
      · rw [if_pos hk, if_pos hk]
      · rw [if_neg hk, if_neg hk, if_neg hk]
    · rw [if_neg he, lookup_cons_ite, lookup_cons_ite, ih]
      by_cases hkey : k' = key
      · rw [if_pos hkey, if_pos hkey, if_neg (hkey ▸ he)]
      · rw [if_neg hkey, if_neg hkey]

/-- Sets the value of a key. -/
def set (d : Dictionary κ ν) (k : κ) (v : ν) : Dictionary κ ν where
  entries := setEntry k v d.entries
  nodup := by
    rw [map_fst_setEntry]
    split
    · exact d.nodup
    · next hk => exact d.nodup.append (List.nodup_singleton k) (by simpa using hk)

/-- **The keys** stay in their order, and a new one comes last. -/
theorem keys_set (d : Dictionary κ ν) (k : κ) (v : ν) :
    (d.set k v).keys = if k ∈ d.keys then d.keys else d.keys ++ [k] :=
  map_fst_setEntry k v d.entries

/-- **The values** of other keys stay. -/
theorem get?_set (d : Dictionary κ ν) (k k' : κ) (v : ν) :
    (d.set k v).get? k' = if k' = k then some v else d.get? k' :=
  lookup_setEntry k k' v d.entries

theorem isSome_get? {d : Dictionary κ ν} {k : κ} : (d.get? k).isSome = true ↔ k ∈ d.keys := by
  unfold get? keys
  rw [List.lookup_isSome_iff]
  constructor
  · rintro ⟨e, he, hk⟩
    exact List.mem_map.2 ⟨e, he, (eq_of_beq hk).symm⟩
  · rintro hk
    obtain ⟨e, he, rfl⟩ := List.mem_map.1 hk
    exact ⟨e, he, beq_self_eq_true _⟩

theorem get?_eq_none {d : Dictionary κ ν} {k : κ} : d.get? k = none ↔ k ∉ d.keys := by
  rw [← isSome_get?, Bool.not_eq_true, Option.isSome_eq_false_iff, Option.isNone_iff_eq_none]

@[simp] theorem get?_empty (k : κ) : (empty : Dictionary κ ν).get? k = none := rfl

/-- An entry is what its key finds. -/
theorem mem_entries_iff {d : Dictionary κ ν} {k : κ} {v : ν} :
    (k, v) ∈ d.entries ↔ d.get? k = some v := by
  constructor
  · intro h
    obtain ⟨before, after, heq⟩ := List.append_of_mem h
    refine List.lookup_eq_some_iff.2 ⟨before, after, heq, fun e he => ?_⟩
    have hnodup := d.nodup
    rw [heq, List.map_append, List.map_cons] at hnodup
    refine bne_iff_ne.2 fun hk => (List.nodup_append.1 hnodup).2.2 e.1 ?_ k ?_ hk.symm
    · exact List.mem_map_of_mem he
    · exact List.mem_cons_self
  · intro h
    obtain ⟨before, after, heq, -⟩ := List.lookup_eq_some_iff.1 h
    rw [heq]
    exact List.mem_append_right before List.mem_cons_self

/-! ## First values -/

/-- Sets the value of a key that has none. -/
def setDefault (d : Dictionary κ ν) (k : κ) (v : ν) : Dictionary κ ν :=
  if k ∈ d.keys then d else d.set k v

/-- The first value that is given for each key. -/
def ofFirsts (es : List (κ × ν)) : Dictionary κ ν :=
  es.foldl (fun d e => d.setDefault e.1 e.2) .empty

theorem get?_setDefault (d : Dictionary κ ν) (k k' : κ) (v : ν) :
    (d.setDefault k v).get? k' = (d.get? k').or (if k' = k then some v else none) := by
  unfold setDefault
  split
  · next hk =>
    by_cases hsame : k' = k
    · obtain ⟨w, hw⟩ := Option.isSome_iff_exists.1 (isSome_get?.2 hk)
      rw [hsame, hw, Option.some_or]
    · rw [if_neg hsame, Option.or_none]
  · next hk =>
    rw [get?_set]
    by_cases hsame : k' = k
    · rw [if_pos hsame, if_pos hsame, hsame, get?_eq_none.2 hk, Option.none_or]
    · rw [if_neg hsame, if_neg hsame, Option.or_none]

/-- **A key finds** the first value that was given for it. -/
theorem get?_ofFirsts (es : List (κ × ν)) (k : κ) : (ofFirsts es).get? k = es.lookup k := by
  have hfold : ∀ d : Dictionary κ ν,
      (es.foldl (fun d e => d.setDefault e.1 e.2) d).get? k = (d.get? k).or (es.lookup k) := by
    induction es with
    | nil => exact fun d => Option.or_none.symm
    | cons e es ih =>
      intro d
      rw [List.foldl_cons, ih, get?_setDefault, Option.or_assoc, lookup_cons_ite]
      by_cases hk : k = e.1
      · rw [if_pos hk, if_pos hk, Option.some_or]
      · rw [if_neg hk, if_neg hk, Option.none_or]
  exact (hfold .empty).trans Option.none_or

end Dictionary

end SourceReport
