import SourceReport.Diagnostic.Basic
import SourceReport.Proofs.Source.Dictionary
import SourceReport.Proofs.Source.Registry
import SourceReport.Proofs.Source.Store

/-!
# Two dictionaries for one registry

A registry holds the text and the shown name of a source in one entry. A `Cabinet` holds them in two
dictionaries and changes the one without the other: the texts as places of buffers, which can also
be cleared in hand, and the names.

* `Cabinet.IsSound` says that both dictionaries have the same keys, and that each key is the
  identity of its buffer; `Cabinet.Mirrors` says that a workbench shows the same.
* `Cabinet.Step` lists what one operation can do, `Cabinet.Change` says what it may change.

Results:
* `Cabinet.IsSound.step_perform`: every operation is one of the steps.
* `Cabinet.Step.isSound`, `Cabinet.IsSound.change_perform`, `Cabinet.Mirrors.perform`: what each
  step keeps and changes.
* `Cabinet.registrations_run`: what holds after every list of operations, and of one more.
-/

namespace SourceReport

/-- The buffers in hand, and two dictionaries for those that are registered. -/
structure Cabinet where
  buffers : List Source
  /-- The place of each registered buffer. -/
  texts : Dictionary SourceId Nat
  /-- The name each of them is shown under. -/
  names : Dictionary SourceId SourceName

namespace Cabinet

/-- Nothing is in hand or registered. -/
def empty : Cabinet := ⟨[], .empty, .empty⟩

/-- The buffer registered under an identity. -/
def source? (c : Cabinet) (id : SourceId) : Option Source :=
  (c.texts.get? id).bind fun place => c.buffers[place]?

/-- Takes a source in hand; answers its place. -/
def hold (c : Cabinet) (s : Source) : Nat × Cabinet :=
  (c.buffers.length, { c with buffers := c.buffers ++ [s] })

/-- Clears the buffer at a place. -/
def clear (c : Cabinet) (place : Nat) : Cabinet :=
  { c with buffers := c.buffers.modify place Source.clear }

/-- Enters a buffer into both dictionaries. -/
def file (c : Cabinet) (place : Nat) (s : Source) : Cabinet :=
  { c with texts := c.texts.set s.id place, names := c.names.set s.id s.name }

/-- Registers the buffer at a place. -/
def put (c : Cabinet) (place : Nat) (replace : Bool) :
    Option (Except RegistryError (SourceId × Cabinet)) :=
  c.buffers[place]?.map fun s =>
    match c.source? s.id, replace with
    | some known, false =>
      if known.content = s.content then .ok (s.id, c) else .error (.collision s.id s.name)
    | _, _ => .ok (s.id, c.file place s)

/-- Enters a name under a key that is registered. -/
def showAs (c : Cabinet) (id : SourceId) (name : SourceName) : Option Cabinet :=
  if id ∈ c.texts.keys then some { c with names := c.names.set id name } else none

/-- The operations on a cabinet. -/
def store : Store Cabinet where
  hold := hold
  clear := clear
  put := put
  showAs := showAs

variable {c c' : Cabinet} {op : Operation} {a : Answer} {s : Source} {id : SourceId} {place : Nat}

/-! ## Sound cabinets -/

/-- Both dictionaries have the same keys, and each key is the identity of its buffer. -/
structure IsSound (c : Cabinet) : Prop where
  keys : c.names.keys = c.texts.keys
  buffer : ∀ id place, c.texts.get? id = some place → ∃ s, c.buffers[place]? = some s ∧ s.id = id

/-- What is registered stays, with its text and its name. -/
structure Keeps (c c' : Cabinet) : Prop where
  texts : c'.texts = c.texts
  names : c'.names = c.names
  source? : ∀ id, c'.source? id = c.source? id

theorem Keeps.refl (c : Cabinet) : c.Keeps c := ⟨rfl, rfl, fun _ => rfl⟩

theorem isSound_empty : empty.IsSound := ⟨rfl, fun _ _ h => nomatch h⟩

/-- A buffer is found under a key exactly if the key is set. -/
theorem IsSound.source?_eq_none (hc : c.IsSound) : c.source? id = none ↔ id ∉ c.texts.keys := by
  rw [← Dictionary.get?_eq_none]
  unfold source?
  cases hplace : c.texts.get? id with
  | none => simp
  | some place =>
    obtain ⟨s, hs, -⟩ := hc.buffer id place hplace
    simp [hs]

/-- What has a text has a name. -/
theorem IsSound.exists_name (hc : c.IsSound) (hplace : c.texts.get? id = some place) :
    ∃ name, c.names.get? id = some name := by
  have hmem : id ∈ c.names.keys := by
    rw [hc.keys, ← Dictionary.isSome_get?, hplace, Option.isSome_some]
  exact Option.isSome_iff_exists.1 (Dictionary.isSome_get?.2 hmem)

theorem IsSound.keeps_hold (hc : c.IsSound) (s : Source) : c.Keeps (c.hold s).2 where
  texts := rfl
  names := rfl
  source? id := by
    unfold source? hold
    cases hplace : c.texts.get? id with
    | none => rfl
    | some place =>
      obtain ⟨known, hknown, -⟩ := hc.buffer id place hplace
      have hlt := (List.getElem?_eq_some_iff.1 hknown).1
      exact List.getElem?_append_left hlt

theorem IsSound.hold (hc : c.IsSound) (s : Source) : (c.hold s).2.IsSound where
  keys := hc.keys
  buffer id place h := by
    obtain ⟨known, hknown, hid⟩ := hc.buffer id place h
    have hlt := (List.getElem?_eq_some_iff.1 hknown).1
    exact ⟨known, (List.getElem?_append_left hlt).trans hknown, hid⟩

/-- **Clearing** leaves the identities. -/
theorem IsSound.clear (hc : c.IsSound) (place : Nat) : (c.clear place).IsSound where
  keys := hc.keys
  buffer id place' h := by
    obtain ⟨known, hknown, hid⟩ := hc.buffer id place' h
    unfold Cabinet.clear
    rw [List.getElem?_modify, hknown]
    by_cases hplace : place = place'
    · exact ⟨known.clear, by simp [hplace], hid⟩
    · exact ⟨known, by simp [hplace], hid⟩

/-- **Entering a buffer** under its identity adds the same key to both dictionaries. -/
theorem IsSound.file (hc : c.IsSound) (hs : c.buffers[place]? = some s) :
    (c.file place s).IsSound where
  keys := by
    unfold Cabinet.file
    rw [Dictionary.keys_set, Dictionary.keys_set, hc.keys]
  buffer id place' h := by
    unfold Cabinet.file at h ⊢
    rw [Dictionary.get?_set] at h
    split at h
    · next hid =>
      obtain rfl := Option.some.inj h
      exact ⟨s, hs, hid.symm⟩
    · exact hc.buffer id place' h

/-- **Another name** is entered under a key that both dictionaries have. -/
theorem IsSound.showAs (hc : c.IsSound) {name : SourceName} (hid : id ∈ c.texts.keys) :
    IsSound { c with names := c.names.set id name } where
  keys := by
    rw [Dictionary.keys_set, if_pos (hc.keys ▸ hid)]
    exact hc.keys
  buffer := hc.buffer

theorem source?_file (hs : c.buffers[place]? = some s) (id : SourceId) :
    (c.file place s).source? id = if id = s.id then some s else c.source? id := by
  unfold file source?
  rw [Dictionary.get?_set]
  split
  · exact hs
  · rfl

theorem source?_clear (place : Nat) (id : SourceId) :
    (c.clear place).source? id =
      if c.texts.get? id = some place then (c.source? id).map Source.clear else c.source? id := by
  unfold clear source?
  cases hplace : c.texts.get? id with
  | none => rfl
  | some place' =>
    show (c.buffers.modify place Source.clear)[place']? = _
    rw [List.getElem?_modify]
    by_cases h : place = place'
    · simp [h]
    · simp [h, Ne.symm h]

/-! ## Steps -/

/-- The operation registers a source, which is in hand or new. -/
def Offers (c : Cabinet) (op : Operation) (s : Source) (replace : Bool) : Prop :=
  (∃ place, op = .insert place replace ∧ c.buffers[place]? = some s) ∨
    op.new? = some (.ok s, replace)

/-- What one operation can do. -/
inductive Step (c : Cabinet) (op : Operation) : Answer → Cabinet → Prop where
  | held {s : Source} : Step c op (.held c.buffers.length) (c.hold s).2
  | cleared {place : Nat} (operation : op = .clear place) : Step c op .done (c.clear place)
  | shown {id : SourceId} {name : SourceName} (operation : op = .showAs id name)
      (known : id ∈ c.texts.keys) :
      Step c op (.shown true) { c with names := c.names.set id name }
  | unknown {id : SourceId} {name : SourceName} (operation : op = .showAs id name)
      (unknown : id ∉ c.texts.keys) : Step c op (.shown false) c
  | absent : Step c op .absent c
  /-- The source cannot be made. -/
  | unmade {t : Trouble} (cause : ∀ e, t ≠ .registry e) : Step c op (.refused t) c
  | collision {s known : Source} {c₁ : Cabinet} (offers : c.Offers op s false) (keeps : c.Keeps c₁)
      (sound : c₁.IsSound) (found : c.source? s.id = some known)
      (content : known.content ≠ s.content) :
      Step c op (.refused (.registry (.collision s.id s.name))) c₁
  | repeated {s known : Source} {c₁ : Cabinet} (offers : c.Offers op s false) (keeps : c.Keeps c₁)
      (sound : c₁.IsSound) (found : c.source? s.id = some known)
      (content : known.content = s.content) : Step c op (.registered s.id) c₁
  | filed {s : Source} {replace : Bool} {c₁ : Cabinet} {place : Nat}
      (offers : c.Offers op s replace) (keeps : c.Keeps c₁) (sound : c₁.IsSound)
      (held : c₁.buffers[place]? = some s) : Step c op (.registered s.id) (c₁.file place s)

theorem register_repeated {known : Source} (hs : c.buffers[place]? = some s)
    (hknown : c.source? s.id = some known) (hcontent : known.content = s.content) :
    store.register c place false = (.registered s.id, c) :=
  Store.register_of_ok (show c.put place false = _ by simp [put, hs, hknown, hcontent])

theorem register_collision {known : Source} (hs : c.buffers[place]? = some s)
    (hknown : c.source? s.id = some known) (hcontent : known.content ≠ s.content) :
    store.register c place false = (.refused (.registry (.collision s.id s.name)), c) :=
  Store.register_of_error (show c.put place false = _ by simp [put, hs, hknown, hcontent])

theorem register_file {replace : Bool} (hs : c.buffers[place]? = some s)
    (h : replace = true ∨ c.source? s.id = none) :
    store.register c place replace = (.registered s.id, c.file place s) := by
  refine Store.register_of_ok (show c.put place replace = _ from ?_)
  unfold put
  rw [hs, Option.map_some]
  rcases h with rfl | h
  · cases c.source? s.id <;> rfl
  · rw [h]

/-- A source that is offered is at hand when it is registered. -/
theorem IsSound.exists_register (hc : c.IsSound) {replace : Bool} (h : c.Offers op s replace) :
    ∃ c₁ place, c.Keeps c₁ ∧ c₁.IsSound ∧ c₁.buffers[place]? = some s ∧
      store.perform c op = store.register c₁ place replace := by
  rcases h with ⟨place, rfl, hs⟩ | hnew
  · exact ⟨c, place, .refl c, hc, hs, rfl⟩
  · refine ⟨(c.hold s).2, c.buffers.length, hc.keeps_hold s, hc.hold s, ?_, ?_⟩
    · exact List.getElem?_concat_length
    · rw [store.perform_of_new? hnew]
      rfl

/-- **Registering** is one of three steps. -/
theorem IsSound.step_of_offers (hc : c.IsSound) {replace : Bool} (h : c.Offers op s replace) :
    Step c op (store.perform c op).1 (store.perform c op).2 := by
  obtain ⟨c₁, place, hkeeps, hsound, hs, hperform⟩ := hc.exists_register h
  rw [hperform]
  have hfiled (hfree : replace = true ∨ c₁.source? s.id = none) :
      Step c op (store.register c₁ place replace).1 (store.register c₁ place replace).2 := by
    rw [register_file hs hfree]
    exact .filed h hkeeps hsound hs
  cases replace with
  | true => exact hfiled (Or.inl rfl)
  | false =>
    cases hknown : c₁.source? s.id with
    | none => exact hfiled (Or.inr hknown)
    | some known =>
      have hfound := (hkeeps.source? s.id).symm.trans hknown
      by_cases hcontent : known.content = s.content
      · rw [register_repeated hs hknown hcontent]
        exact .repeated h hkeeps hsound hfound hcontent
      · rw [register_collision hs hknown hcontent]
        exact .collision h hkeeps hsound hfound hcontent

theorem ne_registry_of_ofText {name : SourceName} {content : Text} {t : Trouble}
    (h : Operation.ofText name content = .error t) (e : RegistryError) : t ≠ .registry e := by
  unfold Operation.ofText at h
  cases hs : Source.ofText? name content with
  | ok s => rw [hs] at h; cases h
  | error e => rw [hs] at h; cases h; exact fun h => nomatch h

theorem ne_registry_of_ofFile {tree : Tree} {path : Path} {t : Trouble}
    (h : Operation.ofFile tree path = .error t) (e : RegistryError) : t ≠ .registry e := by
  unfold Operation.ofFile at h
  split at h
  · cases h; exact fun h => nomatch h
  · cases hs : tree.readSource? path with
    | ok s => rw [hs] at h; cases h
    | error e => rw [hs] at h; cases h; exact fun h => nomatch h

/-- An operation that makes its source registers it or is refused. -/
theorem IsSound.step_of_new? (hc : c.IsSound) {made : Except Trouble Source} {replace : Bool}
    (h : op.new? = some (made, replace)) (hmade : ∀ t, made = .error t → ∀ e, t ≠ .registry e) :
    Step c op (store.perform c op).1 (store.perform c op).2 := by
  cases made with
  | ok s => exact hc.step_of_offers (Or.inr h)
  | error t =>
    rw [store.perform_of_new? h]
    exact .unmade (hmade t rfl)

/-- **Every operation** is one of the steps. -/
theorem IsSound.step_perform (hc : c.IsSound) (op : Operation) :
    Step c op (store.perform c op).1 (store.perform c op).2 := by
  cases op with
  | make name content =>
    cases hs : Operation.ofText name content with
    | error t =>
      rw [Store.perform_make_of_error hs]
      exact .unmade (ne_registry_of_ofText hs)
    | ok s =>
      rw [Store.perform_make_of_ok hs]
      exact .held
  | clear place => exact .cleared rfl
  | insert place replace =>
    cases hs : c.buffers[place]? with
    | some s => exact hc.step_of_offers (Or.inl ⟨place, rfl, hs⟩)
    | none =>
      have hput : c.put place replace = none := by rw [put, hs, Option.map_none]
      have hperform : store.perform c (.insert place replace) = (.absent, c) :=
        Store.register_of_none hput
      rw [hperform]
      exact .absent
  | insertText name content replace => exact hc.step_of_new? rfl fun _ => ne_registry_of_ofText
  | insertAnonymous content => exact hc.step_of_new? rfl fun _ => ne_registry_of_ofText
  | insertFile tree path replace => exact hc.step_of_new? rfl fun _ => ne_registry_of_ofFile
  | showAs id name =>
    by_cases hid : id ∈ c.texts.keys
    · rw [Store.perform_showAs_of_some (show c.showAs id name = _ from if_pos hid)]
      exact .shown rfl hid
    · rw [Store.perform_showAs_of_none (show c.showAs id name = _ from if_neg hid)]
      exact .unknown rfl hid

/-- **Every step** keeps a cabinet sound. -/
theorem Step.isSound (h : Step c op a c') (hc : c.IsSound) : c'.IsSound := by
  cases h with
  | held => exact hc.hold _
  | cleared => exact hc.clear _
  | shown _ hid => exact hc.showAs hid
  | unknown => exact hc
  | absent => exact hc
  | unmade => exact hc
  | collision _ _ hsound => exact hsound
  | repeated _ _ hsound => exact hsound
  | filed _ _ hsound hs => exact hsound.file hs

/-! ## Changes -/

/-- What an operation with an answer may change. -/
structure Change (c : Cabinet) (op : Operation) (a : Answer) (c' : Cabinet) : Prop where
  /-- No identity is taken out, and one that is registered for the first time comes last. -/
  keys : c'.texts.keys = match a.registered? with
    | some id => if id ∈ c.texts.keys then c.texts.keys else c.texts.keys ++ [id]
    | none => c.texts.keys
  /-- An operation that is refused or has nothing to do changes no entry. -/
  failure : a.isFailure = true → c.Keeps c'
  /-- A source in hand is not registered yet. -/
  held : ∀ place, a = .held place → c.Keeps c'
  /-- The same text again changes no entry. -/
  repeated : ∀ s known, c.Offers op s false → c.source? s.id = some known →
    known.content = s.content → a = .registered s.id ∧ c.Keeps c'
  /-- Another text is refused, and nothing else is. -/
  collision : ∀ e, a = .refused (.registry e) ↔ ∃ s known, c.Offers op s false ∧
    c.source? s.id = some known ∧ known.content ≠ s.content ∧ .collision s.id s.name = e
  /-- What was registered is found under its identity, with its own name unless it was there. -/
  registered : ∀ id, a = .registered id → ∃ s replace, c.Offers op s replace ∧ s.id = id ∧
    ∃ found, c'.source? id = some found ∧ found.content = s.content ∧
      (c.Keeps c' ∨ found = s ∧ c'.names.get? id = some s.name)
  /-- The new name is that of the one entry. -/
  shown : ∀ id name, op = .showAs id name → a = .shown (id ∈ c.texts.keys) ∧
    c'.texts = c.texts ∧ ∀ other, c'.names.get? other =
      if other = id ∧ id ∈ c.texts.keys then some name else c.names.get? other
  /-- Clearing changes no entry, and no text but that of the buffer. -/
  cleared : ∀ place, op = .clear place → c'.texts = c.texts ∧ c'.names = c.names ∧
    ∀ id, c'.source? id =
      if c.texts.get? id = some place then (c.source? id).map Source.clear else c.source? id
  /-- All other entries stay. -/
  others : ∀ id, op.subject a ≠ some id → c'.texts.get? id = c.texts.get? id ∧
    c'.names.get? id = c.names.get? id ∧
    ((∀ place, op ≠ .clear place) → c'.source? id = c.source? id)

theorem Keeps.keys (h : c.Keeps c') : c'.texts.keys = c.texts.keys := by rw [h.texts]

theorem Keeps.others (h : c.Keeps c') (id : SourceId) : c'.texts.get? id = c.texts.get? id ∧
    c'.names.get? id = c.names.get? id ∧
    ((∀ place, op ≠ .clear place) → c'.source? id = c.source? id) :=
  ⟨by rw [h.texts], by rw [h.names], fun _ => h.source? id⟩

theorem Step.keys (h : Step c op a c') (hc : c.IsSound) :
    c'.texts.keys = match a.registered? with
      | some id => if id ∈ c.texts.keys then c.texts.keys else c.texts.keys ++ [id]
      | none => c.texts.keys := by
  cases h with
  | held => rfl
  | cleared => rfl
  | shown => rfl
  | unknown => rfl
  | absent => rfl
  | unmade => rfl
  | collision _ hkeeps => exact hkeeps.keys
  | @repeated s known _ _ hkeeps _ hfound =>
    have hid : s.id ∈ c.texts.keys := by
      by_contra hid
      rw [hc.source?_eq_none.2 hid] at hfound
      cases hfound
    exact hkeeps.keys.trans (if_pos hid).symm
  | @filed s replace c₁ place _ hkeeps =>
    show (c₁.texts.set s.id place).keys = _
    rw [Dictionary.keys_set, hkeeps.texts]
    rfl

theorem Step.failure (h : Step c op a c') (ha : a.isFailure = true) : c.Keeps c' := by
  cases h with
  | held => cases ha
  | cleared => cases ha
  | shown => cases ha
  | unknown => exact .refl c
  | absent => exact .refl c
  | unmade => exact .refl c
  | collision _ hkeeps => exact hkeeps
  | repeated => cases ha
  | filed => cases ha

theorem Step.keeps_of_held (h : Step c op a c') (hc : c.IsSound) (ha : a = .held place) :
    c.Keeps c' := by
  cases h with
  | held => exact hc.keeps_hold _
  | _ => cases ha

theorem Step.exists_of_collision {e : RegistryError} (h : Step c op a c')
    (ha : a = .refused (.registry e)) : ∃ s known, c.Offers op s false ∧
      c.source? s.id = some known ∧ known.content ≠ s.content ∧ .collision s.id s.name = e := by
  cases h with
  | unmade hcause => exact absurd (Answer.refused.inj ha) (hcause e)
  | @collision s known _ hoffers _ _ hfound hcontent =>
    exact ⟨s, known, hoffers, hfound, hcontent, Trouble.registry.inj (Answer.refused.inj ha)⟩
  | _ => cases ha

/-- **What is registered** is found, with its own name unless it was there. -/
theorem Step.exists_of_registered (h : Step c op a c') (ha : a = .registered id) :
    ∃ s replace, c.Offers op s replace ∧ s.id = id ∧
      ∃ found, c'.source? id = some found ∧ found.content = s.content ∧
        (c.Keeps c' ∨ found = s ∧ c'.names.get? id = some s.name) := by
  cases h with
  | @repeated s known _ hoffers hkeeps _ hfound hcontent =>
    obtain rfl := Answer.registered.inj ha
    exact ⟨s, false, hoffers, rfl, known, (hkeeps.source? s.id).trans hfound, hcontent,
      Or.inl hkeeps⟩
  | @filed s replace _ _ hoffers hkeeps _ hs =>
    obtain rfl := Answer.registered.inj ha
    refine ⟨s, replace, hoffers, rfl, s, ?_, rfl, Or.inr ⟨rfl, ?_⟩⟩
    · rw [source?_file hs, if_pos rfl]
    · exact (Dictionary.get?_set _ _ _ _).trans (if_pos rfl)
  | _ => cases ha

/-- **Every step** leaves the entries of all other identities. -/
theorem Step.others (h : Step c op a c') (hc : c.IsSound) (hid : op.subject a ≠ some id) :
    c'.texts.get? id = c.texts.get? id ∧ c'.names.get? id = c.names.get? id ∧
      ((∀ place, op ≠ .clear place) → c'.source? id = c.source? id) := by
  cases h with
  | held => exact (hc.keeps_hold _).others id
  | cleared hop => exact ⟨rfl, rfl, fun hclear => absurd hop (hclear _)⟩
  | @shown id' name hop =>
    subst hop
    have hne : id ≠ id' := fun h => hid (congrArg some h.symm)
    exact ⟨rfl, (Dictionary.get?_set _ _ _ _).trans (if_neg hne), fun _ => rfl⟩
  | unknown => exact (Keeps.refl c).others id
  | absent => exact (Keeps.refl c).others id
  | unmade => exact (Keeps.refl c).others id
  | collision _ hkeeps => exact hkeeps.others id
  | repeated _ hkeeps => exact hkeeps.others id
  | @filed s _ c₁ place _ hkeeps _ hs =>
    have hne : id ≠ s.id := fun h => hid (congrArg some h.symm)
    refine ⟨?_, ?_, fun _ => ?_⟩
    · rw [← hkeeps.texts]
      exact (Dictionary.get?_set _ _ _ _).trans (if_neg hne)
    · rw [← hkeeps.names]
      exact (Dictionary.get?_set _ _ _ _).trans (if_neg hne)
    · rw [source?_file hs, if_neg hne, hkeeps.source?]

section Perform

variable (hc : c.IsSound)

include hc

theorem IsSound.perform_repeated {known : Source} (h : c.Offers op s false)
    (hknown : c.source? s.id = some known) (hcontent : known.content = s.content) :
    (store.perform c op).1 = .registered s.id ∧ c.Keeps (store.perform c op).2 := by
  obtain ⟨c₁, place, hkeeps, -, hs, hperform⟩ := hc.exists_register h
  rw [hperform, register_repeated hs ((hkeeps.source? s.id).trans hknown) hcontent]
  exact ⟨rfl, hkeeps⟩

theorem IsSound.perform_collision {known : Source} (h : c.Offers op s false)
    (hknown : c.source? s.id = some known) (hcontent : known.content ≠ s.content) :
    (store.perform c op).1 = .refused (.registry (.collision s.id s.name)) := by
  obtain ⟨c₁, place, hkeeps, -, hs, hperform⟩ := hc.exists_register h
  rw [hperform, register_collision hs ((hkeeps.source? s.id).trans hknown) hcontent]

omit hc in
theorem perform_showAs (id : SourceId) (name : SourceName) :
    (store.perform c (.showAs id name)).1 = .shown (id ∈ c.texts.keys) ∧
    (store.perform c (.showAs id name)).2.texts = c.texts ∧
    ∀ other, (store.perform c (.showAs id name)).2.names.get? other =
      if other = id ∧ id ∈ c.texts.keys then some name else c.names.get? other := by
  by_cases hid : id ∈ c.texts.keys
  · rw [Store.perform_showAs_of_some (show c.showAs id name = _ from if_pos hid)]
    refine ⟨by simp [hid], rfl, fun other => ?_⟩
    simp only [hid, and_true]
    exact Dictionary.get?_set _ _ _ _
  · rw [Store.perform_showAs_of_none (show c.showAs id name = _ from if_neg hid)]
    exact ⟨by simp [hid], rfl, fun other => by simp [hid]⟩

/-- **What one operation changes** in a sound cabinet. -/
theorem IsSound.change_perform (op : Operation) :
    c.Change op (store.perform c op).1 (store.perform c op).2 where
  keys := (hc.step_perform op).keys hc
  failure := (hc.step_perform op).failure
  held _ := (hc.step_perform op).keeps_of_held hc
  repeated _ _ := hc.perform_repeated
  collision e := by
    refine ⟨(hc.step_perform op).exists_of_collision, ?_⟩
    rintro ⟨s, known, hoffers, hknown, hcontent, rfl⟩
    exact hc.perform_collision hoffers hknown hcontent
  registered _ := (hc.step_perform op).exists_of_registered
  shown := by
    rintro id name rfl
    exact perform_showAs id name
  cleared := by
    rintro place rfl
    exact ⟨rfl, rfl, source?_clear place⟩
  others _ := (hc.step_perform op).others hc

end Perform

/-! ## Workbenches -/

/-- What a registry has to hold under an identity. -/
def registered? (c : Cabinet) (id : SourceId) : Option Registered :=
  (c.texts.get? id).bind fun place => c.buffers[place]?.bind fun s =>
    (c.names.get? id).map fun name => ⟨s, name, some place⟩

/-- A workbench shows what is in the two dictionaries. -/
structure Mirrors (c : Cabinet) (w : Workbench) : Prop where
  held : w.held = c.buffers
  ids : w.registry.ids = c.texts.keys
  find? : ∀ id, w.registry.find? id = c.registered? id

variable {w : Workbench}

theorem mirrors_empty : empty.Mirrors .empty := ⟨rfl, rfl, fun _ => rfl⟩

theorem registered?_file (hs : c.buffers[place]? = some s) (id : SourceId) :
    (c.file place s).registered? id =
      if id = s.id then some ⟨s, s.name, some place⟩ else c.registered? id := by
  unfold file registered?
  rw [Dictionary.get?_set, Dictionary.get?_set]
  by_cases hid : id = s.id
  · simp only [if_pos hid, Option.bind_some, hs, Option.map_some]
  · simp only [if_neg hid]

/-- The source of an entry is the buffer. -/
theorem Mirrors.source? (h : c.Mirrors w) (hc : c.IsSound) (id : SourceId) :
    w.registry.source? id = c.source? id := by
  unfold Registry.source? Cabinet.source?
  rw [h.find?, registered?]
  cases hplace : c.texts.get? id with
  | none => rfl
  | some place =>
    obtain ⟨name, hname⟩ := hc.exists_name hplace
    simp only [Option.bind_some, hname, Option.map_some]
    cases c.buffers[place]? with
    | none => rfl
    | some s => rfl

theorem Mirrors.hold (h : c.Mirrors w) (hc : c.IsSound) (s : Source) :
    (c.hold s).1 = (w.hold s).1 ∧ (c.hold s).2.Mirrors (w.hold s).2 := by
  refine ⟨congrArg List.length h.held.symm, ?_, h.ids, fun id => ?_⟩
  · exact congrArg (· ++ [s]) h.held
  · show w.registry.find? id = _
    rw [h.find?]
    unfold registered? Cabinet.hold
    cases hplace : c.texts.get? id with
    | none => rfl
    | some place =>
      obtain ⟨known, hknown, -⟩ := hc.buffer id place hplace
      have hlt := (List.getElem?_eq_some_iff.1 hknown).1
      simp only [Option.bind_some, List.getElem?_append_left hlt]

/-- A buffer keeps its identity when it is cleared. -/
theorem id_clear_of_held (e : Registered) (place : Nat) :
    (if e.held = some place then { e with source := e.source.clear } else e).source.id =
      e.source.id := by
  split
  · rfl
  · rfl

/-- **Clearing a buffer** in hand clears the entry that holds it, on both sides. -/
theorem Mirrors.clear (h : c.Mirrors w) (place : Nat) :
    (c.clear place).Mirrors (w.clear place) where
  held := congrArg (List.modify · place Source.clear) h.held
  ids := by
    rw [show (c.clear place).texts = c.texts from rfl, ← h.ids]
    unfold Workbench.clear Registry.ids
    rw [List.map_map]
    exact List.map_congr_left fun e _ => id_clear_of_held e place
  find? id := by
    have hfind : (w.clear place).registry.find? id = (w.registry.find? id).map fun e =>
        if e.held = some place then { e with source := e.source.clear } else e := by
      unfold Workbench.clear Registry.find?
      rw [List.find?_map]
      congr 2
      funext e
      exact congrArg (fun known : SourceId => decide (known = id)) (id_clear_of_held e place)
    rw [hfind, h.find?]
    unfold registered? Cabinet.clear
    cases c.texts.get? id with
    | none => rfl
    | some place' =>
      simp only [Option.bind_some, List.getElem?_modify]
      cases c.buffers[place']? with
      | none => rfl
      | some s =>
        cases c.names.get? id with
        | none => rfl
        | some name =>
          by_cases hplace : place = place'
          · simp [hplace]
          · simp [hplace, Ne.symm hplace]

/-- A buffer whose identity is new comes last on both sides. -/
theorem Mirrors.file_append (h : c.Mirrors w) (hc : c.IsSound) (hs : c.buffers[place]? = some s)
    (hsource : w.registry.source? s.id = none) :
    (c.file place s).Mirrors
      { w with registry := ⟨w.registry.entries ++ [⟨s, s.name, some place⟩]⟩ } where
  held := h.held
  ids := by
    have hid : s.id ∉ c.texts.keys := hc.source?_eq_none.1 (h.source? hc s.id ▸ hsource)
    show (w.registry.entries ++ [_]).map _ = (c.texts.set s.id place).keys
    rw [Dictionary.keys_set, if_neg hid, List.map_append, ← h.ids]
    rfl
  find? id := by
    rw [registered?_file hs, ← h.find?]
    exact Registry.find?_append (e := ⟨s, s.name, some place⟩) hsource id

/-- One that replaces another buffer stays at its place among the keys. -/
theorem Mirrors.file_replace (h : c.Mirrors w) (hc : c.IsSound) (hs : c.buffers[place]? = some s)
    {known : Source} (hsource : w.registry.source? s.id = some known) :
    (c.file place s).Mirrors
      { w with registry := w.registry.modify s.id fun _ => ⟨s, s.name, some place⟩ } where
  held := h.held
  ids := by
    have hid : s.id ∈ c.texts.keys := by
      by_contra hid
      rw [h.source? hc, hc.source?_eq_none.2 hid] at hsource
      cases hsource
    show (w.registry.modify s.id _).ids = (c.texts.set s.id place).keys
    rw [Dictionary.keys_set, if_pos hid, ← h.ids]
    exact Registry.ids_modify fun _ _ => rfl
  find? id := by
    rw [registered?_file hs, ← h.find?]
    exact Registry.find?_replace (e := ⟨s, s.name, some place⟩) hsource id

/-- **Registering a buffer** in hand has one outcome on both sides. -/
theorem Mirrors.put (h : c.Mirrors w) (hc : c.IsSound) (place : Nat) (replace : Bool) :
    (c.put place replace = none ∧ w.register place replace = none) ∨
    (∃ e, c.put place replace = some (.error e) ∧ w.register place replace = some (.error e)) ∨
    ∃ id c' w', c.put place replace = some (.ok (id, c')) ∧
      w.register place replace = some (.ok (id, w')) ∧ c'.Mirrors w' := by
  have hheld : w.held[place]? = c.buffers[place]? := by rw [h.held]
  unfold Cabinet.put Workbench.register
  rw [hheld]
  cases hs : c.buffers[place]? with
  | none => exact Or.inl ⟨rfl, rfl⟩
  | some s =>
    refine Or.inr ?_
    simp only [Option.map_some]
    unfold Registry.insert
    rw [← h.source? hc s.id]
    cases hsource : w.registry.source? s.id with
    | none => exact Or.inr ⟨_, _, _, rfl, rfl, h.file_append hc hs hsource⟩
    | some known =>
      cases replace with
      | true => exact Or.inr ⟨_, _, _, rfl, rfl, h.file_replace hc hs hsource⟩
      | false =>
        by_cases hcontent : known.content = s.content
        · simp only [hcontent, if_true]
          exact Or.inr ⟨_, _, _, rfl, rfl, h⟩
        · simp only [if_neg hcontent]
          exact Or.inl ⟨_, rfl, rfl⟩

/-- **Another name** is shown on both sides or on none. -/
theorem Mirrors.showAs (h : c.Mirrors w) (hc : c.IsSound) (id : SourceId) (name : SourceName) :
    (c.showAs id name = none ∧ w.showAs id name = none) ∨
    ∃ c' w', c.showAs id name = some c' ∧ w.showAs id name = some w' ∧ c'.Mirrors w' := by
  unfold Cabinet.showAs Workbench.showAs Registry.showAs
  have hcontains : w.registry.contains id = true ↔ id ∈ c.texts.keys :=
    Registry.contains_iff_mem_ids.trans (by rw [h.ids])
  by_cases hid : id ∈ c.texts.keys
  · rw [if_pos hid, if_pos (hcontains.2 hid), Option.map_some]
    refine Or.inr ⟨_, _, rfl, rfl, h.held, ?_, ?_⟩
    · exact (Registry.ids_modify (f := fun e => { e with shown := name }) fun _ he => he).trans
        h.ids
    · intro other
      show (w.registry.modify id fun e => { e with shown := name }).find? other = _
      rw [Registry.find?_modify (f := fun e => { e with shown := name }) fun _ he => he, h.find?]
      unfold registered?
      cases hplace : c.texts.get? other with
      | none => rfl
      | some place =>
        obtain ⟨s, hs, hother⟩ := hc.buffer other place hplace
        obtain ⟨known, hname⟩ := hc.exists_name hplace
        simp only [Option.bind_some, hs, hname, Option.map_some, Dictionary.get?_set]
        by_cases hsame : other = id
        · simp [hsame, hother]
        · simp [hsame, hother]
  · rw [if_neg hid, if_neg (hid ∘ hcontains.1)]
    exact Or.inl ⟨rfl, rfl⟩

theorem Mirrors.register (h : c.Mirrors w) (hc : c.IsSound) (place : Nat) (replace : Bool) :
    (store.register c place replace).1 = (Workbench.store.register w place replace).1 ∧
      (store.register c place replace).2.Mirrors (Workbench.store.register w place replace).2 := by
  rcases h.put hc place replace with ⟨hput, hregister⟩ | ⟨e, hput, hregister⟩ |
    ⟨id, c', w', hput, hregister, hnext⟩
  · rw [Store.register_of_none (S := store) hput,
      Store.register_of_none (S := Workbench.store) hregister]
    exact ⟨rfl, h⟩
  · rw [Store.register_of_error (S := store) hput,
      Store.register_of_error (S := Workbench.store) hregister]
    exact ⟨rfl, h⟩
  · rw [Store.register_of_ok (S := store) hput,
      Store.register_of_ok (S := Workbench.store) hregister]
    exact ⟨rfl, hnext⟩

theorem Mirrors.registerNew (h : c.Mirrors w) (hc : c.IsSound) (made : Except Trouble Source)
    (replace : Bool) :
    (store.registerNew c made replace).1 = (Workbench.store.registerNew w made replace).1 ∧
      (store.registerNew c made replace).2.Mirrors
        (Workbench.store.registerNew w made replace).2 := by
  cases made with
  | error t => exact ⟨rfl, h⟩
  | ok s =>
    obtain ⟨hplace, hnext⟩ := h.hold hc s
    unfold Store.registerNew
    dsimp only
    rw [show (store.hold c s).1 = (Workbench.store.hold w s).1 from hplace]
    exact hnext.register (hc.hold s) _ replace

/-- **Every operation** has one answer on both sides, and they still show the same. -/
theorem Mirrors.perform (h : c.Mirrors w) (hc : c.IsSound) (op : Operation) :
    (store.perform c op).1 = (Workbench.store.perform w op).1 ∧
      (store.perform c op).2.Mirrors (Workbench.store.perform w op).2 := by
  cases op with
  | make name content =>
    cases hs : Operation.ofText name content with
    | error t =>
      rw [Store.perform_make_of_error hs, Store.perform_make_of_error hs]
      exact ⟨rfl, h⟩
    | ok s =>
      rw [Store.perform_make_of_ok hs, Store.perform_make_of_ok hs]
      obtain ⟨hplace, hnext⟩ := h.hold hc s
      exact ⟨congrArg Answer.held hplace, hnext⟩
  | clear place => exact ⟨rfl, h.clear place⟩
  | insert place replace => exact h.register hc place replace
  | insertText name content replace => exact h.registerNew hc _ replace
  | insertAnonymous content => exact h.registerNew hc _ false
  | insertFile tree path replace => exact h.registerNew hc _ replace
  | showAs id name =>
    rcases h.showAs hc id name with ⟨hcabinet, hbench⟩ | ⟨c', w', hcabinet, hbench, hnext⟩
    · rw [Store.perform_showAs_of_none (S := store) hcabinet,
        Store.perform_showAs_of_none (S := Workbench.store) hbench]
      exact ⟨rfl, h⟩
    · rw [Store.perform_showAs_of_some (S := store) hcabinet,
        Store.perform_showAs_of_some (S := Workbench.store) hbench]
      exact ⟨rfl, hnext⟩

/-! ## Runs -/

/-- **A run keeps** a cabinet sound and a workbench that shows the same, with the same answers. -/
theorem Mirrors.run (h : c.Mirrors w) (hc : c.IsSound) (ops : List Operation) :
    (store.run c ops).1 = (Workbench.store.run w ops).1 ∧
      (store.run c ops).2.Mirrors (Workbench.store.run w ops).2 ∧ (store.run c ops).2.IsSound := by
  induction ops generalizing c w with
  | nil => exact ⟨rfl, h, hc⟩
  | cons op ops ih =>
    obtain ⟨hanswer, hnext⟩ := h.perform hc op
    obtain ⟨hanswers, hmirrors, hsound⟩ := ih hnext ((hc.step_perform op).isSound hc)
    exact ⟨by rw [Store.run, Store.run, hanswer, hanswers], hmirrors, hsound⟩

/-- The keys after a run are those before it, and then the identities registered in it in the order
of their first registration. -/
theorem IsSound.keys_run (hc : c.IsSound) (ops : List Operation) :
    (store.run c ops).2.texts.keys = ((store.run c ops).1.filterMap Answer.registered?).foldl
      (fun seen id => if id ∈ seen then seen else seen ++ [id]) c.texts.keys := by
  induction ops generalizing c with
  | nil => rfl
  | cons op ops ih =>
    have hkeys := (hc.step_perform op).keys hc
    rw [Store.run, List.filterMap_cons]
    rw [ih ((hc.step_perform op).isSound hc), hkeys]
    cases (store.perform c op).1.registered? with
    | none => rfl
    | some id => rfl

/-- **A registry is two dictionaries.** After every list of operations, failures and cleared buffers
included, a registry has given the same answers as two dictionaries and shows what they hold. Both
have the same keys in the same order: the identities that were registered, each once, in the order
of their first registration, and each of them the identity of its buffer. Whatever is done next
changes at most the entry of one identity, and nothing if it fails. -/
theorem registrations_run (ops : List Operation) :
    (store.run empty ops).1 = (Workbench.store.run .empty ops).1 ∧
    (store.run empty ops).2.Mirrors (Workbench.store.run .empty ops).2 ∧
    (store.run empty ops).2.IsSound ∧
    (store.run empty ops).2.texts.keys.Nodup ∧
    (store.run empty ops).2.texts.keys =
      distinct ((store.run empty ops).1.filterMap Answer.registered?) ∧
    ∀ op, (store.run empty ops).2.Change op (store.perform (store.run empty ops).2 op).1
      (store.perform (store.run empty ops).2 op).2 := by
  obtain ⟨hanswers, hmirrors, hsound⟩ := mirrors_empty.run isSound_empty ops
  exact ⟨hanswers, hmirrors, hsound, Dictionary.nodup_keys _, isSound_empty.keys_run ops,
    hsound.change_perform⟩

end Cabinet

end SourceReport
