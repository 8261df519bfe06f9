import Mathlib.Data.List.Nodup
import Mathlib.Data.List.Pairwise
import SourceReport.Proofs.Document.Refusal
import SourceReport.Report.Basic

/-!
# The order of sources

The tables of sources are read one after the other. What a table stands for does not depend on the
others (`Offer.ofTable?`), and tables with identities of their own meet in one place only: the names
by which diagnostics refer to them. So such tables are read exactly if each of them stands for a
source and no name occurs in two of them, and then the entry of an identity and the meaning of a
name come from the one table that has it. None of this depends on their order.

* `Sources.Holds` says that sources are those of a list of offers.
* `Data.Table.Reorders` says that two documents differ in the order of their sources.

Results:
* `Sources.Holds.exists_gives_take_iff`, `Sources.Holds.take`: one more source.
* `Sources.Holds.readSources`: a list of them.
* `Sources.Holds.perm`: sources that were read in two orders.
* `Document.ofText_reordered`: documents with their sources in another order.
-/

namespace SourceReport

open Loading

/-! ## Readers without warnings -/

namespace Loading

variable {α β : Type}

/-- There is no warning. -/
def IsQuiet (x : Loading α) : Prop := x.warnings = []

theorem isQuiet_ok (a : α) : (ok a).IsQuiet := rfl

theorem isQuiet_pure (a : α) : (pure a : Loading α).IsQuiet := rfl

theorem isQuiet_refuse (place : Text) (flaw : ShapeFlaw) :
    (refuse place flaw : Loading α).IsQuiet := rfl

theorem IsQuiet.bind {x : Loading α} {f : α → Loading β} (hx : x.IsQuiet)
    (hf : ∀ a, (f a).IsQuiet) : (x >>= f).IsQuiet := by
  unfold IsQuiet at *
  rw [bind_eq, Loading.bind]
  cases x.outcome with
  | error e => exact hx
  | ok a => exact (congrArg (· ++ _) hx).trans (hf a)

/-- A step after another one adds its warnings. -/
theorem warnings_bind_of_gives {x : Loading α} {f : α → Loading β} {a : α} (h : x.Gives a) :
    (x >>= f).warnings = x.warnings ++ (f a).warnings := by
  rw [bind_eq, Loading.bind, show x.outcome = .ok a from h]

end Loading

theorem Fields.isQuiet_optional {α : Type} (f : Fields) (key : Text) (kind : FieldKind α) :
    (f.optional key kind).IsQuiet := by
  have hchecked : ∀ v, (f.checked key kind v).IsQuiet := by
    intro v
    unfold checked
    split
    · exact isQuiet_ok _
    · exact isQuiet_refuse _ _
  unfold optional
  split
  · exact isQuiet_ok _
  · exact (hchecked _).bind fun _ => isQuiet_pure _

theorem Fields.isQuiet_offer? (tree : Tree) (directory : Path) (f : Fields) :
    (f.offer? tree directory).IsQuiet := by
  unfold offer?
  refine (f.isQuiet_optional _ _).bind fun path => (f.isQuiet_optional _ _).bind fun name =>
    (f.isQuiet_optional _ _).bind fun text => ?_
  split
  · split
    · exact isQuiet_refuse _ _
    · split
      · exact isQuiet_refuse _ _
      · exact isQuiet_pure _
  · dsimp only
    split
    · rfl
    · split
      · rfl
      · exact isQuiet_pure _
  · exact isQuiet_refuse _ _

namespace Sources

theorem isQuiet_bind (s : Sources) (place : Text) (id : SourceId) (names : List Text) :
    (s.bind place id names).IsQuiet := by
  induction names generalizing s with
  | nil => exact isQuiet_ok _
  | cons name rest ih =>
    unfold Sources.bind
    split
    · exact ih _
    · exact isQuiet_refuse _ _

theorem isQuiet_take (s : Sources) (place : Text) (o : Offer) : (s.take place o).IsQuiet := by
  unfold take add
  cases s.registry.insert o.source false none with
  | error e => rfl
  | ok added => exact isQuiet_bind _ _ _ _

/-- **Sources** are read without a warning. -/
theorem isQuiet_readSources (tree : Tree) (directory : Path) (s : Sources) (fs : List Fields) :
    (readSources tree directory s fs).IsQuiet := by
  induction fs generalizing s with
  | nil => exact isQuiet_ok _
  | cons f rest ih =>
    refine IsQuiet.bind ?_ ih
    rw [read_eq]
    exact (f.isQuiet_offer? tree directory).bind fun o => isQuiet_take s f.place o

end Sources

/-! ## What tables stand for -/

/-- What a table stands for, if it stands for a source. -/
def Offer.ofTable? (tree : Tree) (directory : Path) (t : Data.Table) : Option Offer :=
  ((Fields.mk [] t).offer? tree directory).outcome.toOption

/-- What those tables of a list stand for that stand for a source. -/
def Offer.ofTables (tree : Tree) (directory : Path) (ts : List Data.Table) : List Offer :=
  ts.filterMap (ofTable? tree directory)

/-- The entry of a registry for a source. -/
def Offer.entry (o : Offer) : Registered := ⟨o.source, o.shown.getD o.source.name, none⟩

/-- No name occurs in both offers. -/
def Offer.IsApart (o o' : Offer) : Prop := o.names.Disjoint o'.names

instance : Std.Symm Offer.IsApart := ⟨fun _ _ h => List.disjoint_symm h⟩

/-- Offers have identities of their own. -/
def Offer.AreDistinct (os : List Offer) : Prop := (os.map (·.source.id)).Nodup

instance (os : List Offer) : Decidable (Offer.AreDistinct os) :=
  inferInstanceAs (Decidable (os.map (·.source.id)).Nodup)

section Places

variable {α : Type} {t : Data.Table} {key : Text} {kind : FieldKind α}

/-- The place of a table stands in errors only. -/
theorem Fields.gives_optional_place (place place' : Text) {a : Option α} :
    (Fields.optional ⟨place, t⟩ key kind).Gives a ↔
      (Fields.optional ⟨place', t⟩ key kind).Gives a := by
  unfold optional checked
  dsimp only
  cases t.present? key with
  | none => rfl
  | some v => cases h : kind.read? v <;> simp [h, -bind_pure_comp]

theorem Fields.gives_offer?_place (tree : Tree) (directory : Path) (place place' : Text) {o : Offer}
    (h : (Fields.offer? tree directory ⟨place, t⟩).Gives o) :
    (Fields.offer? tree directory ⟨place', t⟩).Gives o := by
  unfold offer? at h ⊢
  simp only [gives_bind] at h ⊢
  obtain ⟨path, hpath, name, hname, text, htext, h⟩ := h
  refine ⟨path, (gives_optional_place place place').1 hpath, name,
    (gives_optional_place place place').1 hname, text,
    (gives_optional_place place place').1 htext, ?_⟩
  split at h
  · split at h
    · exact absurd h not_gives_refuse
    · split at h
      · exact absurd h not_gives_refuse
      · exact h
  · exact h
  · exact absurd h not_gives_refuse

/-- A table stands for the same source wherever it is. -/
theorem Fields.gives_offer?_iff {tree : Tree} {directory : Path} {f : Fields} {o : Offer} :
    (f.offer? tree directory).Gives o ↔ Offer.ofTable? tree directory f.table = some o := by
  unfold Offer.ofTable?
  constructor
  · intro h
    have h' : (Fields.mk [] f.table).offer? tree directory |>.Gives o :=
      gives_offer?_place tree directory f.place [] h
    rw [show _ = _ from h']
    rfl
  · intro h
    refine gives_offer?_place tree directory [] f.place ?_
    unfold Gives
    cases houtcome : ((Fields.mk [] f.table).offer? tree directory).outcome with
    | error e =>
      rw [houtcome] at h
      cases h
    | ok o' =>
      rw [houtcome] at h
      exact congrArg Except.ok (Option.some.inj h)

end Places

/-! ## Reading one more source -/

/-- The first element with a property does not depend on the order if no other one has it. -/
theorem find?_eq_of_perm {α : Type} {p : α → Bool} {l l' : List α} (h : l.Perm l')
    (hp : ∀ a ∈ l, ∀ b ∈ l, p a = true → p b = true → a = b) : l.find? p = l'.find? p := by
  cases ha : l.find? p with
  | none =>
    have hnone := List.find?_eq_none.1 ha
    exact (List.find?_eq_none.2 fun b hb => hnone b (h.mem_iff.2 hb)).symm
  | some a =>
    have hmem := List.mem_of_find?_eq_some ha
    cases hb : l'.find? p with
    | none => exact absurd (List.find?_some ha) (List.find?_eq_none.1 hb a (h.mem_iff.1 hmem))
    | some b =>
      rw [hp a hmem b (h.mem_iff.2 (List.mem_of_find?_eq_some hb)) (List.find?_some ha)
        (List.find?_some hb)]

namespace Sources

variable {tree : Tree} {directory : Path} {s s' : Sources} {place : Text} {o : Offer}
  {os os' : List Offer} {id : SourceId} {names : List Text}

/-- The sources are those of some offers: an identity has the entry of the first offer with it, and
a name stands for the source of the first offer with it. No name occurs in two offers. -/
structure Holds (s : Sources) (os : List Offer) : Prop where
  find? : ∀ id, s.registry.find? id = (os.find? fun o => o.source.id = id).map Offer.entry
  lookup : ∀ name, s.names.lookup name = (os.find? fun o => name ∈ o.names).map (·.source.id)
  apart : os.Pairwise Offer.IsApart

theorem holds_empty : Holds {} [] := ⟨fun _ => rfl, fun _ => rfl, .nil⟩

/-- **Names are bound** unless one of them stands for another source. -/
theorem gives_bind_iff : (s.bind place id names).Gives s' ↔
    (∀ name ∈ names, ∀ other ∈ s.names.lookup name, other = id) ∧
      s' = { s with names := (names.map (·, id)).reverse ++ s.names } := by
  induction names generalizing s with
  | nil => simp [Sources.bind, eq_comm]
  | cons name rest ih =>
    have hlookup : ∀ other : Text, ∀ known ∈ ((name, id) :: s.names).lookup other,
        known = id ∨ known ∈ s.names.lookup other := by
      intro other known hknown
      rw [List.lookup_cons] at hknown
      split at hknown
      · exact Or.inl (Option.some.inj hknown).symm
      · exact Or.inr hknown
    have hkept : ∀ other : Text, other ≠ name →
        ((name, id) :: s.names).lookup other = s.names.lookup other := by
      intro other hother
      rw [List.lookup_cons, beq_eq_false_iff_ne.2 hother]
    unfold Sources.bind
    split
    · next hfree =>
      rw [Option.all_eq_true] at hfree
      have hfree : ∀ other ∈ s.names.lookup name, other = id :=
        fun other hother => of_decide_eq_true (hfree other hother)
      rw [ih]
      simp only [List.map_cons, List.reverse_cons, List.append_assoc, List.singleton_append,
        List.forall_mem_cons]
      refine and_congr_left fun _ => ⟨fun h => ⟨hfree, fun other hmem known hknown => ?_⟩,
        fun h other hmem known hknown => ?_⟩
      · by_cases hother : other = name
        · exact hfree known (hother ▸ hknown)
        · exact h other hmem known (hkept other hother ▸ hknown)
      · rcases hlookup other known hknown with rfl | hknown
        · rfl
        · exact h.2 other hmem known hknown
    · next hfree =>
      simp only [not_gives_refuse, false_iff, not_and]
      intro h
      rw [Option.all_eq_true] at hfree
      exact (hfree fun other hother => decide_eq_true (h name List.mem_cons_self other hother)).elim

/-- A name that was bound stands for the source, and all others stand for what they stood for. -/
theorem lookup_bound (name : Text) (known : List (Text × SourceId)) :
    ((names.map (·, id)).reverse ++ known).lookup name =
      if name ∈ names then some id else known.lookup name := by
  rw [List.lookup_append]
  split
  · next hmem =>
    have hsome : ((names.map (·, id)).reverse.lookup name).isSome = true := by
      rw [List.lookup_isSome_iff]
      exact ⟨(name, id), by simpa using hmem, beq_self_eq_true _⟩
    obtain ⟨other, hother⟩ := Option.isSome_iff_exists.1 hsome
    obtain ⟨before, after, heq, -⟩ := List.lookup_eq_some_iff.1 hother
    have hpair : (name, other) ∈ names.map (·, id) := by
      rw [← List.mem_reverse, heq]
      exact List.mem_append_right before List.mem_cons_self
    obtain ⟨_, -, hpair⟩ := List.mem_map.1 hpair
    rw [hother, Option.some_or, (Prod.mk.inj hpair).2]
  · next hmem =>
    have hnone : (names.map (·, id)).reverse.lookup name = none := by
      rw [List.lookup_eq_none_iff]
      intro e he
      obtain ⟨other, hother, rfl⟩ := List.mem_map.1 (List.mem_reverse.1 he)
      exact bne_iff_ne.2 fun heq => hmem (heq ▸ hother)
    rw [hnone, Option.none_or]

/-- Registering a source with an identity of its own. -/
theorem find?_showAs_of_insert {r : Registry}
    (hinsert : s.registry.insert o.source false none = .ok (o.source.id, r))
    (hnew : s.registry.find? o.source.id = none) (id : SourceId) :
    (showAs { s with registry := r } o.source.id o.shown).registry.find? id =
      if id = o.source.id then some o.entry else s.registry.find? id := by
  have hfind := Registry.find?_insert hinsert
  have hown : r.find? o.source.id = some ⟨o.source, o.source.name, none⟩ := by
    rw [hfind, hnew, Option.none_or, if_pos rfl]
  have hentry : (showAs { s with registry := r } o.source.id o.shown).registry.find? id =
      (r.find? id).map fun e =>
        if e.source.id = o.source.id then { e with shown := o.shown.getD e.shown } else e := by
    unfold showAs
    cases hshown : o.shown with
    | none => simp
    | some name =>
      have hcontains : r.contains o.source.id = true := by
        rw [Registry.contains, hown, Option.isSome_some]
      have hshowAs : r.showAs o.source.id name = some _ := if_pos hcontains
      dsimp only
      rw [hshowAs, Option.getD_some, Registry.find?_showAs hshowAs]
      rfl
  rw [hentry]
  by_cases hid : id = o.source.id
  · rw [hid, hown, Option.map_some, if_pos rfl, if_pos rfl]
    rfl
  · rw [hfind, if_neg hid, if_neg hid, Option.or_none]
    cases he : s.registry.find? id with
    | none => rfl
    | some e =>
      have heid := Registry.id_of_find? he
      rw [Option.map_some, if_neg fun h => hid (heid.symm.trans h)]

/-- A source with an identity of its own is registered. -/
theorem exists_insert_of_new (hnew : s.registry.find? o.source.id = none) :
    ∃ r, s.registry.insert o.source false none = .ok (o.source.id, r) := by
  have hsource : s.registry.source? o.source.id = none := Option.map_eq_none_iff.2 hnew
  unfold Registry.insert
  rw [hsource]
  exact ⟨_, rfl⟩

theorem names_showAs (s : Sources) (id : SourceId) (shown : Option SourceName) :
    (s.showAs id shown).names = s.names := by cases shown <;> rfl

/-- **An offer with an identity of its own** is taken in unless one of its names stands for another
source. -/
theorem gives_take_iff_of_insert {r : Registry}
    (hinsert : s.registry.insert o.source false none = .ok (o.source.id, r)) :
    (s.take place o).Gives s' ↔
      (∀ name ∈ o.names, ∀ other ∈ s.names.lookup name, other = o.source.id) ∧
      s' = { showAs { s with registry := r } o.source.id o.shown with
        names := (o.names.map (·, o.source.id)).reverse ++ s.names } := by
  unfold take add
  rw [hinsert]
  simp only [gives_bind, gives_ok, exists_eq_left', gives_bind_iff, names_showAs]

namespace Holds

variable (h : s.Holds os) (hnew : ∀ o' ∈ os, o'.source.id ≠ o.source.id)

include h hnew

/-- No entry has the identity of the offer. -/
theorem find?_of_new : s.registry.find? o.source.id = none := by
  rw [h.find?, List.find?_eq_none.2 fun o' ho' => by simpa using hnew o' ho']
  rfl

/-- The names of the offer are free exactly if no offer before has one of them. -/
theorem free_iff : (∀ name ∈ o.names, ∀ other ∈ s.names.lookup name, other = o.source.id) ↔
    ∀ o' ∈ os, o'.IsApart o := by
  constructor
  · intro hfree o' ho' name hname' hname
    cases hfirst : os.find? fun o => name ∈ o.names with
    | none => exact List.find?_eq_none.1 hfirst o' ho' (decide_eq_true hname')
    | some first =>
      have hlookup : s.names.lookup name = some first.source.id := by
        rw [h.lookup, hfirst, Option.map_some]
      exact hnew first (List.mem_of_find?_eq_some hfirst) (hfree name hname _ hlookup)
  · intro hapart name hname other hother
    rw [h.lookup] at hother
    obtain ⟨first, hfirst, -⟩ := Option.map_eq_some_iff.1 hother
    have hmem : name ∈ first.names :=
      of_decide_eq_true (List.find?_some (p := fun o : Offer => name ∈ o.names) hfirst)
    exact absurd hname (hapart first (List.mem_of_find?_eq_some hfirst) hmem)

/-- **One more source** is taken in exactly if it has no name of another one. -/
theorem exists_gives_take_iff :
    (∃ s', (s.take place o).Gives s') ↔ ∀ o' ∈ os, o'.IsApart o := by
  obtain ⟨r, hinsert⟩ := exists_insert_of_new (h.find?_of_new hnew)
  simp only [gives_take_iff_of_insert hinsert, h.free_iff hnew]
  exact ⟨fun ⟨_, hapart, _⟩ => hapart, fun hapart => ⟨_, hapart, rfl⟩⟩

/-- **Sources with one more** are those of the offers with one more. -/
theorem take (htake : (s.take place o).Gives s') : s'.Holds (os ++ [o]) := by
  have hfind := h.find?_of_new hnew
  obtain ⟨r, hinsert⟩ := exists_insert_of_new hfind
  obtain ⟨hfree, rfl⟩ := (gives_take_iff_of_insert hinsert).1 htake
  have hapart := (h.free_iff hnew).1 hfree
  constructor
  · intro id
    dsimp only
    rw [find?_showAs_of_insert hinsert hfind, h.find?, List.find?_append]
    by_cases hid : o.source.id = id
    · subst hid
      rw [List.find?_eq_none.2 fun o' ho' => by simpa using hnew o' ho']
      simp
    · simp [hid, Ne.symm hid]
  · intro name
    dsimp only
    rw [lookup_bound, h.lookup, List.find?_append]
    by_cases hname : name ∈ o.names
    · rw [List.find?_eq_none.2 fun o' ho' hmem => hapart o' ho' (of_decide_eq_true hmem) hname]
      simp [hname]
    · simp [hname]
  · exact List.pairwise_append.2 ⟨h.apart, List.pairwise_singleton _ _,
      fun o' ho' _ hlast => List.mem_singleton.1 hlast ▸ hapart o' ho'⟩

end Holds

/-! ## Reading all sources -/

theorem ofTables_cons (t : Data.Table) (ts : List Data.Table) :
    Offer.ofTables tree directory (t :: ts) =
      (Offer.ofTable? tree directory t).toList ++ Offer.ofTables tree directory ts := by
  unfold Offer.ofTables
  rw [List.filterMap_cons]
  cases Offer.ofTable? tree directory t <;> rfl

/-- The first table is taken in as what it stands for, and then the others are read. -/
theorem gives_readSources_cons {f : Fields} {rest : List Fields} :
    (readSources tree directory s (f :: rest)).Gives s' ↔
      ∃ o, Offer.ofTable? tree directory f.table = some o ∧ ∃ s₁, (s.take f.place o).Gives s₁ ∧
        (readSources tree directory s₁ rest).Gives s' := by
  rw [readSources, read_eq, bind_assoc]
  simp only [gives_bind, Fields.gives_offer?_iff]

/-- **Tables with identities of their own** are read exactly if each of them stands for a source and
no name occurs in two of them. The sources are then those that they stand for. -/
theorem Holds.readSources (h : s.Holds os) {fs : List Fields}
    (hids : Offer.AreDistinct (os ++ Offer.ofTables tree directory (fs.map (·.table)))) :
    ((∃ s', (readSources tree directory s fs).Gives s') ↔
      (∀ t ∈ fs.map (·.table), (Offer.ofTable? tree directory t).isSome = true) ∧
      (os ++ Offer.ofTables tree directory (fs.map (·.table))).Pairwise Offer.IsApart) ∧
    ∀ s', (readSources tree directory s fs).Gives s' →
      s'.Holds (os ++ Offer.ofTables tree directory (fs.map (·.table))) := by
  induction fs generalizing s os with
  | nil =>
    have hnil : os ++ Offer.ofTables tree directory (([] : List Fields).map (·.table)) = os :=
      List.append_nil os
    rw [hnil]
    refine ⟨⟨fun _ => ⟨fun _ hf => absurd hf List.not_mem_nil, h.apart⟩,
      fun _ => ⟨s, gives_ok.2 rfl⟩⟩, fun s' hs' => ?_⟩
    obtain rfl := gives_ok.1 hs'
    exact h
  | cons f rest ih =>
    rw [List.map_cons, ofTables_cons] at hids ⊢
    cases hoffer : Offer.ofTable? tree directory f.table with
    | none => simp [gives_readSources_cons, hoffer]
    | some o =>
      rw [hoffer] at hids
      have hassoc : os ++ ((some o).toList ++ Offer.ofTables tree directory (rest.map (·.table))) =
          os ++ [o] ++ Offer.ofTables tree directory (rest.map (·.table)) := by simp
      rw [hassoc] at hids ⊢
      have hnew : ∀ o' ∈ os, o'.source.id ≠ o.source.id := by
        intro o' ho'
        have hpairwise := List.pairwise_map.1 hids
        exact (List.pairwise_append.1 (List.pairwise_append.1 hpairwise).1).2.2 o' ho' o
          List.mem_cons_self
      simp only [gives_readSources_cons, hoffer, Option.some.injEq, exists_eq_left']
      refine ⟨⟨?_, ?_⟩, ?_⟩
      · rintro ⟨s', s₁, htake, hrest⟩
        obtain ⟨hsome, hapart⟩ := (ih (h.take hnew htake) hids).1.1 ⟨s', hrest⟩
        exact ⟨List.forall_mem_cons.2 ⟨by rw [hoffer, Option.isSome_some], hsome⟩, hapart⟩
      · rintro ⟨hsome, hapart⟩
        have hfirst := (List.pairwise_append.1 (List.pairwise_append.1 hapart).1).2.2
        have htakes : ∃ s₁, (s.take f.place o).Gives s₁ :=
          (h.exists_gives_take_iff hnew).2 fun o' ho' => hfirst o' ho' o List.mem_cons_self
        obtain ⟨s₁, htake⟩ := htakes
        obtain ⟨s', hrest⟩ := (ih (h.take hnew htake) hids).1.2
          ⟨(List.forall_mem_cons.1 hsome).2, hapart⟩
        exact ⟨s', s₁, htake, hrest⟩
      · rintro s' ⟨s₁, htake, hrest⟩
        exact (ih (h.take hnew htake) hids).2 s' hrest

/-! ## Sources in two orders -/

/-- **Sources in two orders** have the same entries, and the same names stand for them. -/
theorem Holds.perm (h : s.Holds os) (h' : s'.Holds os') (hperm : os.Perm os')
    (hids : Offer.AreDistinct os) :
    (∀ id, s'.registry.find? id = s.registry.find? id) ∧
      ∀ name, s'.names.lookup name = s.names.lookup name := by
  refine ⟨fun id => ?_, fun name => ?_⟩
  · rw [h.find?, h'.find?, find?_eq_of_perm hperm]
    intro o ho o' ho' hid hid'
    refine List.inj_on_of_nodup_map hids ho ho' ?_
    exact (of_decide_eq_true hid).trans (of_decide_eq_true hid').symm
  · rw [h.lookup, h'.lookup, find?_eq_of_perm hperm]
    intro o ho o' ho' hname hname'
    by_contra hne
    exact h.apart.forall ho ho' hne (of_decide_eq_true hname)
      (of_decide_eq_true hname')

end Sources

/-! ## Diagnostics -/

section Diagnostics

variable {s s' : Sources} (h : ∀ name, s'.names.lookup name = s.names.lookup name)

include h

/-- A diagnostic asks for the meaning of names only. -/
theorem reference_congr : s'.reference = s.reference := by
  funext f
  unfold Sources.reference
  simp only [h]

theorem readLabel_congr : readLabel s' = readLabel s := by
  funext f
  unfold readLabel readSpan
  rw [reference_congr h]

theorem readDiagnostic_congr : readDiagnostic s' = readDiagnostic s := by
  funext f
  unfold readDiagnostic readLocation
  rw [readLabel_congr h, reference_congr h]

end Diagnostics

/-! ## Reports -/

section Reports

variable {r r' : Registry} (h : ∀ id, r'.find? id = r.find? id)

include h

theorem Registry.source?_congr (id : SourceId) : r'.source? id = r.source? id :=
  congrArg (Option.map _) (h id)

theorem Registry.display_congr (id : SourceId) : r'.display id = r.display id := by
  unfold display shown?
  rw [h]

/-- **A report** asks for the entries of identities only. -/
theorem Report.ofAll_congr (settings : Settings) (ds : List Diagnostic) :
    ofAll settings r' ds = ofAll settings r ds := by
  have hfile : Snippet.ofFile settings r' = Snippet.ofFile settings r := by
    funext d file
    unfold Snippet.ofFile
    rw [Registry.source?_congr h, Registry.display_congr h]
  have hissues : Snippet.issues r' = Snippet.issues r := by
    funext d file
    unfold Snippet.issues
    rw [Registry.source?_congr h]
  unfold ofAll
  congr 2
  funext d
  unfold ofDiagnostic Snippet.ofDiagnostic
  rw [hfile, hissues]

end Reports

/-! ## Documents -/

/-- Two documents have the same tables of sources in two orders, and all else in common. -/
structure Data.Table.Reorders (t t' : Data.Table) (ts ts' : List Data.Table) : Prop where
  sources : t.find? "sources" = some (.list (ts.map .table))
  sources' : t'.find? "sources" = some (.list (ts'.map .table))
  perm : ts.Perm ts'
  rest : ∀ key : Text, key ≠ "sources" → t'.find? key = t.find? key

theorem Data.Table.Reorders.symm {t t' : Data.Table} {ts ts' : List Data.Table}
    (h : t.Reorders t' ts ts') : t'.Reorders t ts' ts :=
  ⟨h.sources', h.sources, h.perm.symm, fun key hkey => (h.rest key hkey).symm⟩

namespace Document

variable {tree : Tree} {directory : Path} {t t' : Data.Table} {ts ts' : List Data.Table}

/-- The diagnostics of a document whose sources were read. -/
def readDiagnostics (t : Data.Table) (s : Sources) : Loading (List Diagnostic) := do
  (← (Fields.mk "document" t).tables [] "diagnostics").mapM (readDiagnostic s)

theorem all?_map_table {kind : FieldKind Data.Table} (h : ∀ t, kind.read? (.table t) = some t)
    (ts : List Data.Table) : kind.all? (ts.map .table) = some ts := by
  unfold FieldKind.all?
  induction ts with
  | nil => rfl
  | cons t ts ih => simp [h, ih]

theorem tables_sources (h : t.find? "sources" = some (.list (ts.map .table))) :
    (Fields.mk "document" t).tables [] "sources" = .ok (Fields.numbered [] "sources" ts) := by
  unfold Fields.tables
  dsimp only
  rw [h]
  dsimp only
  rw [all?_map_table fun _ => rfl]

theorem map_table_numbered (front key : Text) (ts : List Data.Table) :
    (Fields.numbered front key ts).map (·.table) = ts := by
  refine List.ext_getElem? fun n => ?_
  rw [Fields.numbered, List.getElem?_map, List.getElem?_mapIdx, Option.map_map]
  exact Option.map_id'

/-- A document is read in two parts, the sources and the diagnostics. -/
theorem ofTable_eq (h : t.find? "sources" = some (.list (ts.map .table))) :
    ofTable tree directory t =
      readSources tree directory {} (Fields.numbered [] "sources" ts) >>= fun s =>
        readDiagnostics t s >>= fun ds => pure ⟨s.registry, ds⟩ := by
  unfold ofTable readDiagnostics
  dsimp only
  rw [tables_sources h]
  simp only [bind_assoc]
  rfl

theorem gives_ofTable_iff (h : t.find? "sources" = some (.list (ts.map .table))) {doc : Document} :
    (ofTable tree directory t).Gives doc ↔
      ∃ s, (readSources tree directory {} (Fields.numbered [] "sources" ts)).Gives s ∧
        (readDiagnostics t s).Gives doc.diagnostics ∧ s.registry = doc.registry := by
  rw [ofTable_eq h]
  simp only [gives_bind, gives_pure]
  constructor
  · rintro ⟨s, hs, ds, hds, rfl⟩
    exact ⟨s, hs, hds, rfl⟩
  · rintro ⟨s, hs, hds, hregistry⟩
    exact ⟨s, hs, doc.diagnostics, hds, by rw [hregistry]⟩

/-- The warnings of a document are those of its diagnostics. -/
theorem warnings_ofTable (h : t.find? "sources" = some (.list (ts.map .table))) {s : Sources}
    {ds : List Diagnostic}
    (hs : (readSources tree directory {} (Fields.numbered [] "sources" ts)).Gives s)
    (hds : (readDiagnostics t s).Gives ds) :
    (ofTable tree directory t).warnings = (readDiagnostics t s).warnings := by
  rw [ofTable_eq h, warnings_bind_of_gives hs, warnings_bind_of_gives hds,
    Sources.isQuiet_readSources]
  exact List.append_nil _

theorem readDiagnostics_congr {s s' : Sources}
    (hrest : ∀ key : Text, key ≠ "sources" → t'.find? key = t.find? key)
    (h : ∀ name, s'.names.lookup name = s.names.lookup name) :
    readDiagnostics t' s' = readDiagnostics t s := by
  have htables : (Fields.mk "document" t').tables [] "diagnostics" =
      (Fields.mk "document" t).tables [] "diagnostics" := by
    unfold Fields.tables
    dsimp only
    rw [hrest "diagnostics" (by decide)]
  unfold readDiagnostics
  rw [htables, readDiagnostic_congr h]

/-- **The sources of a document** can be read exactly if each table stands for a source and no name
occurs in two of them. They are then those that the tables stand for. -/
theorem readSources_numbered (hids : Offer.AreDistinct (Offer.ofTables tree directory ts)) :
    ((∃ s, (readSources tree directory {} (Fields.numbered [] "sources" ts)).Gives s) ↔
      (∀ t ∈ ts, (Offer.ofTable? tree directory t).isSome = true) ∧
        (Offer.ofTables tree directory ts).Pairwise Offer.IsApart) ∧
    ∀ s, (readSources tree directory {} (Fields.numbered [] "sources" ts)).Gives s →
      s.Holds (Offer.ofTables tree directory ts) := by
  have hnumbered : Offer.AreDistinct ([] ++ Offer.ofTables tree directory
      ((Fields.numbered [] "sources" ts).map (·.table))) := by
    rwa [map_table_numbered]
  have hread := Sources.holds_empty.readSources hnumbered
  rwa [map_table_numbered, List.nil_append] at hread

/-- **A document that loads** does so with its sources in another order, with the same diagnostics,
warnings and entries. -/
theorem gives_ofTable_reordered (h : t.Reorders t' ts ts')
    (hids : Offer.AreDistinct (Offer.ofTables tree directory ts)) {doc : Document}
    (hdoc : (ofTable tree directory t).Gives doc) :
    ∃ doc', (ofTable tree directory t').Gives doc' ∧ doc'.diagnostics = doc.diagnostics ∧
      (ofTable tree directory t').warnings = (ofTable tree directory t).warnings ∧
      ∀ id, doc'.registry.find? id = doc.registry.find? id := by
  have hperm : (Offer.ofTables tree directory ts).Perm (Offer.ofTables tree directory ts') :=
    h.perm.filterMap _
  have hids' : Offer.AreDistinct (Offer.ofTables tree directory ts') :=
    (hperm.map _).nodup_iff.1 hids
  have hread := readSources_numbered hids
  have hread' := readSources_numbered hids'
  obtain ⟨s, hs, hds, hregistry⟩ := (gives_ofTable_iff h.sources).1 hdoc
  obtain ⟨hsome, hapart⟩ := hread.1.1 ⟨s, hs⟩
  obtain ⟨s', hs'⟩ := hread'.1.2
    ⟨fun u hu => hsome u (h.perm.mem_iff.2 hu), hperm.pairwise hapart (Std.Symm.symm _ _)⟩
  obtain ⟨hfind, hlookup⟩ := (hread.2 s hs).perm (hread'.2 s' hs') hperm hids
  have hcongr := readDiagnostics_congr h.rest hlookup
  have hds' : (readDiagnostics t' s').Gives doc.diagnostics := hcongr ▸ hds
  refine ⟨⟨s'.registry, doc.diagnostics⟩, (gives_ofTable_iff h.sources').2 ⟨s', hs', hds', rfl⟩,
    rfl, ?_, fun id => ?_⟩
  · rw [warnings_ofTable h.sources hs hds, warnings_ofTable h.sources' hs' hds', hcongr]
  · rw [← hregistry]
    exact hfind id

theorem ofText_of_read {format : DocumentFormat} {text : Text}
    (h : format.read? text = .ok (.table t)) :
    ofText tree format directory text = ofTable tree directory t := by
  unfold ofText
  rw [h]
  rfl

/-- **The order of sources makes no difference.** Take a document whose tables of sources stand for
sources with identities of their own, and another one that has them in another order. Both load or
none does. If they load, they have the same diagnostics and warnings, every identity finds one
source that is shown under one name, and so all of their reports are the same. -/
theorem ofText_reordered {format : DocumentFormat} {text text' : Text}
    (hread : format.read? text = .ok (.table t)) (hread' : format.read? text' = .ok (.table t'))
    (h : t.Reorders t' ts ts') (hids : Offer.AreDistinct (Offer.ofTables tree directory ts)) :
    let x := ofText tree format directory text
    let x' := ofText tree format directory text'
    ((∃ doc, x.outcome = .ok doc) ↔ ∃ doc', x'.outcome = .ok doc') ∧
    ∀ doc doc', x.outcome = .ok doc → x'.outcome = .ok doc' →
      doc'.diagnostics = doc.diagnostics ∧ x'.warnings = x.warnings ∧
      (∀ id, doc'.registry.source? id = doc.registry.source? id ∧
        doc'.registry.display id = doc.registry.display id) ∧
      ∀ settings, Report.ofAll settings doc'.registry doc'.diagnostics =
        Report.ofAll settings doc.registry doc.diagnostics := by
  rw [ofText_of_read hread, ofText_of_read hread']
  intro x x'
  have hids' : Offer.AreDistinct (Offer.ofTables tree directory ts') :=
    ((h.perm.filterMap _).map _).nodup_iff.1 hids
  refine ⟨⟨fun ⟨doc, hdoc⟩ => ?_, fun ⟨doc', hdoc'⟩ => ?_⟩, fun doc doc' hdoc hdoc' => ?_⟩
  · obtain ⟨doc', hdoc', -⟩ := gives_ofTable_reordered h hids hdoc
    exact ⟨doc', hdoc'⟩
  · obtain ⟨doc, hdoc, -⟩ := gives_ofTable_reordered h.symm hids' hdoc'
    exact ⟨doc, hdoc⟩
  · obtain ⟨other, hother, hdiagnostics, hwarnings, hfind⟩ := gives_ofTable_reordered h hids hdoc
    obtain rfl := hother.unique hdoc'
    refine ⟨hdiagnostics, hwarnings, fun id => ?_, fun settings => ?_⟩
    · exact ⟨Registry.source?_congr hfind id, Registry.display_congr hfind id⟩
    · rw [hdiagnostics, Report.ofAll_congr hfind]

/-- A file and a snippet in either order, with a label that ends before it starts. -/
theorem ofText_reordered_file :
    let tree : Tree := ⟨Path.ofText "/w", [(["w", "b"], .file [195, 169])]⟩
    let file : Text := "[[sources]]\nname = \"f\"\npath = \"b\"\n"
    let snippet : Text := "[[sources]]\nname = \"s\"\ntext = \"x\"\n"
    let problem : Text :=
      "[[diagnostics]]\n[[diagnostics.labels]]\nsource = \"f\"\nstart = 2\nend = 0\n"
    let x := ofText tree .toml (Path.ofText ".") (file ++ snippet ++ problem)
    let x' := ofText tree .toml (Path.ofText ".") (snippet ++ file ++ problem)
    ∃ doc doc', x.outcome = .ok doc ∧ x'.outcome = .ok doc' ∧
      doc.registry.entries.map (·.source.content) = ["é", "x"] ∧ x.warnings.length = 1 ∧
      doc'.diagnostics = doc.diagnostics ∧ x'.warnings = x.warnings ∧
      ∀ settings, Report.ofAll settings doc'.registry doc'.diagnostics =
        Report.ofAll settings doc.registry doc.diagnostics := by
  intro tree file snippet problem x x'
  let f : Data.Table := [("name", .text "f"), ("path", .text "b")]
  let s : Data.Table := [("name", .text "s"), ("text", .text "x")]
  let label : Data.Table := [("source", .text "f"), ("start", .int 2), ("end", .int 0)]
  let t (ts : List Data.Table) : Data.Table :=
    [("sources", .list (ts.map .table)),
      ("diagnostics", .list [.table [("labels", .list [.table label])]])]
  have hread : DocumentFormat.toml.read? (file ++ snippet ++ problem) =
      .ok (.table (t [f, s])) := by decide +kernel
  have hread' : DocumentFormat.toml.read? (snippet ++ file ++ problem) =
      .ok (.table (t [s, f])) := by decide +kernel
  have hreorders : (t [f, s]).Reorders (t [s, f]) [f, s] [s, f] :=
    ⟨rfl, rfl, .swap .., fun key hkey => by
      simp [t, Data.Table.find?, List.lookup_cons, beq_false_of_ne hkey]⟩
  have hids : Offer.AreDistinct (Offer.ofTables tree (Path.ofText ".") [f, s]) := by
    decide +kernel
  have hx : x.outcome.toOption.map (·.registry.entries.map (·.source.content)) =
      some [("é" : Text), "x"] ∧ x.warnings.length = 1 := by
    rw [show x = _ from ofText_of_read hread]
    decide +kernel
  obtain ⟨hcontents, hwarnings⟩ := hx
  obtain ⟨hloads, hsame⟩ := ofText_reordered hread hread' hreorders hids
  cases hdoc : x.outcome with
  | error e =>
    rw [hdoc] at hcontents
    cases hcontents
  | ok doc =>
    rw [hdoc] at hcontents
    obtain ⟨doc', hdoc'⟩ := hloads.1 ⟨doc, hdoc⟩
    obtain ⟨hdiagnostics, hwarnings', -, hreports⟩ := hsame doc doc' hdoc hdoc'
    exact ⟨doc, doc', rfl, hdoc', Option.some.inj hcontents, hwarnings, hdiagnostics, hwarnings',
      hreports⟩

end Document

end SourceReport
