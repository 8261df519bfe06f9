import SourceReport.Document.Basic
import SourceReport.Proofs.Document.Loading
import SourceReport.Proofs.Source.Registry

/-!
# Refused documents

A document is refused where its shape is wrong or a file cannot be read. Three more causes lead out
of loading: a source has the identity of an earlier one and another text (`Clash`), a path is no
name of a file, or an integer has too many digits for the format or for a warning.

* `Fields.source?` is the source that a table stands for, `Sources.Registers` says that a registry
  holds the sources of the tables read so far.
* `Document.Refusal` lists the causes.

Results:
* `Sources.fails_collision_iff`: two texts under one identity break loading off exactly if they
  are reached.
* `Document.loads_or_refuses`: a document is loaded, or refused for one of the causes.
* `Document.not_refuses_shape`: two texts under one name, which are no flaw of the shape.
-/

namespace SourceReport

open Loading

/-! ## Flaws of the shape -/

/-- The shape of the document is wrong. -/
def DocumentError.IsShape (e : DocumentError) : Prop := ∃ place flaw, e = .shape place flaw

theorem isShape_of_fails_refuse {α : Type} {place : Text} {flaw : ShapeFlaw} {e : DocumentError}
    (h : (refuse place flaw : Loading α).Fails e) : e.IsShape :=
  ⟨place, flaw, (fails_refuse.1 h).symm⟩

namespace Fields

variable {α : Type} {f : Fields} {key : Text} {kind : FieldKind α} {e : DocumentError}

theorem isShape_of_checked {v : Data.Value} (h : (f.checked key kind v).Fails e) : e.IsShape := by
  unfold checked at h
  split at h
  · exact absurd h not_fails_ok
  · exact isShape_of_fails_refuse h

/-- **An optional field** of the wrong kind is a flaw of the shape. -/
theorem isShape_of_optional (h : (f.optional key kind).Fails e) : e.IsShape := by
  unfold optional at h
  split at h
  · exact absurd h not_fails_ok
  · simp only [fails_bind, not_fails_pure, and_false, exists_false, or_false] at h
    exact isShape_of_checked h

/-- **A field** that is missing or of the wrong kind is a flaw of the shape. -/
theorem isShape_of_require (h : (f.require key kind).Fails e) : e.IsShape := by
  unfold require at h
  split at h
  · exact isShape_of_fails_refuse h
  · exact isShape_of_checked h

theorem isShape_of_tables {front : Text} (h : (f.tables front key).Fails e) : e.IsShape := by
  unfold tables at h
  dsimp only at h
  split at h
  · exact absurd h not_fails_ok
  · split at h
    · exact absurd h not_fails_ok
    · exact isShape_of_fails_refuse h
  · exact isShape_of_fails_refuse h

/-- A value is what is found under its key. -/
theorem find?_of_present? {v : Data.Value} (h : f.table.present? key = some v) :
    f.table.find? key = some v := by
  unfold Data.Table.present? at h
  split at h
  · cases h
  · exact h

theorem eq_int_of_checked {v : Data.Value} {n : Int} (h : (f.checked key .int v).Gives n) :
    v = .int n := by
  unfold checked FieldKind.int at h
  cases v <;> simp_all

/-- A required integer stands in the table. -/
theorem find?_of_require {n : Int} (h : (f.require key .int).Gives n) :
    f.table.find? key = some (.int n) := by
  unfold require at h
  split at h
  · exact absurd h not_gives_refuse
  · next v hv => rw [find?_of_present? hv, eq_int_of_checked h]

/-- An optional integer stands in the table if it is given. -/
theorem find?_of_optional {n : Int} (h : (f.optional key .int).Gives (some n)) :
    f.table.find? key = some (.int n) := by
  unfold optional at h
  split at h
  · exact nomatch gives_ok.1 h
  · next v hv =>
    simp only [gives_bind, gives_pure, Option.some.injEq, exists_eq_right] at h
    rw [find?_of_present? hv, eq_int_of_checked h]

end Fields

/-! ## Sources of tables -/

/-- What a table of a source stands for. -/
structure Offer where
  source : Source
  /-- The name it is to be shown under, if that may be another one than its own. -/
  shown : Option SourceName
  /-- The names by which diagnostics refer to it. -/
  names : List Text

/-- Reads the table of a source. -/
def Fields.offer? (tree : Tree) (directory : Path) (f : Fields) : Loading Offer := do
  let path ← f.optional "path" .text
  let name ← f.optional "name" .text
  let text ← f.optional "text" .text
  match text, path with
  | some text, path =>
    match name.or path with
    | none => .refuse f.place .nameless
    | some name =>
      match Source.ofText? (.snippet name) text with
      | .error _ => .refuse (f.place ++ ".text") (.surrogates name)
      | .ok source => return ⟨source, none, name :: path.toList⟩
  | none, some path =>
    let shown := match name with
      | some (c :: name) => c :: name
      | _ => path
    let file := directory / Path.ofText path
    match Path.nameError? file.toText with
    | some e => ⟨.error (.fileName e), []⟩
    | none =>
      match tree.readSource? file with
      | .error e => ⟨.error (.source e), []⟩
      | .ok source => return ⟨source, some (.file (.ofText shown)), name.toList ++ [path]⟩
  | none, none => .refuse f.place .empty

/-- The table names a path that leads to a failure: its file cannot be read, or no file can have the
name. -/
def Fields.IsUnreadable (tree : Tree) (directory : Path) (f : Fields) (e : DocumentError) : Prop :=
  ∃ path : Text, (f.optional "path" .text).Gives (some path) ∧
    let file := directory / Path.ofText path
    (∃ fault, tree.readText? file = .error fault ∧ .source ⟨file, fault⟩ = e) ∨
      ∃ n, Path.nameError? file.toText = some n ∧ .fileName n = e

namespace Sources

variable {tree : Tree} {directory : Path} {s s' : Sources} {f : Fields} {o : Offer}
  {place : Text} {e : DocumentError}

/-- The sources with a name that one of them is shown under. -/
def showAs (s : Sources) (id : SourceId) : Option SourceName → Sources
  | none => s
  | some name => { s with registry := (s.registry.showAs id name).getD s.registry }

/-- Registers what a table stands for. -/
def take (s : Sources) (place : Text) (o : Offer) : Loading Sources := do
  let (id, s) ← s.add o.source
  (s.showAs id o.shown).bind place id o.names

/-- **A source is read** in two steps, and only the second one depends on those before. -/
theorem read_eq (s : Sources) (tree : Tree) (directory : Path) (f : Fields) :
    s.read tree directory f = f.offer? tree directory >>= s.take f.place := by
  unfold Sources.read Fields.offer?
  simp only [bind_assoc]
  congr 1; funext path
  congr 1; funext name
  congr 1; funext text
  cases text with
  | some text =>
    cases hname : name.or path with
    | none => simp only [hname]; rfl
    | some name =>
      simp only [hname]
      unfold addText
      cases Source.ofText? (.snippet name) text with
      | error _ => rfl
      | ok source => simp only [pure_bind]; rfl
  | none =>
    cases path with
    | none => rfl
    | some path =>
      dsimp only
      unfold addFile
      cases Path.nameError? (directory / Path.ofText path).toText with
      | some e => rfl
      | none =>
        cases tree.readSource? (directory / Path.ofText path) with
        | error e => rfl
        | ok source => simp only [pure_bind, bind_assoc]; rfl

/-- Names that stand for another source are a flaw of the shape. -/
theorem isShape_of_bind {id : SourceId} {names : List Text}
    (h : (s.bind place id names).Fails e) : e.IsShape := by
  induction names generalizing s with
  | nil => exact absurd h not_fails_ok
  | cons name rest ih =>
    unfold Sources.bind at h
    split at h
    · exact ih h
    · exact isShape_of_fails_refuse h

theorem registry_of_bind {id : SourceId} {names : List Text}
    (h : (s.bind place id names).Gives s') : s'.registry = s.registry := by
  induction names generalizing s with
  | nil => rw [gives_ok.1 h]
  | cons name rest ih =>
    unfold Sources.bind at h
    split at h
    · exact (ih h).trans rfl
    · exact absurd h not_gives_refuse

theorem source?_showAs (id : SourceId) (shown : Option SourceName) (other : SourceId) :
    (s.showAs id shown).registry.source? other = s.registry.source? other := by
  cases shown with
  | none => rfl
  | some name =>
    show ((s.registry.showAs id name).getD s.registry).source? other = _
    cases h : s.registry.showAs id name with
    | none => rfl
    | some r => exact Registry.source?_showAs h other

/-- **What is offered is refused** by the registry, or its names are. -/
theorem fails_take (h : (s.take place o).Fails e) : e.IsShape ∨
    ∃ c, s.registry.insert o.source false none = .error c ∧ .collision c = e := by
  unfold take add at h
  cases hinsert : s.registry.insert o.source false none with
  | error c =>
    simp only [hinsert, fails_bind, fails_error, not_gives_error, false_and, exists_false,
      or_false] at h
    exact Or.inr ⟨c, rfl, h⟩
  | ok added =>
    simp only [hinsert, fails_bind, not_fails_ok, gives_ok, false_or] at h
    obtain ⟨_, _, h⟩ := h
    exact Or.inl (isShape_of_bind h)

theorem fails_take_of_insert {c : RegistryError}
    (h : s.registry.insert o.source false none = .error c) :
    (s.take place o).Fails (.collision c) := by
  unfold take add
  simp [h]

/-- **What is taken in** is registered, and nothing else is. -/
theorem gives_take (h : (s.take place o).Gives s') :
    ∃ r, s.registry.insert o.source false none = .ok (o.source.id, r) ∧
      ∀ other, s'.registry.source? other = r.source? other := by
  unfold take add at h
  cases hinsert : s.registry.insert o.source false none with
  | error c => simp [hinsert] at h
  | ok added =>
    obtain ⟨id, r⟩ := added
    simp only [hinsert, gives_bind, gives_ok] at h
    obtain ⟨added, rfl, h⟩ := h
    obtain ⟨rfl, -⟩ := Registry.source?_insert hinsert
    refine ⟨r, rfl, fun other => ?_⟩
    rw [registry_of_bind h, source?_showAs]

/-- **The table of a source** has a flaw, or names a path that cannot be read. -/
theorem fails_offer? (h : (f.offer? tree directory).Fails e) :
    e.IsShape ∨ f.IsUnreadable tree directory e := by
  unfold Fields.offer? at h
  rcases fails_bind.1 h with h | ⟨path, hpath, h⟩
  · exact Or.inl (Fields.isShape_of_optional h)
  rcases fails_bind.1 h with h | ⟨name, -, h⟩
  · exact Or.inl (Fields.isShape_of_optional h)
  rcases fails_bind.1 h with h | ⟨text, -, h⟩
  · exact Or.inl (Fields.isShape_of_optional h)
  split at h
  · split at h
    · exact Or.inl (isShape_of_fails_refuse h)
    · split at h
      · exact Or.inl (isShape_of_fails_refuse h)
      · exact absurd h not_fails_pure
  · refine Or.inr ⟨_, hpath, ?_⟩
    dsimp only at h ⊢
    split at h
    · next n hn => exact Or.inr ⟨n, hn, fails_error.1 h⟩
    · split at h
      · next e' hread =>
        unfold Tree.readSource? at hread
        split at hread
        · next fault hfault =>
          refine Or.inl ⟨fault, hfault, ?_⟩
          rw [Except.error.inj hread]
          exact fails_error.1 h
        · cases hread
      · exact absurd h not_fails_pure
  · exact Or.inl (isShape_of_fails_refuse h)

/-! ## Sources in order -/

/-- A registry holds the sources of the tables that were read, and no others. -/
structure Registers (tree : Tree) (directory : Path) (fs : List Fields) (r : Registry) : Prop where
  found : ∀ f ∈ fs, ∀ o, (f.offer? tree directory).Gives o →
    ∃ known, r.source? o.source.id = some known ∧ known.content = o.source.content
  origin : ∀ id known, r.source? id = some known →
    ∃ f ∈ fs, ∃ o, (f.offer? tree directory).Gives o ∧ o.source = known ∧ known.id = id

theorem registers_empty : Registers tree directory [] .empty where
  found _ hf := absurd hf List.not_mem_nil
  origin _ _ h := nomatch h

/-- **One more table** that is read keeps the registry in line with the tables. -/
theorem Registers.read {fs : List Fields} (hs : Registers tree directory fs s.registry)
    (h : (s.read tree directory f).Gives s') :
    Registers tree directory (fs ++ [f]) s'.registry := by
  rw [read_eq] at h
  obtain ⟨o, ho, htake⟩ := gives_bind.1 h
  obtain ⟨r, hinsert, hsource⟩ := gives_take htake
  obtain ⟨-, hcontent, hfound⟩ := Registry.source?_insert hinsert
  constructor
  · intro g hg o' ho'
    rw [hsource, hfound]
    rcases List.mem_append.1 hg with hg | hg
    · obtain ⟨known, hknown, hsame⟩ := hs.found g hg o' ho'
      exact ⟨known, by rw [hknown, Option.some_or], hsame⟩
    · obtain rfl := List.mem_singleton.1 hg
      obtain rfl := ho'.unique ho
      cases hbefore : s.registry.source? o'.source.id with
      | none => exact ⟨o'.source, by rw [Option.none_or, if_pos rfl], rfl⟩
      | some known => exact ⟨known, Option.some_or, hcontent known hbefore⟩
  · intro id known hknown
    rw [hsource, hfound] at hknown
    cases hbefore : s.registry.source? id with
    | some known' =>
      rw [hbefore, Option.some_or] at hknown
      obtain ⟨g, hg, o', ho', heq, hid⟩ := hs.origin id known' hbefore
      exact ⟨g, List.mem_append_left _ hg, o', ho', heq.trans (Option.some.inj hknown),
        Option.some.inj hknown ▸ hid⟩
    | none =>
      rw [hbefore, Option.none_or] at hknown
      split at hknown
      · next hid =>
        obtain rfl := Option.some.inj hknown
        exact ⟨f, List.mem_append_right _ List.mem_cons_self, o, ho, rfl, hid.symm⟩
      · cases hknown

/-- **All tables** that are read. -/
theorem Registers.readSources {fs rest : List Fields}
    (hs : Registers tree directory fs s.registry)
    (h : (readSources tree directory s rest).Gives s') :
    Registers tree directory (fs ++ rest) s'.registry := by
  induction rest generalizing s fs with
  | nil =>
    obtain rfl := gives_ok.1 h
    rwa [List.append_nil]
  | cons f rest ih =>
    obtain ⟨s₁, hread, hrest⟩ := gives_bind.1 h
    have hall := ih (hs.read hread) hrest
    rwa [List.append_assoc, List.singleton_append] at hall

/-- **Tables in order** fail with one of them, when all tables in front of it are read. -/
theorem fails_readSources_iff {fs : List Fields} :
    (readSources tree directory s fs).Fails e ↔
      ∃ before f after s', fs = before ++ f :: after ∧
        (readSources tree directory s before).Gives s' ∧ (s'.read tree directory f).Fails e := by
  induction fs generalizing s with
  | nil => simp [readSources]
  | cons f rest ih =>
    unfold readSources
    rw [fails_bind]
    constructor
    · rintro (h | ⟨s₁, hread, h⟩)
      · exact ⟨[], f, rest, s, rfl, gives_ok.2 rfl, h⟩
      · obtain ⟨before, g, after, s', rfl, hbefore, hg⟩ := ih.1 h
        exact ⟨f :: before, g, after, s', rfl, gives_bind.2 ⟨s₁, hread, hbefore⟩, hg⟩
    · rintro ⟨before, g, after, s', heq, hbefore, hg⟩
      cases before with
      | nil =>
        obtain ⟨rfl, rfl⟩ := List.cons.inj heq
        obtain rfl := gives_ok.1 hbefore
        exact Or.inl hg
      | cons f' before =>
        obtain ⟨rfl, rfl⟩ := List.cons.inj heq
        obtain ⟨s₁, hread, hbefore⟩ := gives_bind.1 hbefore
        exact Or.inr ⟨s₁, hread, ih.2 ⟨before, g, after, s', rfl, hbefore, hg⟩⟩

/-- After tables that are read, another one stands for a source with the identity of one of theirs
and another text. -/
structure Clash (tree : Tree) (directory : Path) (before : List Fields) (f : Fields)
    (source : Source) : Prop where
  read : ∃ s, (readSources tree directory {} before).Gives s
  offer : ∃ o, (f.offer? tree directory).Gives o ∧ o.source = source
  earlier : ∃ g ∈ before, ∃ known, (g.offer? tree directory).Gives known ∧
    known.source.id = source.id ∧ known.source.content ≠ source.content

/-- **Two texts under one identity** break the reading of sources off exactly if they are
reached. -/
theorem fails_collision_iff {fs : List Fields} {c : RegistryError} :
    (readSources tree directory {} fs).Fails (.collision c) ↔
      ∃ before f after source, fs = before ++ f :: after ∧
        Clash tree directory before f source ∧ .collision source.id source.name = c := by
  rw [fails_readSources_iff]
  constructor
  · rintro ⟨before, f, after, s, rfl, hbefore, h⟩
    have hregisters := registers_empty.readSources (s := {}) hbefore
    rw [read_eq] at h
    rcases fails_bind.1 h with h | ⟨o, ho, h⟩
    · rcases fails_offer? h with ⟨_, _, h⟩ | ⟨_, _, ⟨_, _, h⟩ | ⟨_, _, h⟩⟩ <;> cases h
    · rcases fails_take h with ⟨_, _, h⟩ | ⟨c', hinsert, h⟩
      · cases h
      · obtain rfl := DocumentError.collision.inj h
        obtain ⟨-, known, hknown, hcontent, hc⟩ := Registry.insert_eq_error_iff.1 hinsert
        obtain ⟨g, hg, o', ho', rfl, hid⟩ := hregisters.origin _ known hknown
        exact ⟨before, f, after, o.source, rfl,
          ⟨⟨s, hbefore⟩, ⟨o, ho, rfl⟩, ⟨g, hg, o', ho', hid, hcontent⟩⟩, hc⟩
  · rintro ⟨before, f, after, source, rfl, ⟨⟨s, hbefore⟩, ⟨o, ho, rfl⟩, g, hg, o', ho', hid,
      hcontent⟩, rfl⟩
    obtain ⟨known, hknown, hsame⟩ :=
      (registers_empty.readSources (s := {}) hbefore).found g hg o' ho'
    refine ⟨before, f, after, s, rfl, hbefore, ?_⟩
    rw [read_eq]
    refine fails_bind.2 (Or.inr ⟨o, ho, fails_take_of_insert ?_⟩)
    exact Registry.insert_eq_error_iff.2 ⟨rfl, known, hid ▸ hknown, hsame ▸ hcontent, rfl⟩

/-- **Sources** that are not read have a flaw or a clash, or a path that cannot be read. -/
theorem fails_readSources {fs : List Fields} (h : (readSources tree directory {} fs).Fails e) :
    e.IsShape ∨ (∃ f ∈ fs, f.IsUnreadable tree directory e) ∨ ∃ c, .collision c = e := by
  obtain ⟨before, f, after, s, rfl, -, h⟩ := fails_readSources_iff.1 h
  rw [read_eq] at h
  rcases fails_bind.1 h with h | ⟨o, -, h⟩
  · rcases fails_offer? h with h | h
    · exact Or.inl h
    · exact Or.inr (Or.inl ⟨f, by simp, h⟩)
  · rcases fails_take h with h | ⟨c, -, h⟩
    · exact Or.inl h
    · exact Or.inr (Or.inr ⟨c, h⟩)

theorem isShape_of_reference (h : (s.reference f).Fails e) : e.IsShape := by
  rcases fails_bind.1 h with h | ⟨name, -, h⟩
  · exact Fields.isShape_of_require h
  · split at h
    · exact absurd h not_fails_pure
    · exact isShape_of_fails_refuse h

end Sources

/-! ## Diagnostics of tables -/

/-- An integer under some key of a table has too many digits to be written. -/
def Fields.Overflows (f : Fields) : Prop :=
  ∃ key v, f.table.find? key = some v ∧ v.isWritable = false

section Diagnostics

variable {s : Sources} {f : Fields} {e : DocumentError}

theorem isShape_of_readEmphasis (h : (readEmphasis f).Fails e) : e.IsShape := by
  rcases fails_bind.1 h with h | ⟨word, -, h⟩
  · exact Fields.isShape_of_optional h
  · split at h
    · exact absurd h not_fails_pure
    · exact absurd h not_fails_pure
    · split at h
      · exact absurd h not_fails_pure
      · exact isShape_of_fails_refuse h

theorem isShape_of_readNotes (h : (readNotes f).Fails e) : e.IsShape := by
  unfold readNotes at h
  split at h
  · exact absurd h not_fails_ok
  · exact absurd h not_fails_ok
  · split at h
    · exact absurd h not_fails_ok
    · exact isShape_of_fails_refuse h
  · exact isShape_of_fails_refuse h

theorem isShape_of_readLocation (h : (readLocation s f).Fails e) : e.IsShape := by
  unfold readLocation at h
  split at h
  · exact absurd h not_fails_ok
  · rcases fails_bind.1 h with h | ⟨file, -, h⟩
    · exact Sources.isShape_of_reference h
    · simp only [fails_bind, not_fails_pure, and_false, exists_false, or_false] at h
      exact Fields.isShape_of_optional h
  · exact isShape_of_fails_refuse h

/-- The warning about a reversed span can be written if both offsets can. -/
theorem not_isWritable_of_reversed {place : Text} {start stop : Int} {limit : DigitLimitError}
    (h : reversed place start stop = .error limit) :
    Text.isWritable stop = false ∨ Text.isWritable start = false := by
  unfold reversed Text.writeInt at h
  cases hstop : Text.isWritable stop with
  | false => exact Or.inl rfl
  | true =>
    cases hstart : Text.isWritable start with
    | false => exact Or.inr rfl
    | true =>
      rw [hstop, hstart] at h
      cases h

/-- **The span of a label** has a flaw, or offsets that no warning can show. -/
theorem fails_readSpan (h : (readSpan s f).Fails e) :
    e.IsShape ∨ f.Overflows ∧ ∃ limit, .refused (.digits limit) = e := by
  unfold readSpan at h
  rcases fails_bind.1 h with h | ⟨file, -, h⟩
  · exact Or.inl (Sources.isShape_of_reference h)
  rcases fails_bind.1 h with h | ⟨start, hstart, h⟩
  · exact Or.inl (Fields.isShape_of_require h)
  rcases fails_bind.1 h with h | ⟨stop, hstop, h⟩
  · exact Or.inl (Fields.isShape_of_optional h)
  dsimp only at h
  split at h
  · rcases fails_bind.1 h with h | ⟨-, -, h⟩
    · obtain ⟨limit, hreversed, he⟩ := fails_warn.1 h
      refine Or.inr ⟨?_, limit, he⟩
      have hfound := Fields.find?_of_require hstart
      rcases not_isWritable_of_reversed hreversed with hwide | hwide
      · cases stop with
        | none => exact ⟨_, _, hfound, hwide⟩
        | some stop => exact ⟨_, _, Fields.find?_of_optional hstop, hwide⟩
      · exact ⟨_, _, hfound, hwide⟩
    · exact absurd h not_fails_pure
  · exact absurd h not_fails_pure

/-- A warning about a value can be written if the value can. -/
theorem not_isWritable_of_message {w : Warning} {limit : DigitLimitError}
    (h : w.message = .error limit) : w.value.isWritable = false := by
  unfold Warning.message Data.Value.write at h
  cases hw : w.value.isWritable with
  | false => rfl
  | true =>
    rw [hw] at h
    cases h

/-- A warning about a color shows the value under its key. -/
theorem find?_of_mem_warnings {sect : Section} {key : Text} {w : Warning}
    (h : w ∈ (sect.color key).warnings) : sect.table.find? key = some w.value := by
  unfold Section.color at h
  split at h
  · cases h
  · next v hv =>
    split at h
    · cases h
    · rw [List.mem_singleton.1 h]
      exact Fields.find?_of_present? (f := ⟨sect.name, sect.table⟩) hv

/-- **A label** has a flaw, or an integer that no warning can show. -/
theorem fails_readLabel (h : (readLabel s f).Fails e) :
    e.IsShape ∨ f.Overflows ∧ ∃ limit, .refused (.digits limit) = e := by
  unfold readLabel at h
  rcases fails_bind.1 h with h | ⟨span, -, h⟩
  · exact fails_readSpan h
  rcases fails_bind.1 h with h | ⟨emphasis, -, h⟩
  · exact Or.inl (isShape_of_readEmphasis h)
  rcases fails_bind.1 h with h | ⟨-, -, h⟩
  · obtain ⟨w, hw, h⟩ := exists_of_fails_forM h
    obtain ⟨limit, hmessage, he⟩ := fails_warn.1 h
    exact Or.inr ⟨⟨_, _, find?_of_mem_warnings hw, not_isWritable_of_message hmessage⟩, limit, he⟩
  rcases fails_bind.1 h with h | ⟨message, -, h⟩
  · exact Or.inl (Fields.isShape_of_optional h)
  rcases fails_bind.1 h with h | ⟨order, -, h⟩
  · exact Or.inl (Fields.isShape_of_optional h)
  rcases fails_bind.1 h with h | ⟨priority, -, h⟩
  · exact Or.inl (Fields.isShape_of_optional h)
  · exact absurd h not_fails_pure

/-- **A diagnostic** has a flaw, or a label with an integer that no warning can show. -/
theorem fails_readDiagnostic (h : (readDiagnostic s f).Fails e) :
    e.IsShape ∨ ∃ ls, (f.tables (f.place ++ ".") "labels").Gives ls ∧
      (∃ l ∈ ls, l.Overflows) ∧ ∃ limit, .refused (.digits limit) = e := by
  unfold readDiagnostic at h
  rcases fails_bind.1 h with h | ⟨severity, -, h⟩
  · exact Or.inl (Fields.isShape_of_optional h)
  rcases fails_bind.1 h with h | ⟨message, -, h⟩
  · exact Or.inl (Fields.isShape_of_optional h)
  rcases fails_bind.1 h with h | ⟨code, -, h⟩
  · exact Or.inl (Fields.isShape_of_optional h)
  rcases fails_bind.1 h with h | ⟨ls, hls, h⟩
  · exact Or.inl (Fields.isShape_of_tables h)
  rcases fails_bind.1 h with h | ⟨labels, -, h⟩
  · obtain ⟨l, hl, h⟩ := exists_of_fails_mapM h
    rcases fails_readLabel h with h | ⟨hwide, hlimit⟩
    · exact Or.inl h
    · exact Or.inr ⟨ls, hls, ⟨l, hl, hwide⟩, hlimit⟩
  rcases fails_bind.1 h with h | ⟨notes, -, h⟩
  · exact Or.inl (isShape_of_readNotes h)
  rcases fails_bind.1 h with h | ⟨location, -, h⟩
  · exact Or.inl (isShape_of_readLocation h)
  · exact absurd h not_fails_pure

end Diagnostics

/-! ## Documents -/

namespace Document

variable {tree : Tree} {format : DocumentFormat} {directory : Path} {text : Text}

/-- The text holds a document with these tables of sources. -/
def HasSources (format : DocumentFormat) (text : Text) (fs : List Fields) : Prop :=
  ∃ t, format.read? text = .ok (.table t) ∧
    (Fields.tables ⟨"document", t⟩ [] "sources").Gives fs

/-- The text holds a document with this table of a label. -/
def HasLabel (format : DocumentFormat) (text : Text) (l : Fields) : Prop :=
  ∃ t ds ls, format.read? text = .ok (.table t) ∧
    (Fields.tables ⟨"document", t⟩ [] "diagnostics").Gives ds ∧
    ∃ d ∈ ds, (d.tables (d.place ++ ".") "labels").Gives ls ∧ l ∈ ls

/-- Why a text is refused as a document. -/
inductive Refusal (tree : Tree) (format : DocumentFormat) (directory : Path) (text : Text) :
    DocumentError → Prop where
  /-- The text is not of its format, or the shape of the document is wrong. -/
  | shape (place : Text) (flaw : ShapeFlaw) : Refusal tree format directory text (.shape place flaw)
  /-- The path of a source cannot be read. -/
  | unreadable {fs : List Fields} {f : Fields} {e : DocumentError}
      (sources : HasSources format text fs) (mem : f ∈ fs) (path : f.IsUnreadable tree directory e) :
      Refusal tree format directory text e
  /-- A source has the identity of an earlier one and another text. -/
  | clash {before after : List Fields} {f : Fields} {source : Source}
      (sources : HasSources format text (before ++ f :: after))
      (clash : Sources.Clash tree directory before f source) :
      Refusal tree format directory text (.collision (.collision source.id source.name))
  /-- The format does not allow what the text holds. -/
  | contents {r : Data.Refusal} (read : format.read? text = .error (.refused r)) :
      Refusal tree format directory text (.refused r)
  /-- A warning about a label has to show an integer of too many digits. -/
  | warning {l : Fields} {limit : DigitLimitError} (label : HasLabel format text l)
      (wide : l.Overflows) : Refusal tree format directory text (.refused (.digits limit))

theorem Refusal.of_isShape {e : DocumentError} (h : e.IsShape) :
    Refusal tree format directory text e := by
  obtain ⟨place, flaw, rfl⟩ := h
  exact .shape place flaw

/-- Two texts under one identity are the only collisions, and they always are. -/
theorem fails_ofText_collision_iff {c : RegistryError} :
    (ofText tree format directory text).Fails (.collision c) ↔
      ∃ before f after source, HasSources format text (before ++ f :: after) ∧
        Sources.Clash tree directory before f source ∧ .collision source.id source.name = c := by
  unfold ofText HasSources
  cases format.read? text with
  | error e => cases e <;> simp
  | ok v =>
    cases v with
    | table t =>
      simp only [ofValue, ofTable, fails_bind, not_fails_pure, and_false, exists_false, or_false,
        Except.ok.injEq, Data.Value.table.injEq, exists_eq_left']
      constructor
      · rintro (h | ⟨fs, hfs, h | ⟨s, hs, h | ⟨ds, hds, h⟩⟩⟩)
        · obtain ⟨_, _, h⟩ := Fields.isShape_of_tables h
          cases h
        · obtain ⟨before, f, after, source, rfl, hclash, hc⟩ := Sources.fails_collision_iff.1 h
          exact ⟨before, f, after, source, hfs, hclash, hc⟩
        · obtain ⟨_, _, h⟩ := Fields.isShape_of_tables h
          cases h
        · obtain ⟨d, -, h⟩ := exists_of_fails_mapM h
          rcases fails_readDiagnostic h with ⟨_, _, h⟩ | ⟨_, _, _, _, h⟩ <;> cases h
      · rintro ⟨before, f, after, source, hfs, hclash, hc⟩
        exact Or.inr ⟨_, hfs, Or.inl (Sources.fails_collision_iff.2
          ⟨before, f, after, source, rfl, hclash, hc⟩)⟩
    | _ => simp [ofValue]

/-- **A document that does not load** is refused for one of the causes. -/
theorem refusal_of_fails {e : DocumentError} (h : (ofText tree format directory text).Fails e) :
    Refusal tree format directory text e := by
  unfold ofText at h
  split at h
  · exact .of_isShape (isShape_of_fails_refuse h)
  · next r hr =>
    obtain rfl := fails_error.1 h
    exact .contents hr
  · next v hv =>
    unfold ofValue at h
    split at h
    · next t =>
      rcases fails_bind.1 h with h | ⟨fs, hfs, h⟩
      · exact .of_isShape (Fields.isShape_of_tables h)
      rcases fails_bind.1 h with h | ⟨s, hs, h⟩
      · rcases Sources.fails_readSources h with h | ⟨f, hf, h⟩ | ⟨c, rfl⟩
        · exact .of_isShape h
        · exact .unreadable ⟨t, hv, hfs⟩ hf h
        · obtain ⟨before, f, after, source, rfl, hclash, rfl⟩ := Sources.fails_collision_iff.1 h
          exact .clash ⟨t, hv, hfs⟩ hclash
      rcases fails_bind.1 h with h | ⟨ds, hds, h⟩
      · exact .of_isShape (Fields.isShape_of_tables h)
      rcases fails_bind.1 h with h | ⟨diagnostics, -, h⟩
      · obtain ⟨d, hd, h⟩ := exists_of_fails_mapM h
        rcases fails_readDiagnostic h with h | ⟨ls, hls, ⟨l, hl, hwide⟩, limit, rfl⟩
        · exact .of_isShape h
        · exact .warning ⟨t, ds, ls, hv, hds, d, hd, hls, hl⟩ hwide
      · exact absurd h not_fails_pure
    · exact .of_isShape (isShape_of_fails_refuse h)

/-- **A text is loaded as a document or refused** for one of the causes: a flaw of its shape, a path
that cannot be read, two texts under one identity, or contents that the format or a warning has no
digits for. Two texts under one identity always break loading off, as soon as they are reached. -/
theorem loads_or_refuses (tree : Tree) (format : DocumentFormat) (directory : Path) (text : Text) :
    ((∃ doc, (ofText tree format directory text).outcome = .ok doc) ∨
      ∃ e, (ofText tree format directory text).outcome = .error e ∧
        Refusal tree format directory text e) ∧
    ∀ c, (ofText tree format directory text).outcome = .error (.collision c) ↔
      ∃ before f after source, HasSources format text (before ++ f :: after) ∧
        Sources.Clash tree directory before f source ∧ .collision source.id source.name = c := by
  refine ⟨?_, fun c => fails_ofText_collision_iff⟩
  rcases (ofText tree format directory text).gives_or_fails with ⟨doc, h⟩ | ⟨e, h⟩
  · exact Or.inl ⟨doc, h⟩
  · exact Or.inr ⟨e, h, refusal_of_fails h⟩

/-- **Two texts under one name** are refused, and not for the shape of the document or a file. -/
theorem not_refuses_shape :
    let text : Text := "[[sources]]\nname = \"a\"\ntext = \"x\"\n\n" ++
      "[[sources]]\nname = \"a\"\ntext = \"y\"\n"
    ¬ ((∃ doc, (ofText ⟨Path.ofText "/w", []⟩ .toml (Path.ofText ".") text).outcome = .ok doc) ∨
      ∃ e, (ofText ⟨Path.ofText "/w", []⟩ .toml (Path.ofText ".") text).outcome = .error e ∧
        (e.IsShape ∨ ∃ r, e = .source r)) := by
  intro text
  have hcollision : (match (ofText ⟨Path.ofText "/w", []⟩ .toml (Path.ofText ".") text).outcome with
      | .error (.collision _) => true
      | _ => false) = true := by decide +kernel
  rintro (⟨doc, h⟩ | ⟨e, h, ⟨place, flaw, rfl⟩ | ⟨r, rfl⟩⟩) <;>
  · rw [h] at hcollision
    cases hcollision

end Document

end SourceReport
