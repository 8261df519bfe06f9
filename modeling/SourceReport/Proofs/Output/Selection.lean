import SourceReport.Proofs.Output.Ansi

/-!
# What escape sequences select

A terminal reads the parameters of a sequence as numbers. One number switches an attribute or
selects one of the named colors, more of them select a color by its index or its parts, and the
numbers for backgrounds are ten more than those for foregrounds. Read in this way, the sequences in
front of a painted row are the attributes of its style, one by one, so that two styles never give
the same output for a text that has something to paint.

This leaves two cases out. Newlines stand outside of sequences, so that no style shows on them. And
a color of index 0 is taken for no color (`Style.nonzero`), so that the styles are compared without
such colors.

* `Ansi.Selection.ofParameters?` reads the parameters of a sequence.
* `Style.selections` lists the attributes of a style.
* `Ansi.wrap` puts a row between sequences.

Results:
* `Ansi.read?_colorParameters`: the parameters of a color are read as this color.
* `Ansi.flatMap_sequence_injective`: sequences can be told apart.
* `Ansi.exists_write_eq`: what the sequences in an output select.
* `Ansi.write_apart`: two styles give two outputs.
-/

namespace SourceReport

namespace Ansi

/-! ## Reading sequences -/

/-- What a sequence selects. -/
inductive Selection where
  | foreground (c : Color)
  | background (c : Color)
  | bold (on : Bool)
  | underline (on : Bool)
deriving DecidableEq

namespace Selection

/-- The name of a color by its code as a foreground. -/
def name? (code : Nat) : Option Text :=
  if code = 39 then some "reset"
  else if 90 ≤ code then (Color.basicNames[code - 90]?).map (Color.brightFront ++ ·)
  else if 30 ≤ code then Color.basicNames[code - 30]?
  else none

/-- The color that numbers select as a foreground. -/
def color? : List Nat → Option Color
  | [code] => (name? code).map .named
  | [38, 5, index] => some (.indexed index)
  | [38, 2, red, green, blue] => some (.rgb red green blue)
  | _ => none

/-- What numbers select. -/
def read? : List Nat → Option Selection
  | [1] => some (.bold true)
  | [22] => some (.bold false)
  | [4] => some (.underline true)
  | [24] => some (.underline false)
  | code :: rest =>
    match color? (code :: rest) with
    | some c => some (.foreground c)
    | none => (color? ((code - 10) :: rest)).map .background
  | [] => none

/-- What the sequence with some parameters selects. -/
def ofParameters? (parameters : Text) : Option Selection :=
  read? ((parameters.splitOn (';' : CodePoint)).map (Text.ofDigits 10))

theorem ofParameters?_join {numbers : List Nat} (h : numbers ≠ []) :
    ofParameters? (Text.join ";" (numbers.map Text.ofNat)) = read? numbers := by
  have hsplit : (Text.join ";" (numbers.map Text.ofNat)).splitOn (';' : CodePoint) =
      numbers.map Text.ofNat := by
    refine List.splitOn_intercalate _ (fun piece hpiece hmem => ?_) (mt List.map_eq_nil_iff.1 h)
    obtain ⟨n, -, rfl⟩ := List.mem_map.1 hpiece
    exact absurd (Text.isAsciiDigit_of_mem_ofNat hmem) (by decide)
  rw [ofParameters?, hsplit, List.map_map]
  exact congrArg read? (List.map_id'' Text.ofDigits_ofNat numbers)

end Selection

end Ansi

/-! ## Styles -/

/-- The names of the valid colors that have one. -/
def Color.names : List Text := "reset" :: (basicNames ++ basicNames.map (brightFront ++ ·))

theorem Color.mem_names {name : Text} (h : (named name).isValid = true) : name ∈ names := by
  rw [isValid, Bool.or_eq_true, List.contains_iff_mem, beq_iff_eq] at h
  rcases h with h | rfl
  · refine List.mem_cons_of_mem _ (List.mem_append.2 ?_)
    unfold splitBright at h
    split at h
    · next rest hrest =>
      rw [Text.eq_append_of_dropFront? hrest]
      exact Or.inr (List.mem_map_of_mem h)
    · exact Or.inl h
  · exact List.mem_cons_self

namespace Style

/-- The style without colors of index 0. -/
def nonzero (s : Style) : Style where
  foreground := s.foreground.filter (· ≠ .indexed 0)
  background := s.background.filter (· ≠ .indexed 0)
  bold := s.bold
  underline := s.underline

/-- The attributes of a style, one by one. -/
def selections (s : Style) : List Ansi.Selection :=
  s.foreground.toList.map .foreground ++ s.background.toList.map .background ++
    [.bold s.bold, .underline s.underline]

theorem selections_injective : Function.Injective selections := by
  rintro ⟨foreground, background, bold, underline⟩ ⟨foreground', background', bold', underline'⟩ h
  cases foreground <;> cases background <;> cases foreground' <;> cases background' <;>
    simp_all [selections]

/-- Without colors of index 0 a style has no other attributes than it has with them. -/
theorem selections_nonzero_sublist (s : Style) : s.nonzero.selections.Sublist s.selections := by
  have hfilter : ∀ c : Option Color, (c.filter (· ≠ .indexed 0)).toList.Sublist c.toList := by
    intro c
    cases c with
    | none => exact List.Sublist.refl _
    | some c =>
      rw [Option.filter_some]
      split
      · exact List.Sublist.refl _
      · exact List.nil_sublist _
  exact (((hfilter s.foreground).map _).append ((hfilter s.background).map _)).append
    (List.Sublist.refl _)

end Style

namespace Ansi

/-! ## Colors -/

/-- **The numbers of a color** are read as this color, as a foreground and as a background. -/
theorem exists_numbers {c : Color} (h : c.isValid = true) :
    ∃ code rest, (∀ offset, colorParameters offset c =
        .ok (Text.join ";" (((code + offset) :: rest).map Text.ofNat))) ∧
      Selection.read? (code :: rest) = some (.foreground c) ∧
      Selection.read? ((code + 10) :: rest) = some (.background c) := by
  cases c with
  | named name =>
    have hnames : ∀ name ∈ Color.names, ∀ code ∈ nameCode? name,
        Selection.read? [code] = some (.foreground (.named name)) ∧
          Selection.read? [code + 10] = some (.background (.named name)) := by decide +kernel
    obtain ⟨code, hcode⟩ := exists_nameCode? h
    refine ⟨code, [], fun offset => ?_, hnames name (Color.mem_names h) code hcode⟩
    rw [colorParameters, hcode, List.map_singleton, Text.join, List.intercalate_singleton]
  | indexed n =>
    obtain ⟨n, rfl⟩ := Int.eq_ofNat_of_zero_le (Color.inByte_iff.1 h).1
    have hmark : (";5;" : Text) = ";" ++ (Text.ofNat 5 ++ ";") := by decide
    refine ⟨38, [5, n], fun offset => ?_, rfl, rfl⟩
    rw [colorParameters, hmark]
    simp [Text.join, List.intercalate_cons_cons, Text.ofInt]
  | rgb r g b =>
    simp only [Color.isValid, Bool.and_eq_true, Color.inByte_iff] at h
    obtain ⟨⟨⟨hr, -⟩, hg, -⟩, hb, -⟩ := h
    obtain ⟨r, rfl⟩ := Int.eq_ofNat_of_zero_le hr
    obtain ⟨g, rfl⟩ := Int.eq_ofNat_of_zero_le hg
    obtain ⟨b, rfl⟩ := Int.eq_ofNat_of_zero_le hb
    have hmark : (";2;" : Text) = ";" ++ (Text.ofNat 2 ++ ";") := by decide
    refine ⟨38, [2, r, g, b], fun offset => ?_, rfl, rfl⟩
    rw [colorParameters, hmark]
    simp [Text.join, List.intercalate_cons_cons, Text.ofInt]

theorem isParameters_join (numbers : List Nat) :
    IsParameters (Text.join ";" (numbers.map Text.ofNat)) := by
  intro c hc
  rcases mem_of_mem_intercalate hc with hc | ⟨piece, hpiece, hc⟩
  · obtain rfl := List.mem_singleton.1 hc
    decide
  · obtain ⟨n, -, rfl⟩ := List.mem_map.1 hpiece
    exact isParameters_ofNat n c hc

/-- The sequences with some parameters select some attributes, one by one. -/
structure Encodes (ps : List Text) (xs : List Selection) : Prop where
  parameters : ∀ p ∈ ps, IsParameters p
  read : ps.map Selection.ofParameters? = xs.map some

theorem encodes_nil : Encodes [] [] := ⟨fun _ h => absurd h List.not_mem_nil, rfl⟩

theorem encodes_singleton {p : Text} {x : Selection} (hp : IsParameters p)
    (h : Selection.ofParameters? p = some x) : Encodes [p] [x] where
  parameters := List.forall_mem_singleton.2 hp
  read := by rw [List.map_singleton, h, List.map_singleton]

theorem Encodes.append {ps ps' : List Text} {xs xs' : List Selection} (h : Encodes ps xs)
    (h' : Encodes ps' xs') : Encodes (ps ++ ps') (xs ++ xs') where
  parameters := List.forall_mem_append.2 ⟨h.parameters, h'.parameters⟩
  read := by rw [List.map_append, List.map_append, h.read, h'.read]

theorem Encodes.unique {ps : List Text} {xs xs' : List Selection} (h : Encodes ps xs)
    (h' : Encodes ps xs') : xs = xs' :=
  List.map_injective_iff.2 (fun _ _ => Option.some.inj) (h.read.symm.trans h'.read)

theorem encodes_join {numbers : List Nat} {x : Selection} (hne : numbers ≠ [])
    (h : Selection.read? numbers = some x) :
    Encodes [Text.join ";" (numbers.map Text.ofNat)] [x] :=
  encodes_singleton (isParameters_join numbers) ((Selection.ofParameters?_join hne).trans h)

/-- The index 0 selects nothing; every other valid color does. -/
theorem selects_eq {c : Color} (h : c.isValid = true) : selects c = decide (c ≠ .indexed 0) := by
  cases c with
  | named name =>
    have hempty : (Color.named []).isValid = false := by decide
    cases name with
    | nil =>
      rw [hempty] at h
      cases h
    | cons => rfl
  | indexed n => simp [selects]
  | rgb r g b => rfl

/-- **The parameters of a color** select it, as a foreground and as a background. -/
theorem exists_colorParameters_eq {c : Color} (h : c.isValid = true) :
    (∃ p, colorParameters 0 c = .ok p ∧ Encodes [p] [.foreground c]) ∧
      ∃ p, colorParameters 10 c = .ok p ∧ Encodes [p] [.background c] := by
  obtain ⟨code, rest, hparameters, hforeground, hbackground⟩ := exists_numbers h
  exact ⟨⟨_, hparameters 0, encodes_join (List.cons_ne_nil _ _) hforeground⟩,
    ⟨_, hparameters 10, encodes_join (List.cons_ne_nil _ _) hbackground⟩⟩

/-- **The sequence of a color** selects it, unless its index is 0. -/
theorem exists_colorSequence_eq {offset : Nat} {make : Color → Selection} {c : Option Color}
    (hmake : ∀ c' ∈ c, ∃ p, colorParameters offset c' = .ok p ∧ Encodes [p] [make c'])
    (h : ∀ c' ∈ c, c'.isValid = true) :
    ∃ ps, colorSequence offset c = .ok (ps.flatMap sequence) ∧
      Encodes ps ((c.filter (· ≠ .indexed 0)).toList.map make) := by
  have hfilter : c.filter selects = c.filter (· ≠ .indexed 0) := by
    cases c with
    | none => rfl
    | some c' => simp [Option.filter_some, selects_eq (h c' rfl)]
  unfold colorSequence
  rw [hfilter]
  cases hc : c.filter (· ≠ .indexed 0) with
  | none => exact ⟨[], rfl, encodes_nil⟩
  | some c' =>
    obtain ⟨p, hp, hencodes⟩ := hmake c' (Option.filter_eq_some_iff.1 hc).1
    refine ⟨[p], ?_, hencodes⟩
    dsimp only
    rw [hp, List.flatMap_singleton]
    rfl

/-! ## Painted rows -/

/-- **Sequences can be told apart**: their parameters are found again. -/
theorem flatMap_sequence_injective {ps qs : List Text} (hp : ∀ p ∈ ps, IsParameters p)
    (hq : ∀ q ∈ qs, IsParameters q) (h : ps.flatMap sequence = qs.flatMap sequence) : ps = qs := by
  induction ps generalizing qs with
  | nil =>
    cases qs with
    | nil => rfl
    | cons q qs => cases h
  | cons p ps ih =>
    cases qs with
    | nil => cases h
    | cons q qs =>
      rw [List.forall_mem_cons] at hp hq
      rw [List.flatMap_cons, List.flatMap_cons] at h
      have hrest : ps.flatMap sequence = qs.flatMap sequence := by
        have hdrop := congrArg dropSequence? h
        rw [dropSequence?_sequence hp.1, dropSequence?_sequence hq.1] at hdrop
        exact Option.some.inj hdrop
      rw [hrest, List.append_cancel_right_eq] at h
      have hpq : p = q := by simpa [sequence] using h
      rw [hpq, ih hp.2 hq.2 hrest]

/-- A style that is valid is painted by sequences that select its attributes. -/
theorem exists_paint_eq {s : Style} (h : s.IsValid) :
    ∃ ps, Encodes ps s.nonzero.selections ∧
      ∀ t, paint (.ofStyle s) t = .ok (ps.flatMap sequence ++ t ++ sequence "0") := by
  obtain ⟨ps, hps, hforeground⟩ :=
    exists_colorSequence_eq (fun c hc => (exists_colorParameters_eq (h.1 c hc)).1) h.1
  obtain ⟨qs, hqs, hbackground⟩ :=
    exists_colorSequence_eq (fun c hc => (exists_colorParameters_eq (h.2 c hc)).2) h.2
  have hbold : Encodes [if s.bold then "1" else "22"] [.bold s.bold] := by
    cases s.bold <;> exact encodes_singleton (by decide) (by decide +kernel)
  have hunderline : Encodes [if s.underline then "4" else "24"] [.underline s.underline] := by
    cases s.underline <;> exact encodes_singleton (by decide) (by decide +kernel)
  refine ⟨_, (hforeground.append hbackground).append (hbold.append hunderline), fun t => ?_⟩
  have hfront : colorSequence 0 (Attributes.ofStyle s).foreground = .ok (ps.flatMap sequence) := hps
  have hback : colorSequence 10 (Attributes.ofStyle s).background = .ok (qs.flatMap sequence) := hqs
  unfold paint
  rw [hfront]
  dsimp only
  rw [hback]
  simp [Attributes.ofStyle, switchSequence]

/-- A row behind sequences and before the one that ends them. An empty row stays as it is. -/
def wrap (ps : List Text) (row : Text) : Text :=
  if row.isEmpty then row else ps.flatMap sequence ++ row ++ sequence "0"

/-- **What a text becomes** in a valid style: each row is wrapped by sequences that select the
attributes of the style. -/
theorem exists_write_eq {s : Style} (h : s.IsValid) (hplain : s ≠ .plain) :
    ∃ ps, Encodes ps s.nonzero.selections ∧
      ∀ t, write s t = .ok (Text.join "\n" ((Text.rows t).map (wrap ps))) := by
  obtain ⟨ps, hencodes, hpaint⟩ := exists_paint_eq h
  refine ⟨ps, hencodes, fun t => ?_⟩
  have hrow : ∀ r : Text, (if r.isEmpty then .ok r else paint (.ofStyle s) r) =
      .ok (wrap ps r) := by
    intro r
    rw [wrap, hpaint]
    split <;> rfl
  have hnot : s.isPlain = false := decide_eq_false hplain
  unfold write
  rw [hnot, if_neg Bool.false_ne_true]
  simp only [hrow]
  exact congrArg (Except.map (Text.join "\n")) List.mapM_pure

/-! ## Two styles -/

theorem newline_not_mem_sequence {p : Text} (h : IsParameters p) :
    (('\n' : Char) : CodePoint) ∉ sequence p := by
  have hparameter : isParameter '\n' = false := by decide
  have hp : (('\n' : Char) : CodePoint) ∉ p := by
    intro hmem
    have htrue := h _ hmem
    rw [hparameter] at htrue
    cases htrue
  have hfront : (('\n' : Char) : CodePoint) ∉ (escape :: "[" : Text) := by decide
  have hletter : (('\n' : Char) : CodePoint) ∉ ("m" : Text) := by decide
  exact List.not_mem_append (List.not_mem_append hfront hp) hletter

theorem newline_not_mem_wrap {ps : List Text} (hp : ∀ p ∈ ps, IsParameters p) {row : Text}
    (h : (('\n' : Char) : CodePoint) ∉ row) : (('\n' : Char) : CodePoint) ∉ wrap ps row := by
  unfold wrap
  split
  · exact h
  · have hfront : (('\n' : Char) : CodePoint) ∉ ps.flatMap sequence := by
      intro hmem
      obtain ⟨p, hps, hmem⟩ := List.mem_flatMap.1 hmem
      exact newline_not_mem_sequence (hp p hps) hmem
    exact List.not_mem_append (List.not_mem_append hfront h) (newline_not_mem_sequence (by decide))

/-- Rows that two functions take to rows are found again in what is put together. -/
theorem eqOn_rows_of_join_eq {f g : Text → Text} {t : Text}
    (hf : ∀ r, (('\n' : Char) : CodePoint) ∉ r → (('\n' : Char) : CodePoint) ∉ f r)
    (hg : ∀ r, (('\n' : Char) : CodePoint) ∉ r → (('\n' : Char) : CodePoint) ∉ g r)
    (h : Text.join "\n" ((Text.rows t).map f) = Text.join "\n" ((Text.rows t).map g)) :
    ∀ r ∈ Text.rows t, f r = g r := by
  have hsplit : ∀ k : Text → Text,
      (∀ r, (('\n' : Char) : CodePoint) ∉ r → (('\n' : Char) : CodePoint) ∉ k r) →
        Text.rows (Text.join "\n" ((Text.rows t).map k)) = (Text.rows t).map k := by
    intro k hk
    have hne : (Text.rows t).map k ≠ [] := mt List.map_eq_nil_iff.1 (List.splitOn_ne_nil _ t)
    refine List.splitOn_intercalate _ (fun piece hpiece => ?_) hne
    obtain ⟨r, hr, rfl⟩ := List.mem_map.1 hpiece
    exact hk r fun hmem => (Text.mem_of_mem_splitOn hr hmem).2 rfl
  have hrows := congrArg Text.rows h
  rw [hsplit f hf, hsplit g hg] at hrows
  exact List.map_inj_left.1 hrows

theorem exists_row_ne_nil {t : Text} (h : ∃ c ∈ t, c ≠ '\n') : ∃ r ∈ Text.rows t, r ≠ [] := by
  obtain ⟨c, hc, hne⟩ := h
  have hjoin : Text.join "\n" (Text.rows t) = t := List.intercalate_splitOn _
  rw [← hjoin] at hc
  rcases mem_of_mem_intercalate hc with hc | ⟨r, hr, hc⟩
  · exact absurd (List.mem_singleton.1 hc) hne
  · exact ⟨r, hr, List.ne_nil_of_mem hc⟩

/-- Rows that are not empty get longer. -/
theorem wrap_ne_self {ps : List Text} {row : Text} (h : row ≠ []) : wrap ps row ≠ row := by
  intro heq
  have hlength := congrArg List.length heq
  simp [wrap, h, sequence] at hlength
  omega

/-- What a style makes of rows: it leaves them as they are, or wraps them by sequences that select
its attributes. -/
def Paints (s : Style) (f : Text → Text) : Prop :=
  s = .plain ∧ f = id ∨ ∃ ps, Encodes ps s.nonzero.selections ∧ f = wrap ps

theorem exists_paints {s : Style} (h : s.IsValid) :
    ∃ f, Paints s f ∧ ∀ t, write s t = .ok (Text.join "\n" ((Text.rows t).map f)) := by
  by_cases hplain : s = .plain
  · subst hplain
    refine ⟨id, Or.inl ⟨rfl, rfl⟩, fun t => ?_⟩
    rw [List.map_id]
    exact congrArg Except.ok (List.intercalate_splitOn _).symm
  · obtain ⟨ps, hencodes, hwrite⟩ := exists_write_eq h hplain
    exact ⟨wrap ps, Or.inr ⟨ps, hencodes, rfl⟩, hwrite⟩

theorem Paints.newline_not_mem {s : Style} {f : Text → Text} (h : Paints s f) {row : Text}
    (hrow : (('\n' : Char) : CodePoint) ∉ row) : (('\n' : Char) : CodePoint) ∉ f row := by
  rcases h with ⟨-, rfl⟩ | ⟨ps, hencodes, rfl⟩
  · exact hrow
  · exact newline_not_mem_wrap hencodes.parameters hrow

/-- **Rows in two styles** are equal only if the styles have the same attributes. -/
theorem Paints.nonzero_eq {s s' : Style} {f g : Text → Text} (hf : Paints s f) (hg : Paints s' g)
    {row : Text} (hrow : row ≠ []) (h : f row = g row) : s.nonzero = s'.nonzero := by
  rcases hf with ⟨rfl, rfl⟩ | ⟨ps, hps, rfl⟩ <;> rcases hg with ⟨rfl, rfl⟩ | ⟨qs, hqs, rfl⟩
  · rfl
  · exact absurd h.symm (wrap_ne_self hrow)
  · exact absurd h (wrap_ne_self hrow)
  · have hwrapped : ps.flatMap sequence = qs.flatMap sequence := by
      simpa [wrap, hrow] using h
    obtain rfl := flatMap_sequence_injective hps.parameters hqs.parameters hwrapped
    exact Style.selections_injective (hps.unique hqs)

/-- **Newlines** are written as they are, in every style. -/
theorem write_newlines {t : Text} (h : ∀ c ∈ t, c = '\n') (s : Style) : write s t = .ok t := by
  have hempty : ∀ r ∈ Text.rows t, r = [] := by
    intro r hr
    refine List.eq_nil_iff_forall_not_mem.2 fun c hc => ?_
    have hmem := Text.mem_of_mem_splitOn hr hc
    exact hmem.2 (h c hmem.1)
  unfold write
  split
  · rfl
  · have hrow : ∀ r ∈ Text.rows t, ∃ out,
        (if r.isEmpty then .ok r else paint (.ofStyle s) r) = .ok out ∧ r = out := by
      intro r hr
      rw [hempty r hr]
      exact ⟨[], rfl, rfl⟩
    obtain ⟨outs, houts, hrel⟩ := exists_mapM_eq_ok hrow
    rw [List.forall₂_eq_eq_eq] at hrel
    subst hrel
    dsimp only
    rw [houts]
    exact congrArg Except.ok (List.intercalate_splitOn _)

/-- **Styles can be told apart.** Two styles of valid colors that differ, in more than colors of
index 0, give different outputs for every text with a character that is no newline. In a style with
attributes each row that is not empty stands behind sequences that select its attributes, one by
one; only a color of index 0 may be missing. Newlines alone are written as they are. -/
theorem write_apart {s s' : Style} (h : s.IsValid) (h' : s'.IsValid) (t : Text) :
    (s.nonzero ≠ s'.nonzero → (∃ c ∈ t, c ≠ '\n') →
      ∃ out out', write s t = .ok out ∧ write s' t = .ok out' ∧ out ≠ out') ∧
    (s ≠ .plain → ∃ ps xs, Encodes ps xs ∧
      s.nonzero.selections.Sublist xs ∧ xs.Sublist s.selections ∧
      write s t = .ok (Text.join "\n" ((Text.rows t).map (wrap ps)))) ∧
    ((∀ c ∈ t, c = '\n') → ∀ style, write style t = .ok t) := by
  refine ⟨fun hne htext => ?_, fun hplain => ?_, write_newlines⟩
  · obtain ⟨f, hf, hwrite⟩ := exists_paints h
    obtain ⟨g, hg, hwrite'⟩ := exists_paints h'
    obtain ⟨r, hr, hrow⟩ := exists_row_ne_nil htext
    refine ⟨_, _, hwrite t, hwrite' t, fun heq => hne ?_⟩
    have hrows := eqOn_rows_of_join_eq (fun _ => hf.newline_not_mem) (fun _ => hg.newline_not_mem)
      heq
    exact hf.nonzero_eq hg hrow (hrows r hr)
  · obtain ⟨ps, hencodes, hwrite⟩ := exists_write_eq h hplain
    exact ⟨ps, _, hencodes, List.Sublist.refl _, s.selections_nonzero_sublist, hwrite t⟩

/-- One color by its name and by its index. -/
theorem write_apart_red :
    let named : Style := { foreground := some (.named "bright_red") }
    let indexed : Style := { foreground := some (.indexed 9) }
    (∃ out out', write named "a\n" = .ok out ∧ write indexed "a\n" = .ok out' ∧ out ≠ out') ∧
      ∃ ps xs, Encodes ps xs ∧ .foreground (.named "bright_red") ∈ xs ∧
        write named "a\n" = .ok (Text.join "\n" [wrap ps "a", []]) := by
  intro named indexed
  have hnamed : named.IsValid := by decide
  have hindexed : indexed.IsValid := by decide
  obtain ⟨hapart, hselects, -⟩ := write_apart hnamed hindexed "a\n"
  obtain ⟨ps, xs, hencodes, hsublist, -, hwrite⟩ := hselects (by decide)
  have hmem : .foreground (.named "bright_red") ∈ xs := hsublist.subset (by decide)
  exact ⟨hapart (by decide) ⟨'a', by decide, by decide⟩, ps, xs, hencodes, hmem, hwrite⟩

/-- **A newline** is the same in bold and in no style at all, and a character is the same in bold
with and without the color of index 0. -/
theorem write_not_apart :
    let bold : Style := { bold := true }
    let black : Style := { foreground := some (.indexed 0), bold := true }
    Style.plain.IsValid ∧ bold.IsValid ∧ black.IsValid ∧ bold ≠ .plain ∧ black ≠ bold ∧
      write bold "\n" = write .plain "\n" ∧ write black "x" = write bold "x" := by
  decide +kernel

end Ansi

end SourceReport
