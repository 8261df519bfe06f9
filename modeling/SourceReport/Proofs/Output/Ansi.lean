import SourceReport.Output.Ansi
import SourceReport.Proofs.Output.Pieces
import SourceReport.Proofs.Style.Color
import SourceReport.Proofs.Text.Characters

/-!
# Erasing escape sequences

A terminal takes the escape sequences out of what it shows, and keeps the attributes that they
select until another one resets them. A text written in a style that can be written is shown as it
is, if it has no escape character of its own, and no newline is shown with attributes.

* `Ansi.painting` lists what a terminal shows: characters, each with whether attributes are set.
* `Ansi.Shows` says that an output is shown as a text, whatever follows it.

Results:
* `Ansi.map_fst_painting`: what a terminal shows is the text without its sequences.
* `Ansi.exists_write_eq_ok`: every text can be written in such a style.
-/

namespace SourceReport

namespace Ansi

/-! ## What a terminal shows -/

/-- What a terminal shows of a text, beginning with attributes set or not. Each step takes at least
one character. -/
def paintingFrom : (fuel : Nat) → Bool → Text → List (CodePoint × Bool)
  | 0, painted, t => t.map (·, painted)
  | _, _, [] => []
  | fuel + 1, painted, c :: rest =>
    match dropSequence? (c :: rest) with
    | some after => paintingFrom fuel (c :: rest ≠ sequence "0" ++ after) after
    | none => (c, painted) :: paintingFrom fuel painted rest

/-- What a terminal shows of a text: its characters, each with whether attributes are set. -/
def painting (painted : Bool) (t : Text) : List (CodePoint × Bool) :=
  paintingFrom t.length painted t

theorem length_lt_of_dropSequence? {t after : Text} (h : dropSequence? t = some after) :
    after.length < t.length := by
  unfold dropSequence? at h
  split at h
  · next e b rest =>
    split at h
    · split at h
      · next c kept hkept =>
        have hle := (List.dropWhile_sublist isParameter (l := rest)).length_le
        rw [hkept, List.length_cons] at hle
        split at h
        · obtain rfl := Option.some.inj h
          simp only [List.length_cons]
          omega
        · cases h
      · cases h
    · cases h
  · cases h

theorem paintingFrom_eq {fuel : Nat} {t : Text} (h : t.length ≤ fuel) (painted : Bool) :
    paintingFrom fuel painted t = painting painted t := by
  unfold painting
  generalize hn : t.length = n at h
  have hle : t.length ≤ n := Nat.le_of_eq hn
  clear hn
  -- Both amounts of fuel are enough: a step takes one unit of each, and at least one character.
  induction fuel generalizing t n painted with
  | zero =>
    obtain rfl : n = 0 := Nat.le_zero.1 h
    rfl
  | succ fuel ih =>
    cases t with
    | nil => cases n <;> rfl
    | cons c rest =>
      obtain ⟨n, rfl⟩ : ∃ m, n = m + 1 := ⟨n - 1, by rw [List.length_cons] at hle; omega⟩
      rw [paintingFrom, paintingFrom]
      split
      · next after hafter =>
        have hlt := length_lt_of_dropSequence? hafter
        exact ih _ n (by omega) (by omega)
      · rw [ih _ n (by omega) (by rw [List.length_cons] at hle; omega)]

theorem painting_of_sequence {t after : Text} (h : dropSequence? t = some after) (painted : Bool) :
    painting painted t = painting (t ≠ sequence "0" ++ after) after := by
  cases t with
  | nil => cases h
  | cons c rest =>
    have hlt := length_lt_of_dropSequence? h
    rw [List.length_cons] at hlt
    rw [← paintingFrom_eq (Nat.le_of_lt_succ hlt), painting, List.length_cons, paintingFrom, h]

theorem painting_cons {c : CodePoint} {rest : Text} (h : dropSequence? (c :: rest) = none)
    (painted : Bool) : painting painted (c :: rest) = (c, painted) :: painting painted rest := by
  rw [painting, List.length_cons, paintingFrom, h]
  rfl

/-- **What a terminal shows** is the text without its sequences. -/
theorem map_fst_painting (painted : Bool) (t : Text) :
    (painting painted t).map Prod.fst = strip t := by
  unfold painting strip
  generalize t.length = fuel
  induction fuel generalizing painted t with
  | zero => simp [paintingFrom, stripFrom, Function.comp_def]
  | succ fuel ih =>
    cases t with
    | nil => rfl
    | cons c rest =>
      rw [paintingFrom, stripFrom]
      cases dropSequence? (c :: rest) with
      | some after => exact ih _ after
      | none => exact congrArg (c :: ·) (ih painted rest)

/-! ## Texts and sequences -/

/-- A text selects attributes: a terminal shows nothing for it. -/
def IsSilent (t : Text) : Prop :=
  ∀ painted, ∃ after, ∀ rest, painting painted (t ++ rest) = painting after rest

/-- A terminal shows an output as a text, newlines without attributes, whatever follows it. No
attributes are set behind it. -/
def Shows (out t : Text) : Prop :=
  ∃ cells : List (CodePoint × Bool), cells.map Prod.fst = t ∧
    (∀ c ∈ cells, c.1 = '\n' → c.2 = false) ∧
    ∀ rest, painting false (out ++ rest) = cells ++ painting false rest

theorem isSilent_nil : IsSilent [] := fun painted => ⟨painted, fun _ => rfl⟩

theorem IsSilent.append {s t : Text} (hs : IsSilent s) (ht : IsSilent t) : IsSilent (s ++ t) := by
  intro painted
  obtain ⟨middle, hmiddle⟩ := hs painted
  obtain ⟨after, hafter⟩ := ht middle
  exact ⟨after, fun rest => by rw [List.append_assoc, hmiddle, hafter]⟩

theorem shows_nil : Shows [] [] := ⟨[], rfl, fun _ hc => absurd hc List.not_mem_nil, fun _ => rfl⟩

theorem Shows.append {out out' t t' : Text} (h : Shows out t) (h' : Shows out' t') :
    Shows (out ++ out') (t ++ t') := by
  obtain ⟨cells, rfl, hcells, hshow⟩ := h
  obtain ⟨cells', rfl, hcells', hshow'⟩ := h'
  refine ⟨cells ++ cells', List.map_append, fun c hc => ?_, fun rest => ?_⟩
  · rcases List.mem_append.1 hc with hc | hc
    · exact hcells c hc
    · exact hcells' c hc
  · rw [List.append_assoc, hshow, hshow', List.append_assoc]

/-- **An output is shown as a text** if its sequences are taken out, and shows newlines only where
no attributes are set. -/
theorem Shows.strip {out t : Text} (h : Shows out t) :
    strip out = t ∧ ∀ c ∈ painting false out, c.1 = '\n' → c.2 = false := by
  obtain ⟨cells, rfl, hcells, hshow⟩ := h
  have hpainting : painting false out = cells := by
    have hall := hshow []
    rwa [List.append_nil, show painting false [] = [] from rfl, List.append_nil] at hall
  rw [← map_fst_painting false, hpainting]
  exact ⟨rfl, hcells⟩

/-- The code points that are no escape characters are shown. -/
theorem painting_append {t : Text} (h : escape ∉ t) (painted : Bool) (rest : Text) :
    painting painted (t ++ rest) = t.map (·, painted) ++ painting painted rest := by
  induction t with
  | nil => rfl
  | cons c t ih =>
    rw [List.mem_cons, not_or] at h
    have hnone : dropSequence? (c :: (t ++ rest)) = none := by
      unfold dropSequence?
      split
      · next e b more heq =>
        rw [List.cons.injEq] at heq
        rw [if_neg fun hseq => h.1 (hseq.1.symm.trans heq.1.symm)]
      · rfl
    rw [List.cons_append, painting_cons hnone, ih h.2]
    rfl

theorem shows_self {t : Text} (h : escape ∉ t) : Shows t t := by
  refine ⟨t.map (·, false), ?_, fun c hc _ => ?_, painting_append h false⟩
  · simp [Function.comp_def]
  · obtain ⟨c, _, rfl⟩ := List.mem_map.1 hc
    rfl

/-- The parameters of a sequence. -/
def IsParameters (t : Text) : Prop := ∀ c ∈ t, isParameter c = true

instance (t : Text) : Decidable (IsParameters t) :=
  inferInstanceAs (Decidable (∀ c ∈ t, isParameter c = true))

theorem dropSequence?_sequence {parameters : Text} (h : IsParameters parameters) (rest : Text) :
    dropSequence? (sequence parameters ++ rest) = some rest := by
  have hdrop : (parameters ++ ("m" ++ rest)).dropWhile isParameter = "m" ++ rest := by
    rw [List.dropWhile_append_of_pos h]
    rfl
  have heq : sequence parameters ++ rest = escape :: '[' :: (parameters ++ ("m" ++ rest)) := by
    simp only [sequence, List.append_assoc]
    rfl
  rw [heq, dropSequence?, if_pos ⟨rfl, rfl⟩, hdrop]
  rfl

theorem painting_sequence {parameters : Text} (h : IsParameters parameters)
    (painted : Bool) (rest : Text) : painting painted (sequence parameters ++ rest) =
      painting (sequence parameters ≠ sequence "0") rest := by
  rw [painting_of_sequence (dropSequence?_sequence h rest)]
  simp only [ne_eq, List.append_left_inj]

theorem isSilent_sequence {parameters : Text} (h : IsParameters parameters) :
    IsSilent (sequence parameters) :=
  fun painted => ⟨_, painting_sequence h painted⟩

/-- **Text between sequences** is shown as it is if the last one resets the attributes. -/
theorem shows_painted {front t : Text} (hfront : IsSilent front) (hescape : escape ∉ t)
    (hnewline : (('\n' : Char) : CodePoint) ∉ t) : Shows (front ++ t ++ sequence "0") t := by
  obtain ⟨painted, hpainted⟩ := hfront false
  refine ⟨t.map (·, painted), ?_, fun c hc heq => ?_, fun rest => ?_⟩
  · simp [Function.comp_def]
  · obtain ⟨d, hd, rfl⟩ := List.mem_map.1 hc
    have hline : d = '\n' := heq
    exact absurd (hline ▸ hd) hnewline
  · rw [List.append_assoc, List.append_assoc, hpainted, painting_append hescape,
      painting_sequence (by decide)]
    simp

/-- Rows are shown with newlines between them. -/
theorem shows_join {rows outs : List Text}
    (h : List.Forall₂ (fun row out => Shows out row) rows outs) :
    Shows (Text.join "\n" outs) (Text.join "\n" rows) := by
  induction h with
  | nil => exact shows_nil
  | @cons row out rows outs hrow hrest ih =>
    cases hrest with
    | nil => simpa [Text.join] using hrow
    | cons hrow' hrest =>
      have hnewline : Shows "\n" "\n" := shows_self (by decide)
      simp only [Text.join, List.intercalate_cons_cons] at ih ⊢
      exact (hrow.append hnewline).append ih

/-! ## Styles -/

/-- The names of valid colors have codes. -/
theorem exists_nameCode? {name : Text} (h : (Color.named name).isValid = true) :
    ∃ code, nameCode? name = some code := by
  unfold nameCode?
  by_cases hreset : name = "reset"
  · exact ⟨39, if_pos hreset⟩
  · rw [if_neg hreset]
    have hmem : (Color.splitBright name).1 ∈ Color.basicNames := by
      simpa [Color.isValid, hreset] using h
    generalize Color.splitBright name = split at hmem ⊢
    obtain ⟨base, bright⟩ := split
    obtain ⟨code, hcode⟩ := Option.isSome_iff_exists.1 (List.isSome_idxOf?.2 hmem)
    exact ⟨_, congrArg (Option.map _) hcode⟩

theorem IsParameters.append {s t : Text} (hs : IsParameters s) (ht : IsParameters t) :
    IsParameters (s ++ t) :=
  List.forall_mem_append.2 ⟨hs, ht⟩

theorem isParameters_ofNat (n : Nat) : IsParameters (Text.ofNat n) := by
  intro c hc
  rw [isParameter, Text.isAsciiDigit_of_mem_ofNat hc, Bool.or_true]

theorem isParameters_ofInt {i : Int} (h : 0 ≤ i) : IsParameters (Text.ofInt i) := by
  obtain ⟨n, rfl⟩ := Int.eq_ofNat_of_zero_le h
  exact isParameters_ofNat n

/-- A color that can be written is selected by a number. -/
theorem exists_colorParameters_eq_ok (offset : Nat) {c : Color} (h : c.IsShowable) :
    ∃ t, colorParameters offset c = .ok t ∧ IsParameters t := by
  cases c with
  | named name =>
    obtain ⟨code, hcode⟩ := exists_nameCode? h
    refine ⟨Text.ofNat (code + offset), ?_, isParameters_ofNat _⟩
    rw [colorParameters, hcode]
  | indexed n =>
    have hmark : IsParameters ";5;" := by decide
    exact ⟨_, rfl, ((isParameters_ofNat _).append hmark).append (isParameters_ofInt h)⟩
  | rgb r g b =>
    have hmark : IsParameters ";2;" := by decide
    have hsemicolon : IsParameters ";" := by decide
    refine ⟨_, rfl, ((isParameters_ofNat _).append hmark).append ?_⟩
    have hjoin : Text.join ";" ([r, g, b].map Text.ofInt) =
        Text.ofInt r ++ (";" ++ (Text.ofInt g ++ (";" ++ Text.ofInt b))) := by
      simp [Text.join, List.intercalate_cons_cons]
    rw [hjoin]
    exact (isParameters_ofInt h.1).append (hsemicolon.append
      ((isParameters_ofInt h.2.1).append (hsemicolon.append (isParameters_ofInt h.2.2))))

theorem exists_colorSequence_eq_ok (offset : Nat) {c : Option Color}
    (h : ∀ c' ∈ c, c'.IsShowable) : ∃ t, colorSequence offset c = .ok t ∧ IsSilent t := by
  unfold colorSequence
  cases hc : c.filter selects with
  | none => exact ⟨[], rfl, isSilent_nil⟩
  | some c' =>
    obtain ⟨t, ht, hparameters⟩ :=
      exists_colorParameters_eq_ok offset (h c' (Option.filter_eq_some_iff.1 hc).1)
    refine ⟨sequence t, ?_, isSilent_sequence hparameters⟩
    dsimp only
    rw [ht]
    rfl

theorem isSilent_switchSequence {on off : Text} (hon : IsParameters on) (hoff : IsParameters off)
    (b : Option Bool) : IsSilent (switchSequence on off b) := by
  cases b with
  | none => exact isSilent_nil
  | some b =>
    cases b with
    | true => exact isSilent_sequence hon
    | false => exact isSilent_sequence hoff

/-- **A text in a style that can be written** stands between sequences. -/
theorem exists_paint_eq_ok {s : Style} (h : s.IsShowable) :
    ∃ front, IsSilent front ∧ ∀ t, paint (.ofStyle s) t = .ok (front ++ t ++ sequence "0") := by
  obtain ⟨foreground, hforeground, hsilent⟩ := exists_colorSequence_eq_ok 0 h.foreground
  obtain ⟨background, hbackground, hsilent'⟩ := exists_colorSequence_eq_ok 10 h.background
  let attributes := Attributes.ofStyle s
  refine ⟨foreground ++ background ++ switchSequence "1" "22" attributes.bold
    ++ switchSequence "2" "22" attributes.dim ++ switchSequence "4" "24" attributes.underline,
    ?_, fun t => ?_⟩
  · have hbold : IsSilent (switchSequence "1" "22" attributes.bold) :=
      isSilent_switchSequence (by decide) (by decide) _
    have hdim : IsSilent (switchSequence "2" "22" attributes.dim) :=
      isSilent_switchSequence (by decide) (by decide) _
    have hunderline : IsSilent (switchSequence "4" "24" attributes.underline) :=
      isSilent_switchSequence (by decide) (by decide) _
    exact (((hsilent.append hsilent').append hbold).append hdim).append hunderline
  · have hfront : colorSequence 0 attributes.foreground = .ok foreground := hforeground
    have hback : colorSequence 10 attributes.background = .ok background := hbackground
    unfold paint
    rw [hfront]
    dsimp only
    rw [hback]

/-- **Every text can be written** in such a style. Without an escape character it is shown as it
is. -/
theorem exists_write_eq_ok {s : Style} (h : s.IsShowable) (t : Text) :
    ∃ out, write s t = .ok out ∧ (escape ∉ t → Shows out t) := by
  unfold write
  split
  · exact ⟨t, rfl, shows_self⟩
  · obtain ⟨front, hfront, hpaint⟩ := exists_paint_eq_ok h
    have hrow : ∀ r ∈ Text.rows t, ∃ out,
        (if r.isEmpty then .ok r else paint (.ofStyle s) r) = .ok out ∧
          (escape ∉ t → Shows out r) := by
      intro r hr
      by_cases hempty : r.isEmpty = true
      · obtain rfl := List.isEmpty_iff.1 hempty
        exact ⟨[], rfl, fun _ => shows_nil⟩
      · refine ⟨front ++ r ++ sequence "0", by rw [if_neg hempty, hpaint], fun hescape => ?_⟩
        exact shows_painted hfront (fun hmem => hescape (Text.mem_of_mem_splitOn hr hmem).1)
          fun hmem => (Text.mem_of_mem_splitOn hr hmem).2 rfl
    obtain ⟨outs, houts, hrel⟩ := exists_mapM_eq_ok hrow
    refine ⟨Text.join "\n" outs, ?_, fun hescape => ?_⟩
    · dsimp only
      rw [houts]
      rfl
    · have hjoin := shows_join (List.Forall₂.imp (fun _ _ hshow => hshow hescape) hrel)
      have hrows : Text.join "\n" (Text.rows t) = t := List.intercalate_splitOn _
      rwa [hrows] at hjoin

end Ansi

end SourceReport
