import Mathlib.Data.List.Forall2
import SourceReport.Proofs.Report.Row

/-!
# Rows that differ in some of their characters

Two rows may be drawn with different characters at some places. As long as none of these characters
is blank, what is written of the rows is cut at the same place, and their runs have the same styles
and lengths.

* `DiffersAt` says that two lists hold related elements at some places, and the same at the others.
* `Run.Alike` relates runs that are trimmed alike, `Row.shape` is what they have in common.

Results:
* `DiffersAt.append`, `DiffersAt.map`: lists that are put together, or changed one by one.
* `DiffersAt.trimEnd`: what is left of texts differs at the same places.
* `Row.shape_eq`: rows of runs that are alike have the same shape.
-/

namespace SourceReport

/-- Two lists hold related elements at some places, and the same elements at all others. -/
def DiffersAt {α : Type} (R : α → α → Prop) (places : Nat → Prop) (xs ys : List α) : Prop :=
  ∀ n, (places n → ∃ x y, xs[n]? = some x ∧ ys[n]? = some y ∧ R x y) ∧
    (¬ places n → xs[n]? = ys[n]?)

namespace DiffersAt

variable {α β : Type} {R : α → α → Prop} {S : β → β → Prop} {places more : Nat → Prop}
  {xs ys zs ws : List α}

theorem refl (h : ∀ n, ¬ places n) (xs : List α) : DiffersAt R places xs xs :=
  fun n => ⟨fun hn => absurd hn (h n), fun _ => rfl⟩

theorem congr (h : DiffersAt R places xs ys) (hplaces : ∀ n, more n ↔ places n) :
    DiffersAt R more xs ys :=
  fun n => ⟨fun hn => (h n).1 ((hplaces n).1 hn), fun hn => (h n).2 fun hp => hn ((hplaces n).2 hp)⟩

theorem length_eq (h : DiffersAt R places xs ys) : xs.length = ys.length := by
  have hnone (n : Nat) : xs[n]? = none ↔ ys[n]? = none := by
    by_cases hn : places n
    · obtain ⟨x, y, hx, hy, -⟩ := (h n).1 hn
      simp [hx, hy]
    · rw [(h n).2 hn]
  simp only [List.getElem?_eq_none_iff] at hnone
  exact Nat.le_antisymm ((hnone _).2 (Nat.le_refl _)) ((hnone _).1 (Nat.le_refl _))

theorem lt_length (h : DiffersAt R places xs ys) {n : Nat} (hn : places n) : n < xs.length := by
  obtain ⟨x, -, hx, -⟩ := (h n).1 hn
  exact (List.getElem?_eq_some_iff.1 hx).1

/-- Lists one after the other differ at the places of both. -/
theorem append (h : DiffersAt R places xs ys) (h' : DiffersAt R more zs ws) :
    DiffersAt R (fun n => places n ∨ ∃ m, more m ∧ n = xs.length + m) (xs ++ zs) (ys ++ ws) := by
  intro n
  dsimp only
  have hlength := h.length_eq
  rcases Nat.lt_or_ge n xs.length with hn | hn
  · have hbehind : ¬ ∃ m, more m ∧ n = xs.length + m := by
      rintro ⟨m, -, rfl⟩
      omega
    rw [List.getElem?_append_left hn, List.getElem?_append_left (hlength ▸ hn),
      or_iff_left hbehind]
    exact h n
  · have hbefore : ¬ places n := fun hp => Nat.not_lt.2 hn (h.lt_length hp)
    have hbehind : (∃ m, more m ∧ n = xs.length + m) ↔ more (n - xs.length) := by
      constructor
      · rintro ⟨m, hm, rfl⟩
        rwa [Nat.add_sub_cancel_left]
      · exact fun hm => ⟨n - xs.length, hm, by omega⟩
    rw [List.getElem?_append_right hn, List.getElem?_append_right (hlength ▸ hn), ← hlength,
      or_iff_right hbefore, hbehind]
    exact h' (n - xs.length)

theorem map (h : DiffersAt R places xs ys) {f : α → β} (hf : ∀ x y, R x y → S (f x) (f y)) :
    DiffersAt S places (xs.map f) (ys.map f) := by
  intro n
  rw [List.getElem?_map, List.getElem?_map]
  refine ⟨fun hn => ?_, fun hn => by rw [(h n).2 hn]⟩
  obtain ⟨x, y, hx, hy, hR⟩ := (h n).1 hn
  exact ⟨f x, f y, by rw [hx]; rfl, by rw [hy]; rfl, hf x y hR⟩

/-- Lists of which each element is computed from its place. -/
theorem map_range {f g : Nat → α} {size : Nat} (hplaces : ∀ n, places n → n < size ∧ R (f n) (g n))
    (hsame : ∀ n, n < size → ¬ places n → f n = g n) :
    DiffersAt R places ((List.range size).map f) ((List.range size).map g) := by
  intro n
  rw [List.getElem?_map, List.getElem?_map]
  rcases Nat.lt_or_ge n size with hn | hn
  · rw [List.getElem?_range hn]
    exact ⟨fun hp => ⟨f n, g n, rfl, rfl, (hplaces n hp).2⟩,
      fun hp => congrArg some (hsame n hn hp)⟩
  · rw [List.getElem?_eq_none (by simpa using hn)]
    exact ⟨fun hp => absurd (hplaces n hp).1 (Nat.not_lt.2 hn), fun _ => rfl⟩

theorem forall₂ {T : α → α → Prop} (h : DiffersAt R places xs ys) (hrefl : ∀ x, T x x)
    (hR : ∀ x y, R x y → T x y) : List.Forall₂ T xs ys := by
  refine List.forall₂_iff_get.2 ⟨h.length_eq, fun n hx hy => ?_⟩
  by_cases hn : places n
  · obtain ⟨x, y, hx', hy', hxy⟩ := (h n).1 hn
    rw [List.getElem?_eq_getElem hx, Option.some.injEq] at hx'
    rw [List.getElem?_eq_getElem hy, Option.some.injEq] at hy'
    simpa [hx', hy'] using hR x y hxy
  · have heq := (h n).2 hn
    rw [List.getElem?_eq_getElem hx, List.getElem?_eq_getElem hy, Option.some.injEq] at heq
    simpa [heq] using hrefl ys[n]

end DiffersAt

/-- Lists put together from parts that are related one by one. -/
theorem forall₂_flatMap {α β : Type} {R : β → β → Prop} {f g : α → List β} {xs : List α}
    (h : ∀ x ∈ xs, List.Forall₂ R (f x) (g x)) : List.Forall₂ R (xs.flatMap f) (xs.flatMap g) := by
  induction xs with
  | nil => exact List.Forall₂.nil
  | cons x xs ih =>
    rw [List.flatMap_cons, List.flatMap_cons]
    exact List.rel_append (h x List.mem_cons_self) (ih fun y hy => h y (List.mem_cons_of_mem x hy))

/-- An element of the first of two lists is related to one of the second. -/
theorem exists_mem_of_forall₂ {α β : Type} {R : α → β → Prop} {xs : List α} {ys : List β}
    (h : List.Forall₂ R xs ys) {x : α} (hx : x ∈ xs) : ∃ y ∈ ys, R x y := by
  induction h with
  | nil => cases hx
  | cons hR _ ih =>
    rcases List.mem_cons.1 hx with rfl | hx
    · exact ⟨_, List.mem_cons_self, hR⟩
    · obtain ⟨y, hy, hxy⟩ := ih hx
      exact ⟨y, List.mem_cons_of_mem _ hy, hxy⟩

/-! ## Blanks at the end -/

namespace Text

variable {R : CodePoint → CodePoint → Prop}

/-- Texts with blanks at the same places are cut at the same place. -/
theorem forall₂_trimEnd (hR : ∀ c d, R c d → c.isBlank = d.isBlank) {t t' : Text}
    (h : List.Forall₂ R t t') : List.Forall₂ R t.trimEnd t'.trimEnd := by
  induction h with
  | nil => exact List.Forall₂.nil
  | @cons c d rest rest' hcd _ ih =>
    rw [trimEnd, trimEnd]
    cases hkept : Text.trimEnd rest with
    | nil =>
      rw [hkept] at ih
      rw [List.forall₂_nil_left_iff.1 ih, hR c d hcd]
      dsimp only
      split
      · exact List.Forall₂.nil
      · exact .cons hcd .nil
    | cons e kept =>
      rw [hkept] at ih
      cases hkept' : Text.trimEnd rest' with
      | nil => rw [hkept'] at ih; cases ih
      | cons e' kept' => rw [hkept'] at ih; exact .cons hcd ih

/-- A visible character is not cut off. -/
theorem lt_length_trimEnd {t : Text} {n : Nat} {c : CodePoint} (h : t[n]? = some c)
    (hc : c.isBlank = false) : n < t.trimEnd.length := by
  obtain ⟨hn, hget⟩ := List.getElem?_eq_some_iff.1 h
  have hsplit : t = t.take n ++ [c] ++ t.drop (n + 1) := by
    rw [← hget, List.take_append_getElem, List.take_append_drop]
  have hfront : (t.take n).length = n := List.length_take_of_le (Nat.le_of_lt hn)
  rw [hsplit, trimEnd_visible_append hc, List.length_append, List.length_append, hfront,
    List.length_singleton]
  omega

theorem getElem?_trimEnd (t : Text) (n : Nat) :
    t.trimEnd[n]? = if n < t.trimEnd.length then t[n]? else none := by
  obtain ⟨dropped, hdropped⟩ := t.trimEnd_prefix
  split
  · next hn =>
    calc t.trimEnd[n]? = (t.trimEnd ++ dropped)[n]? := (List.getElem?_append_left hn).symm
      _ = t[n]? := by rw [hdropped]
  · next hn => exact List.getElem?_eq_none (Nat.le_of_not_lt hn)

end Text

/-- **What is left of texts** differs where these show different visible characters. -/
theorem DiffersAt.trimEnd {R : CodePoint → CodePoint → Prop} {places : Nat → Prop} {t t' : Text}
    (h : DiffersAt R places t t')
    (hR : ∀ c d, R c d → c.isBlank = false ∧ d.isBlank = false) :
    DiffersAt R places t.trimEnd t'.trimEnd := by
  have hcut : t.trimEnd.length = t'.trimEnd.length := by
    have halike : List.Forall₂ (fun c d : CodePoint => c.isBlank = d.isBlank) t t' :=
      h.forall₂ (fun _ => rfl) fun c d hcd => (hR c d hcd).1.trans (hR c d hcd).2.symm
    exact (Text.forall₂_trimEnd (fun _ _ h => h) halike).length_eq
  intro n
  rw [Text.getElem?_trimEnd, Text.getElem?_trimEnd, ← hcut]
  refine ⟨fun hn => ?_, fun hn => by rw [(h n).2 hn]⟩
  obtain ⟨c, d, hc, hd, hcd⟩ := (h n).1 hn
  rw [if_pos (Text.lt_length_trimEnd hc (hR c d hcd).1)]
  exact ⟨c, d, hc, if_pos (Text.lt_length_trimEnd hc (hR c d hcd).1) ▸ hd, hcd⟩

/-! ## Runs -/

/-- Two runs of one style have blanks at the same places. -/
structure Run.Alike (a b : Run) : Prop where
  style : a.style = b.style
  text : List.Forall₂ (fun c d : CodePoint => c.isBlank = d.isBlank) a.text b.text

namespace Run.Alike

variable {rs rs' : List Run}

theorem refl (r : Run) : r.Alike r := ⟨rfl, List.forall₂_same.2 fun _ _ => rfl⟩

theorem refl_list (rs : List Run) : List.Forall₂ Run.Alike rs rs :=
  List.forall₂_same.2 fun r _ => refl r

/-- Runs that are alike are still alike without the blanks at the end of the row. -/
theorem forall₂_trimRuns (h : List.Forall₂ Run.Alike rs rs') :
    List.Forall₂ Run.Alike (trimRuns rs) (trimRuns rs') := by
  induction h with
  | nil => exact List.Forall₂.nil
  | @cons r r' rest rest' hr _ ih =>
    have htext := Text.forall₂_trimEnd (fun _ _ h => h) hr.text
    rw [trimRuns, trimRuns]
    cases hkept : trimRuns rest with
    | nil =>
      rw [hkept] at ih
      rw [List.forall₂_nil_left_iff.1 ih]
      dsimp only
      cases hleft : r.text.trimEnd with
      | nil =>
        rw [hleft] at htext
        rw [List.forall₂_nil_left_iff.1 htext]
        exact List.Forall₂.nil
      | cons c left =>
        rw [hleft] at htext
        cases hleft' : r'.text.trimEnd with
        | nil => rw [hleft'] at htext; cases htext
        | cons c' left' => rw [hleft'] at htext; exact .cons ⟨hr.style, htext⟩ .nil
    | cons k kept =>
      rw [hkept] at ih
      cases hkept' : trimRuns rest' with
      | nil => rw [hkept'] at ih; cases ih
      | cons k' kept' => rw [hkept'] at ih; exact .cons hr ih

/-- They are joined alike. -/
theorem forall₂_joinRuns (h : List.Forall₂ Run.Alike rs rs') :
    List.Forall₂ Run.Alike (joinRuns rs) (joinRuns rs') := by
  induction h with
  | nil => exact List.Forall₂.nil
  | @cons r r' rest rest' hr _ ih =>
    rw [joinRuns, joinRuns]
    cases hjoined : joinRuns rest with
    | nil =>
      rw [hjoined] at ih
      rw [List.forall₂_nil_left_iff.1 ih]
      exact .cons hr .nil
    | cons next more =>
      rw [hjoined] at ih
      cases hjoined' : joinRuns rest' with
      | nil => rw [hjoined'] at ih; cases ih
      | cons next' more' =>
        rw [hjoined'] at ih
        obtain ⟨hnext, hmore⟩ := List.forall₂_cons.1 ih
        dsimp only
        rw [← hr.style, ← hnext.style]
        split
        · exact .cons ⟨rfl, List.rel_append hr.text hnext.text⟩ hmore
        · exact .cons hr ih

end Run.Alike

namespace Row

/-- The styles and lengths of the runs that are written of a row. -/
def shape (r : Row) : List (Option Style × Nat) :=
  r.printed.map fun run => (run.style, run.text.length)

/-- **Rows of runs that are alike** have the same shape. -/
theorem shape_eq {r r' : Row} (h : List.Forall₂ Run.Alike r.runs r'.runs) : r.shape = r'.shape := by
  have hprinted : List.Forall₂ Run.Alike r.printed r'.printed := by
    rw [printed, printed]
    exact Run.Alike.forall₂_joinRuns (Run.Alike.forall₂_trimRuns h)
  rw [shape, shape]
  generalize r.printed = runs at hprinted
  generalize r'.printed = runs' at hprinted
  induction hprinted with
  | nil => rfl
  | cons hrun _ ih => rw [List.map_cons, List.map_cons, ih, hrun.style, hrun.text.length_eq]

end Row

end SourceReport
