import SourceReport.Output.Html
import SourceReport.Proofs.Output.Xml
import SourceReport.Proofs.Style.Color
import SourceReport.Proofs.Text.Characters

/-!
# Erasing markup

A browser shows what stands outside of tags, and a character in place of each reference to one. A
text written in a style that can be written is shown as it is: escaping leaves no bracket in it, and
the classes and declarations of the style have none. Each text is one element or has no tag at all.

* `Html.withoutTags` takes the tags out of an output, `Html.decode` reads the references.
* `Html.Shows` says that an output is shown as a text, whatever follows it.
* `Html.IsClosed` is an output in which every element that is opened is closed again.
* `Html.tag` is the tag of a style.

Results:
* `Html.decodeFrom_escape`: an escaped text is read as the text.
* `Html.shows_write`: what is written of a text in such a style is shown as the text.
* `Html.isClosed_write`: and no element goes on behind it.
* `Html.isFit_tag`: the tag of such a style is one of a document.
-/

namespace SourceReport.Html

open Xml (IsBare)

/-! ## What a browser shows -/

/-- What stands outside of tags, beginning inside of one or not. -/
def outsideTags : (inside : Bool) → Text → Text
  | _, [] => []
  | false, c :: rest => if c = '<' then outsideTags true rest else c :: outsideTags false rest
  | true, c :: rest => if c = '>' then outsideTags false rest else outsideTags true rest

/-- A text without its tags. -/
def withoutTags (t : Text) : Text := outsideTags false t

/-- The references to characters. -/
def references : List (Text × CodePoint) := [("&amp;", '&'), ("&lt;", '<'), ("&gt;", '>')]

/-- The character that a reference at the front of a text stands for, and the number of characters
of the reference behind the first one. -/
def reference? (t : Text) : Option (CodePoint × Nat) :=
  references.findSome? fun (name, c) =>
    if name.isPrefixOf t then some (c, name.length - 1) else none

/-- The text with its references read, after some characters that are skipped. -/
def decodeFrom : (skipped : Nat) → Text → Text
  | _, [] => []
  | skipped + 1, _ :: rest => decodeFrom skipped rest
  | 0, c :: rest =>
    match reference? (c :: rest) with
    | some (d, more) => d :: decodeFrom more rest
    | none => c :: decodeFrom 0 rest

/-- The text with its references read. -/
def decode (t : Text) : Text := decodeFrom 0 t

/-- A text without the brackets of tags. -/
def HasNoTags (t : Text) : Prop := ∀ c ∈ t, c ≠ '<' ∧ c ≠ '>'

instance (t : Text) : Decidable (HasNoTags t) :=
  inferInstanceAs (Decidable (∀ c ∈ t, c ≠ '<' ∧ c ≠ '>'))

/-- An output in which every element that is opened is closed again. -/
inductive IsClosed : Text → Prop
  | text {t : Text} (h : HasNoTags t) : IsClosed t
  | span {attributes inner : Text} (hattributes : HasNoTags attributes) (hinner : HasNoTags inner) :
    IsClosed ("<span" ++ attributes ++ ">" ++ inner ++ "</span>")

/-- A browser shows an output as a text, whatever follows it. -/
def Shows (out t : Text) : Prop :=
  ∃ inner, (∀ rest, outsideTags false (out ++ rest) = inner ++ outsideTags false rest) ∧
    ∀ rest, decodeFrom 0 (inner ++ rest) = t ++ decodeFrom 0 rest

theorem shows_nil : Shows [] [] := ⟨[], fun _ => rfl, fun _ => rfl⟩

theorem Shows.append {out out' t t' : Text} (h : Shows out t) (h' : Shows out' t') :
    Shows (out ++ out') (t ++ t') := by
  obtain ⟨inner, houtside, hdecode⟩ := h
  obtain ⟨inner', houtside', hdecode'⟩ := h'
  refine ⟨inner ++ inner', fun rest => ?_, fun rest => ?_⟩
  · rw [List.append_assoc, houtside, houtside', List.append_assoc]
  · rw [List.append_assoc, hdecode, hdecode', List.append_assoc]

/-- **An output is shown as a text** if the tags are taken out and the references read. -/
theorem Shows.decode_withoutTags {out t : Text} (h : Shows out t) :
    decode (withoutTags out) = t := by
  obtain ⟨inner, houtside, hdecode⟩ := h
  have hinner : withoutTags out = inner := by
    have hall := houtside []
    rwa [List.append_nil, show outsideTags false [] = [] from rfl, List.append_nil] at hall
  have hall := hdecode []
  rw [List.append_nil, show decodeFrom 0 [] = [] from rfl, List.append_nil] at hall
  rw [hinner]
  exact hall

/-! ## Texts without tags -/

variable {t : Text}

theorem HasNoTags.append {s t : Text} (hs : HasNoTags s) (ht : HasNoTags t) :
    HasNoTags (s ++ t) :=
  List.forall_mem_append.2 ⟨hs, ht⟩

theorem outsideTags_append (h : HasNoTags t) (rest : Text) :
    outsideTags false (t ++ rest) = t ++ outsideTags false rest := by
  induction t with
  | nil => rfl
  | cons c t ih =>
    rw [List.cons_append, outsideTags, if_neg (h c List.mem_cons_self).1,
      ih fun d hd => h d (List.mem_cons_of_mem c hd), List.cons_append]

/-- Nothing is shown of a tag. -/
theorem outsideTags_tag (h : HasNoTags t) (rest : Text) :
    outsideTags false ("<" ++ t ++ ">" ++ rest) = outsideTags false rest := by
  have hinside : outsideTags true (t ++ ">" ++ rest) = outsideTags false rest := by
    induction t with
    | nil => rfl
    | cons c t ih =>
      rw [List.cons_append, List.cons_append, outsideTags, if_neg (h c List.mem_cons_self).2,
        ih fun d hd => h d (List.mem_cons_of_mem c hd)]
  rw [List.append_assoc, List.append_assoc, ← List.append_assoc t]
  exact hinside

/-- Markup is written as a reference, and any other character as it is. -/
theorem escapeChar_cases (c : CodePoint) :
    (Xml.IsMarkup c ∧ escapeChar c ∈ Xml.entities) ∨ (¬ Xml.IsMarkup c ∧ escapeChar c = [c]) := by
  by_cases hmarkup : Xml.IsMarkup c
  · refine Or.inl ⟨hmarkup, ?_⟩
    rcases hmarkup with rfl | rfl | rfl <;> decide
  · obtain ⟨hlt, hgt, hamp⟩ : c ≠ '<' ∧ c ≠ '>' ∧ c ≠ '&' := by
      simpa only [Xml.IsMarkup, not_or] using hmarkup
    exact Or.inr ⟨hmarkup, by rw [escapeChar, if_neg hamp, if_neg hlt, if_neg hgt]⟩

theorem hasNoTags_escapeChar (c : CodePoint) : HasNoTags (escapeChar c) := by
  have hentities : ∀ t ∈ Xml.entities, HasNoTags t := by decide
  rcases escapeChar_cases c with ⟨-, hentity⟩ | ⟨hmarkup, hself⟩
  · exact hentities _ hentity
  · rw [hself]
    exact List.forall_mem_singleton.2
      ⟨fun hlt => hmarkup (Or.inl hlt), fun hgt => hmarkup (Or.inr (Or.inl hgt))⟩

theorem hasNoTags_escape (t : Text) : HasNoTags (escape t) := by
  intro c hc
  obtain ⟨d, _, hd⟩ := List.mem_flatMap.1 hc
  exact hasNoTags_escapeChar d c hd

theorem head?_of_mem_references {name : Text} {c : CodePoint} (h : (name, c) ∈ references) :
    name.head? = some '&' := by
  have hall : ∀ e ∈ references, e.1.head? = some '&' := by decide
  exact hall _ h

theorem decodeFrom_escapeChar (c : CodePoint) (rest : Text) :
    decodeFrom 0 (escapeChar c ++ rest) = c :: decodeFrom 0 rest := by
  unfold escapeChar
  by_cases hamp : c = '&'
  · rw [if_pos hamp, hamp]
    rfl
  · rw [if_neg hamp]
    by_cases hlt : c = '<'
    · rw [if_pos hlt, hlt]
      rfl
    · rw [if_neg hlt]
      by_cases hgt : c = '>'
      · rw [if_pos hgt, hgt]
        rfl
      · have hnone : reference? (c :: rest) = none := by
          refine List.findSome?_eq_none_iff.2 ?_
          rintro ⟨name, d⟩ hname
          obtain ⟨more, rfl⟩ := List.head?_eq_some_iff.1 (head?_of_mem_references hname)
          simp [List.isPrefixOf, Ne.symm hamp]
        rw [if_neg hgt, List.singleton_append, decodeFrom, hnone]

/-- **An escaped text** is read as the text. -/
theorem decodeFrom_escape (t rest : Text) :
    decodeFrom 0 (escape t ++ rest) = t ++ decodeFrom 0 rest := by
  induction t with
  | nil => rfl
  | cons c t ih =>
    rw [escape, List.flatMap_cons, List.append_assoc, decodeFrom_escapeChar]
    exact congrArg (c :: ·) ih

theorem shows_escape (t : Text) : Shows (escape t) t :=
  ⟨escape t, outsideTags_append (hasNoTags_escape t), decodeFrom_escape t⟩

/-! ## Styles -/

theorem isBare_join {separator : Text} (hseparator : IsBare separator) {ts : List Text}
    (h : ∀ t ∈ ts, IsBare t) : IsBare (Text.join separator ts) := by
  intro c hc
  rcases mem_of_mem_intercalate hc with hc | ⟨t, ht, hc⟩
  · exact hseparator c hc
  · exact h t ht c hc

theorem isBare_ofHex (width n : Nat) : IsBare (Text.ofHex width n) :=
  Xml.isBare_of_alphanumeric fun _ hc =>
    CodePoint.isAsciiDigit_or_isAsciiLetter (Text.hexValue?_of_mem_ofHex hc)

theorem isBare_hexByte (n : Int) : IsBare (Color.hexByte n) := by
  have hminus : IsBare "-" := by decide
  cases n with
  | ofNat n => exact isBare_ofHex 2 n
  | negSucc n => exact hminus.append (isBare_ofHex 1 (n + 1))

theorem isBare_hexOfParts (r g b : Int) : IsBare (Color.hexOfParts r g b) := by
  have hmark : IsBare "#" := by decide
  exact ((hmark.append (isBare_hexByte r)).append (isBare_hexByte g)).append (isBare_hexByte b)

theorem isBare_hexOfIndex (n : Int) : IsBare (Color.hexOfIndex n) := by
  have hfirst : ∀ n < 16, IsBare (Color.firstHexes.getD n []) := by decide
  unfold Color.hexOfIndex
  dsimp only
  split
  · next hlt => exact hfirst _ hlt
  · split
    · exact isBare_hexOfParts _ _ _
    · exact isBare_hexOfParts _ _ _

/-- The name of a valid color has no markup. -/
theorem isBare_splitBright {name : Text} (h : (Color.named name).isValid = true) :
    IsBare (Color.splitBright name).1 := by
  have hnames : ∀ name ∈ Color.basicNames, IsBare name := by decide
  by_cases hreset : name = "reset"
  · rw [hreset]
    decide
  · exact hnames _ (by simpa [Color.isValid, hreset] using h)

theorem isBare_classIf {name : Text} (h : IsBare name) (holds : Bool) {t : Text}
    (ht : t ∈ classIf holds name) : IsBare t := by
  cases holds with
  | true => rwa [List.mem_singleton.1 ht]
  | false => exact absurd ht List.not_mem_nil

theorem isBare_colorClasses (g : Ground) {c : Color} (h : c.IsShowable) {t : Text}
    (ht : t ∈ colorClasses g c) : IsBare t := by
  have hground : IsBare g.className := by cases g <;> decide
  cases c with
  | named name =>
    rcases List.mem_append.1 ht with ht | ht
    · simp only [List.mem_cons, List.not_mem_nil, or_false] at ht
      rcases ht with rfl | rfl
      · exact hground
      · exact isBare_splitBright h
    · exact isBare_classIf (by decide) _ ht
  | indexed n => rwa [List.mem_singleton.1 ht]
  | rgb r green b => rwa [List.mem_singleton.1 ht]

theorem isBare_declaration (g : Ground) {c : Color} {t : Text} (ht : t ∈ declaration g c) :
    IsBare t := by
  have hproperty : IsBare g.property := by cases g <;> decide
  have hcolon : IsBare ": " := by decide
  have hsemicolon : IsBare ";" := by decide
  cases c with
  | named name => exact absurd ht List.not_mem_nil
  | indexed n =>
    rw [List.mem_singleton.1 ht]
    exact ((hproperty.append hcolon).append (isBare_hexOfIndex n)).append hsemicolon
  | rgb r green b =>
    rw [List.mem_singleton.1 ht]
    exact ((hproperty.append hcolon).append (isBare_hexOfParts r green b)).append hsemicolon

theorem isShowable_of_mem_grounds {s : Style} (h : s.IsShowable) {g : Ground} {c : Color}
    (hc : (g, c) ∈ grounds s) : c.IsShowable := by
  rcases List.mem_append.1 hc with hc | hc
  · obtain ⟨d, hd, heq⟩ := Option.map_eq_some_iff.1 (Option.mem_toList.1 hc)
    obtain ⟨-, rfl⟩ := Prod.mk.inj heq
    exact h.foreground d hd
  · obtain ⟨d, hd, heq⟩ := Option.map_eq_some_iff.1 (Option.mem_toList.1 hc)
    obtain ⟨-, rfl⟩ := Prod.mk.inj heq
    exact h.background d hd

/-- The tag of a style. -/
def tag (s : Style) : Xml.Tag where
  name := "span"
  attributes := ("class", Text.join " " (classes s)) ::
    if declarations s = [] then [] else [("style", Text.join " " (declarations s))]

theorem openTag_eq (s : Style) : openTag s = (tag s).opening := by
  have hfront : ("<span class=\"" : Text) = "<" ++ "span" ++ (" " ++ "class" ++ "=\"") := by decide
  have hstyle : (" style=\"" : Text) = " " ++ "style" ++ "=\"" := by decide
  unfold openTag Xml.Tag.opening tag
  cases declarations s with
  | nil => simp only [hfront, Xml.attributeText, List.flatMap_cons, List.flatMap_nil, if_true,
      List.append_nil, List.append_assoc]
  | cons d ds => simp only [hfront, hstyle, Xml.attributeText, List.flatMap_cons,
      List.flatMap_nil, reduceCtorEq, if_false, List.append_nil, List.append_assoc]

/-- **The tag** of a style that can be written is one of a document. -/
theorem isFit_tag {s : Style} (h : s.IsShowable) : (tag s).IsFit := by
  have hspace : IsBare " " := by decide
  have hclasses : IsBare (Text.join " " (classes s)) := by
    refine isBare_join hspace fun t ht => ?_
    rcases List.mem_append.1 ht with ht | ht
    · rcases List.mem_append.1 ht with ht | ht
      · obtain ⟨⟨g, c⟩, hc, ht⟩ := List.mem_flatMap.1 ht
        exact isBare_colorClasses g (isShowable_of_mem_grounds h hc) ht
      · exact isBare_classIf (by decide) _ ht
    · exact isBare_classIf (by decide) _ ht
  have hdeclarations : IsBare (Text.join " " (declarations s)) := by
    refine isBare_join hspace fun t ht => ?_
    obtain ⟨⟨g, c⟩, _, ht⟩ := List.mem_flatMap.1 ht
    exact isBare_declaration g ht
  have hname : Xml.IsName "span" := by decide
  have hnames : ∀ n ∈ (["class", "style"] : List Text), Xml.IsName n := by decide
  have hdistinct : (["class", "style"] : List Text).Nodup := by decide
  unfold tag
  split
  · exact ⟨hname, List.forall_mem_singleton.2 (hnames _ List.mem_cons_self),
      List.forall_mem_singleton.2 hclasses, List.pairwise_singleton _ _⟩
  · exact ⟨hname, hnames, List.forall_mem_cons.2
      ⟨hclasses, List.forall_mem_singleton.2 hdeclarations⟩, hdistinct⟩

theorem hasNoTags_of_isBare (h : IsBare t) : HasNoTags t := fun c hc =>
  ⟨fun heq => (h c hc).2.1 (Or.inl heq), fun heq => (h c hc).2.1 (Or.inr (Or.inl heq))⟩

/-- It has no bracket inside. -/
theorem exists_openTag_eq {s : Style} (h : s.IsShowable) :
    ∃ attributes, openTag s = "<span" ++ attributes ++ ">" ∧ HasNoTags attributes := by
  refine ⟨(tag s).attributes.flatMap Xml.attributeText, openTag_eq s, fun c hc => ?_⟩
  obtain ⟨a, ha, hc⟩ := List.mem_flatMap.1 hc
  have hspace : HasNoTags " " := by decide
  have hequals : HasNoTags "=\"" := by decide
  have hquote : HasNoTags "\"" := by decide
  have hname := hasNoTags_of_isBare ((isFit_tag h).names _ (List.mem_map_of_mem ha)).isBare
  have hvalue := hasNoTags_of_isBare ((isFit_tag h).values a ha)
  exact ((((hspace.append hname).append hequals).append hvalue).append hquote) c hc

/-- **What is written of a text** is closed, -/
theorem isClosed_write {s : Style} (h : s.IsShowable) (t : Text) : IsClosed (write s t) := by
  unfold write
  split
  · exact IsClosed.text (hasNoTags_escape t)
  · obtain ⟨attributes, hopen, hattributes⟩ := exists_openTag_eq h
    rw [hopen]
    exact IsClosed.span hattributes (hasNoTags_escape t)

/-- and it is shown as the text. -/
theorem shows_write {s : Style} (h : s.IsShowable) (t : Text) : Shows (write s t) t := by
  unfold write
  split
  · exact shows_escape t
  · obtain ⟨attributes, hopen, hattributes⟩ := exists_openTag_eq h
    refine ⟨escape t, fun rest => ?_, decodeFrom_escape t⟩
    have hspan : HasNoTags ("span" ++ attributes) :=
      HasNoTags.append (by decide) hattributes
    have hend : HasNoTags "/span" := by decide
    calc outsideTags false (openTag s ++ escape t ++ "</span>" ++ rest)
        = outsideTags false ("<" ++ ("span" ++ attributes) ++ ">" ++
            (escape t ++ ("<" ++ "/span" ++ ">" ++ rest))) := by
          rw [hopen]
          simp only [List.append_assoc]
          rfl
      _ = outsideTags false (escape t ++ ("<" ++ "/span" ++ ">" ++ rest)) := outsideTags_tag hspan _
      _ = escape t ++ outsideTags false ("<" ++ "/span" ++ ">" ++ rest) :=
          outsideTags_append (hasNoTags_escape t) _
      _ = escape t ++ outsideTags false rest := by rw [outsideTags_tag hend]

end SourceReport.Html
