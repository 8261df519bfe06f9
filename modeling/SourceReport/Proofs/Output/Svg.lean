import SourceReport.Output.Svg
import SourceReport.Proofs.Output.Agreement

/-!
# Images as documents

An image is one element with a report in the innermost of its elements. All that stands around the
report is fixed but for the measures, and what is written of a text is either escaped text or one
element around it. So the tags of every image nest, whatever stands in sources, names and messages,
and no character of these opens a tag or begins a reference.

Escaping keeps all other characters. A character that documents may not hold is in the image if it
is in the text of the report, and only then the image is no document. The control characters of the
text are those of messages, notes, codes and names alone: source lines are printed without any.

* `Svg.wrap_eq` gives an image by its elements.
* `Ink.bringing` is the ink without control characters, except for some that are brought along.
* `Diagnostic.Mentions` says that a character stands in a text of a diagnostic.

Results:
* `Html.content_write`: what is written of a text is content of an element.
* `Svg.nests_wrap`: the image of such content nests.
* `Report.images_nest`: the images of all reports nest, and which of them are documents.
-/

namespace SourceReport

/-! ## Text in markup -/

namespace Html

open Xml (Content IsChar)

variable {s : Style} {c : CodePoint}

theorem content_escape (t : Text) : Content (escape t) := by
  refine Content.flatMap fun c _ => ?_
  rcases escapeChar_cases c with ⟨-, hentity⟩ | ⟨hmarkup, hself⟩
  · exact Content.entity hentity
  · rw [hself]
    exact Content.char hmarkup .nil

/-- Escaping keeps what documents may not hold. -/
theorem mem_escape_iff (hc : ¬ IsChar c) {t : Text} : c ∈ escape t ↔ c ∈ t := by
  have hentities : ∀ t ∈ Xml.entities, Xml.AllChars t := by decide
  have hchar : ∀ d, c ∈ escapeChar d ↔ c = d := by
    intro d
    rcases escapeChar_cases d with ⟨hmarkup, hentity⟩ | ⟨-, hself⟩
    · refine iff_of_false ((hentities _ hentity).not_mem hc) ?_
      rintro rfl
      rcases hmarkup with rfl | rfl | rfl <;> exact hc (by decide)
    · rw [hself, List.mem_singleton]
  simp only [escape, List.mem_flatMap, hchar, exists_eq_right']

theorem write_eq_around {t : Text} (h : (s.isPlain || t.isEmpty) = false) :
    write s t = (tag s).around (escape t) := by
  rw [write, h, openTag_eq]
  rfl

/-- **What is written of a text** is content of an element, -/
theorem content_write (h : s.IsShowable) (t : Text) : Content (write s t) := by
  cases hplain : s.isPlain || t.isEmpty with
  | true =>
    rw [write, hplain]
    exact content_escape t
  | false =>
    rw [write_eq_around hplain]
    exact Content.around (isFit_tag h) (content_escape t)

/-- and it holds the same characters that documents may not hold. -/
theorem mem_write_iff (h : s.IsShowable) (hc : ¬ IsChar c) {t : Text} :
    c ∈ write s t ↔ c ∈ t := by
  cases hplain : s.isPlain || t.isEmpty with
  | true =>
    rw [write, hplain]
    exact mem_escape_iff hc
  | false => rw [write_eq_around hplain, (isFit_tag h).mem_around_iff hc, mem_escape_iff hc]

end Html

/-! ## Elements of an image -/

namespace Svg

open Xml (Tag IsBare IsChar Content)

variable (m : Measures)

/-- The image itself. -/
def root (height : Int) : Tag where
  name := "svg"
  attributes := [("viewBox", "0 0 " ++ Text.ofInt m.width ++ " " ++ Text.ofInt height),
    ("xmlns", "http://www.w3.org/2000/svg")]

/-- The part of an image that holds a page. -/
def foreign (height : Int) : Tag where
  name := "foreignObject"
  attributes := [("x", "0"), ("y", "0"), ("width", Text.ofInt m.width),
    ("height", Text.ofInt height)]

/-- The page in it. -/
def page : Tag where
  name := "div"
  attributes := [("xmlns", "http://www.w3.org/1999/xhtml")]

/-- The rules for the classes of the markup. -/
def rules : List Text := (opening m 0).drop 2 ++ allRules

/-- What stands inside of an image. -/
def inside (height : Int) (body : Text) : Text :=
  let report : Text := Tag.around ⟨"pre", []⟩ body
  let page : Text := page.around ("\n      " ++ (report ++ "\n    "))
  let foreign : Text := (foreign m height).around ("\n    " ++ (page ++ "\n  "))
  let style : Text := Tag.around ⟨"style", []⟩ ("\n" ++ Text.join "\n" (rules m) ++ "\n  ")
  "\n  " ++ (style ++ ("\n\n  " ++ (foreign ++ "\n")))

/-- The lines of an image by the tags in them. -/
theorem lines_eq (height : Int) (body : Text) :
    opening m height ++ allRules ++ closing m height body =
      [(root m height).opening, "  " ++ Tag.opening ⟨"style", []⟩] ++ (rules m ++
        ["  " ++ Tag.closing ⟨"style", []⟩, "", "  " ++ (foreign m height).opening,
          "    " ++ page.opening, "      " ++ Tag.around ⟨"pre", []⟩ body, "    " ++ page.closing,
          "  " ++ (foreign m height).closing, (root m height).closing, ""]) := by
  unfold rules opening closing root foreign page Tag.around Tag.opening Tag.closing
    Xml.attributeText
  generalize allRules = all
  simp only [List.flatMap_cons, List.flatMap_nil, List.append_assoc]
  rfl

/-- **An image** is one element. -/
theorem wrap_eq (body : Text) :
    wrap m body = (root m (height m body)).around (inside m (height m body) body) ++ "\n" := by
  have hrules : rules m ≠ [] := List.append_ne_nil_of_left_ne_nil (List.cons_ne_nil _ _) _
  unfold wrap inside
  dsimp only
  -- The height is computed from the text, and would be unfolded with it.
  generalize height m body = h
  rw [lines_eq, Text.join_append (List.cons_ne_nil _ _)
    (List.append_ne_nil_of_left_ne_nil hrules _), Text.join_append hrules (List.cons_ne_nil _ _)]
  generalize Text.join "\n" (rules m) = rules
  simp only [Text.join, List.intercalate_cons_cons, List.intercalate_singleton, Tag.around,
    List.append_assoc]
  rfl

theorem isBare_ofInt (i : Int) : IsBare (Text.ofInt i) := by
  have hminus : IsBare "-" := by decide
  have hdigits : ∀ n : Nat, IsBare (Text.ofNat n) := fun n =>
    Xml.isBare_of_alphanumeric fun _ hc => Or.inl (Text.isAsciiDigit_of_mem_ofNat hc)
  cases i with
  | ofNat n => exact hdigits n
  | negSucc n => exact hminus.append (hdigits (n + 1))

theorem isFit_root (height : Int) : (root m height).IsFit where
  name := (by decide : Xml.IsName "svg")
  names := (by decide : ∀ n ∈ (["viewBox", "xmlns"] : List Text), Xml.IsName n)
  values := by
    have hfront : IsBare "0 0 " := by decide
    have hspace : IsBare " " := by decide
    have hxmlns : IsBare "http://www.w3.org/2000/svg" := by decide
    exact List.forall_mem_cons.2 ⟨((hfront.append (isBare_ofInt m.width)).append hspace).append
      (isBare_ofInt height), List.forall_mem_singleton.2 hxmlns⟩
  distinct := (by decide : (["viewBox", "xmlns"] : List Text).Nodup)

theorem isFit_foreign (height : Int) : (foreign m height).IsFit where
  name := (by decide : Xml.IsName "foreignObject")
  names := (by decide : ∀ n ∈ (["x", "y", "width", "height"] : List Text), Xml.IsName n)
  values := by
    have hzero : IsBare "0" := by decide
    exact List.forall_mem_cons.2 ⟨hzero, List.forall_mem_cons.2 ⟨hzero, List.forall_mem_cons.2
      ⟨isBare_ofInt m.width, List.forall_mem_singleton.2 (isBare_ofInt height)⟩⟩⟩
  distinct := (by decide : (["x", "y", "width", "height"] : List Text).Nodup)

theorem isFit_page : page.IsFit := ⟨by decide, by decide, by decide, by decide⟩

theorem isFit_pre : Tag.IsFit ⟨"pre", []⟩ := ⟨by decide, by decide, by decide, by decide⟩

theorem isFit_style : Tag.IsFit ⟨"style", []⟩ := ⟨by decide, by decide, by decide, by decide⟩

/-- The rules have no markup, -/
theorem isBare_rules : IsBare (Text.join "\n" (rules m)) := by
  have hnewline : IsBare "\n" := by decide
  have hcolors : ∀ t ∈ allRules, IsBare t := by decide +kernel
  have hpadding : IsBare ("      padding: " ++ Text.ofInt m.padding ++ "px;") :=
    IsBare.append (IsBare.append (by decide) (isBare_ofInt m.padding)) (by decide)
  have hfont : IsBare ("      font: " ++ Text.ofInt m.fontSize
      ++ "px SFMono-Regular, Consolas, Liberation Mono, Menlo, monospace;") :=
    IsBare.append (IsBare.append (by decide) (isBare_ofInt m.fontSize)) (by decide)
  have hpre : ∀ t ∈ (opening m 0).drop 2, IsBare t := by
    simp only [opening, List.drop_succ_cons, List.drop_zero, List.forall_mem_cons]
    exact ⟨by decide, by decide, by decide, hpadding, by decide, by decide, hfont, by decide,
      by decide, by decide, by decide, by decide, fun _ h => nomatch h⟩
  exact Html.isBare_join hnewline (List.forall_mem_append.2 ⟨hpre, hcolors⟩)

variable {m} {body : Text}

theorem content_inside (height : Int) (hbody : Content body) :
    Content (inside m height body) := by
  have hblanks : ∀ {t : Text}, IsBare t → ∀ {rest : Text}, Content rest → Content (t ++ rest) :=
    fun ht _ hrest => (Content.of_isBare ht).append hrest
  have hrules : IsBare ("\n" ++ Text.join "\n" (rules m) ++ "\n  ") :=
    IsBare.append (IsBare.append (by decide) (isBare_rules m)) (by decide)
  have hpre : Content ("\n      " ++ (Tag.around ⟨"pre", []⟩ body ++ "\n    ")) :=
    hblanks (by decide) (Content.element isFit_pre hbody (.of_isBare (by decide)))
  have hpage := hblanks (t := "\n    ") (by decide)
    (Content.element isFit_page hpre (.of_isBare (t := "\n  ") (by decide)))
  have hforeign := hblanks (t := "\n\n  ") (by decide)
    (Content.element (isFit_foreign m height) hpage (.of_isBare (t := "\n") (by decide)))
  exact hblanks (by decide) (Content.element isFit_style (.of_isBare hrules) hforeign)

/-- **The image** of content nests. -/
theorem nests_wrap (hbody : Content body) : Xml.Nests (wrap m body) :=
  ⟨root m (height m body), _, "\n", isFit_root m _, content_inside _ hbody, by decide,
    wrap_eq m body⟩

/-- What documents may not hold is in the image of a text if it is in the text. -/
theorem mem_wrap_iff {c : CodePoint} (hc : ¬ IsChar c) : c ∈ wrap m body ↔ c ∈ body := by
  have hbare : ∀ {t : Text}, IsBare t → c ∉ t := fun ht => ht.allChars.not_mem hc
  have hnewline : c ∉ ("\n" : Text) := hbare (by decide)
  rw [wrap_eq, List.mem_append, (isFit_root m _).mem_around_iff hc]
  simp only [inside, List.mem_append, isFit_pre.mem_around_iff hc, isFit_page.mem_around_iff hc,
    (isFit_foreign m _).mem_around_iff hc, isFit_style.mem_around_iff hc, hbare (isBare_rules m),
    hnewline, hbare (t := "\n  ") (by decide), hbare (t := "\n    ") (by decide),
    hbare (t := "\n      ") (by decide), hbare (t := "\n\n  ") (by decide), false_or, or_false]

end Svg

/-! ## Control characters -/

/-- A character stands in a text of a diagnostic. -/
inductive Diagnostic.Mentions (d : Diagnostic) (c : CodePoint) : Prop
  | levelName (h : c ∈ d.levelName)
  | code {t : Text} (ht : t ∈ d.code) (h : c ∈ t)
  | message (h : c ∈ d.message)
  | note {t : Text} (ht : t ∈ d.notes) (h : c ∈ t)
  | label {l : Label} (hl : l ∈ d.labels) {t : Text} (ht : t ∈ l.message) (h : c ∈ t)

/-- The code points without the control characters but newlines and some that are brought along. -/
def Ink.bringing (brought : CodePoint → Prop) : Ink where
  Has c := c.isControl = true → c = '\n' ∨ brought c
  has_of_not_control c hc := fun hcontrol => absurd hcontrol (by simp [hc])
  has_newline _ := Or.inl rfl

namespace Report

variable (settings : Settings) (registry : Registry) (ds : List Diagnostic)

/-- A report is printed with the control characters of its diagnostics and of names alone. -/
theorem isIn_bringing (htheme : settings.theme.IsValid)
    (hcolors : ∀ d ∈ ds, ∀ l ∈ d.labels, ∀ c ∈ l.color, c.isValid = true) :
    (ofAll settings registry ds).IsIn (.bringing fun c =>
      (∃ d ∈ ds, d.Mentions c) ∨ ∃ e ∈ registry.entries, c ∈ e.shown.display) := by
  refine isIn_ofAll htheme (fun e he c hc _ => Or.inr (Or.inr ⟨e, he, hc⟩)) fun d hd => ?_
  have hmentions : ∀ {c : CodePoint}, d.Mentions c → c.isControl = true → c = '\n' ∨
      (∃ d ∈ ds, d.Mentions c) ∨ ∃ e ∈ registry.entries, c ∈ e.shown.display :=
    fun h _ => Or.inr (Or.inl ⟨d, hd, h⟩)
  exact {
    levelName := fun _ hc => hmentions (.levelName hc)
    code := fun _ ht _ hc => hmentions (.code ht hc)
    message := fun _ hc => hmentions (.message hc)
    notes := fun _ ht _ hc => hmentions (.note ht hc)
    messages := fun _ hl _ ht _ hc => hmentions (.label hl ht hc)
    colors := fun l hl c hc => Color.isShowable_of_isValid (hcolors d hd l hl c hc) }

/-- **The image of a report** is one element in which all tags nest, whatever stands in sources,
names and messages. A browser shows the report in it as the text that it has without markup, so no
character of it opens a tag or begins a reference. What documents may not hold is in the image if
and only if it is in that text: the image is a document if all of its characters may be in one. A
control character is in the text if it is in a text of a diagnostic or a name: source lines bring
none along. -/
theorem images_nest (m : Svg.Measures) (color : Bool) (htheme : settings.theme.IsValid)
    (hcolors : ∀ d ∈ ds, ∀ l ∈ d.labels, ∀ c ∈ l.color, c.isValid = true) :
    let r := ofAll settings registry ds
    ∃ text body, r.write .plain color = .ok text ∧ r.write .html color = .ok body ∧
      Xml.Content body ∧ Html.decode (Html.withoutTags body) = text ∧
      Xml.Nests (Svg.wrap m body) ∧
      (∀ c, ¬ Xml.IsChar c → (c ∈ Svg.wrap m body ↔ c ∈ text)) ∧
      (Xml.IsWellFormed (Svg.wrap m body) ↔ Xml.AllChars text) ∧
      ∀ c ∈ text, c.isControl = true → c = '\n' ∨ (∃ d ∈ ds, d.Mentions c) ∨
        ∃ e ∈ registry.entries, c ∈ e.shown.display := by
  intro r
  -- The ink tells where control characters come from, and also that styles can be written.
  have hreport := isIn_bringing settings registry ds htheme hcolors
  have hpieces := hreport.pieces color
  obtain ⟨body, hbody, hshows⟩ := exists_write_html color hreport
  have heq : body = (r.pieces color).flatMap fun p => Html.write p.style p.text := by
    rw [write_html, Except.ok.injEq] at hbody
    exact hbody.symm
  have hcontent : Xml.Content body :=
    heq ▸ Xml.Content.flatMap fun p hp => Html.content_write (hpieces p hp).1 p.text
  have hnests : Xml.Nests (Svg.wrap m body) := Svg.nests_wrap hcontent
  have hmem : ∀ c, ¬ Xml.IsChar c → (c ∈ Svg.wrap m body ↔ c ∈ runsText r.runs) := by
    intro c hc
    rw [Svg.mem_wrap_iff hc, heq, runsText_runs_eq_flatMap r color, List.mem_flatMap,
      List.mem_flatMap]
    exact exists_congr fun p => and_congr_right fun hp => Html.mem_write_iff (hpieces p hp).1 hc
  refine ⟨_, body, write_plain_eq r color, hbody, hcontent, hshows.decode_withoutTags, hnests, hmem,
    ⟨fun h c hc => ?_, fun h => ⟨hnests, fun c hc => ?_⟩⟩, fun c hc => ?_⟩
  · by_contra hchar
    exact hchar (h.chars c ((hmem c hchar).2 hc))
  · by_contra hchar
    exact hchar (h c ((hmem c hchar).1 hc))
  · obtain ⟨run, hrun, hc⟩ := List.mem_flatMap.1 hc
    exact (hreport.runs run hrun).text c hc

/-- The message holds a tag and a reference, the source line the character U+0001. -/
theorem images_nest_markup :
    let s : Source := ⟨.snippet "a", [⟨1, by decide⟩], by decide, ⟨1⟩, false⟩
    let label : Label := { span := ⟨⟨1⟩, 0, 1, by decide, by decide⟩, color := some (.rgb 1 2 3) }
    let d : Diagnostic := { level := .error, message := "</pre>&amp;", labels := [label] }
    ∃ body, (ofAll {} ⟨[⟨s, s.name, none⟩]⟩ [d]).write .html true = .ok body ∧
      Xml.Nests (Svg.wrap {} body) ∧ ⟨1, by decide⟩ ∉ Svg.wrap {} body := by
  intro s label d
  obtain ⟨text, body, -, hbody, -, -, hnests, hmem, -, hcontrol⟩ :=
    images_nest {} ⟨[⟨s, s.name, none⟩]⟩ [d] {} true Theme.isValid_default (by decide)
  refine ⟨body, hbody, hnests, fun h => ?_⟩
  rcases hcontrol _ ((hmem _ (by decide)).1 h) (by decide) with h | ⟨_, hd, h⟩ | ⟨_, he, h⟩
  · exact absurd h (by decide)
  · obtain rfl := List.mem_singleton.1 hd
    rcases h with h | ⟨ht, h⟩ | h | ⟨ht, h⟩ | ⟨hl, ht, h⟩
    · exact absurd h (by decide)
    · cases ht
    · exact absurd h (by decide)
    · cases ht
    · obtain rfl := List.mem_singleton.1 hl
      cases ht
  · obtain rfl := List.mem_singleton.1 he
    exact absurd h (by decide)

/-- The message holds the character U+0001. -/
theorem not_isWellFormed_image :
    let d : Diagnostic := { level := .error, message := [⟨1, by decide⟩] }
    ∃ body, (ofAll {} ⟨[]⟩ [d]).write .html true = .ok body ∧
      ¬ Xml.IsWellFormed (Svg.wrap {} body) := by
  intro d
  refine ⟨_, write_html true _, fun h => ?_⟩
  have hchar : ¬ Xml.IsChar ⟨1, by decide⟩ := by decide
  exact hchar (h.chars _ ((Svg.mem_wrap_iff hchar).2 (by decide +kernel)))

end Report

end SourceReport
