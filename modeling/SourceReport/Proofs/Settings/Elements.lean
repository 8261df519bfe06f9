import SourceReport.Settings.Reader

/-!
# The elements that a section colors

A section of styles gives colors to the elements of a report. An element it gives none to keeps its
usual color, so the theme of a section has a style for every element.

* `Theme.Element` names the elements, `Theme.Element.key` their keys in the section.
* `Theme.style?` is the style that a theme gives to an element.

Results:
* `Theme.style?_ofSection`: the style of an element after a section was read.
* `Theme.ofSection_eq_iff`: two sections make the same theme if every element gets the same color.
-/

namespace SourceReport

/-- An element of a report that a section colors. -/
inductive Theme.Element where
  | header (l : Level)
  | primaryLabel
  | secondaryLabel
  | lineNumber
  | sourceBorder
  | noteBullet
  | skipped

namespace Theme

/-- The style of an element, if it has one. -/
def style? (t : Theme) : Element → Option Style
  | .header l => t.headers.get? l
  | .primaryLabel => t.primaryLabel
  | .secondaryLabel => some t.secondaryLabel
  | .lineNumber => some t.lineNumber
  | .sourceBorder => some t.sourceBorder
  | .noteBullet => some t.noteBullet
  | .skipped => some t.skipped

namespace Element

/-- The elements in the order in which their colors are read. -/
def all : List Element :=
  headerOrder.map .header ++
    [.primaryLabel, .secondaryLabel, .lineNumber, .sourceBorder, .noteBullet, .skipped]

theorem mem_all (e : Element) : e ∈ all := by
  cases e with
  | header l => cases l <;> simp [all, headerOrder]
  | _ => simp [all]

instance {p : Element → Prop} [DecidablePred p] : Decidable (∀ e, p e) :=
  decidable_of_iff (∀ e ∈ all, p e) ⟨fun h e => h e (mem_all e), fun h e _ => h e⟩

/-- The key of an element in a section. -/
def key : Element → Text
  | .header l => "header_" ++ l.name
  | .primaryLabel => "primary_label"
  | .secondaryLabel => "secondary_label"
  | .lineNumber => "line_number"
  | .sourceBorder => "source_border"
  | .noteBullet => "note_bullet"
  | .skipped => "skipped"

/-- The style that an element has before it is colored. -/
def ground (e : Element) : Style := (({} : Theme).style? e).getD .plain

/-- The color of an element that a section leaves alone. Primary labels have none: they take the
color of the header. -/
def usualColor (e : Element) : Option Color := (({} : Theme).style? e).bind (·.foreground)

end Element

/-- A style in a new color, or as it is, is the style in the new color or in its own. -/
theorem recolor_eq (c : Option Color) {style : Style} {own : Color}
    (h : style.foreground = some own) :
    some ((c.map style.withForeground).getD style) =
      (c.or (some own)).map style.withForeground := by
  have hown : style.withForeground own = style := by
    unfold Style.withForeground
    rw [← h]
  cases c with
  | none => exact congrArg some hown.symm
  | some c => rfl

/-- **The style of an element** after a section was read: it takes the color of the section, or else
its usual one. -/
theorem style?_ofSection (s : Section) (e : Element) :
    (ofSection s).1.style? e =
      ((s.color e.key).value.or e.usualColor).map e.ground.withForeground := by
  cases e with
  | header l => cases l <;> exact recolor_eq _ rfl
  | primaryLabel =>
    have hvalue : (ofSection s).1.style? .primaryLabel =
        ((s.color "primary_label").value.map Style.colored).or none := rfl
    rw [hvalue, Option.or_none, show Element.usualColor .primaryLabel = none from rfl,
      Option.or_none]
    rfl
  | _ => exact recolor_eq _ rfl

theorem headers_ext {g h : Headers} (heq : ∀ l, g.get? l = h.get? l) : g = h := by
  obtain ⟨info, warning, error, fatal, custom⟩ := g
  obtain ⟨info', warning', error', fatal', custom'⟩ := h
  obtain rfl : info = info' := heq .info
  obtain rfl : warning = warning' := heq .warning
  obtain rfl : error = error' := heq .error
  obtain rfl : fatal = fatal' := heq .fatal
  obtain rfl : custom = custom' := heq .custom
  rfl

theorem ext_style? {t u : Theme} (hmessage : t.headerMessage = u.headerMessage)
    (heq : ∀ e, t.style? e = u.style? e) : t = u := by
  have hheaders : t.headers = u.headers := headers_ext fun l => heq (.header l)
  have hsome : ∀ {e : Element} {a b : Style},
      t.style? e = some a → u.style? e = some b → a = b := by
    intro e a b ha hb
    rw [heq e, hb] at ha
    exact (Option.some.inj ha).symm
  obtain ⟨_, _, _, _, _, _, _, _⟩ := t
  obtain ⟨_, _, _, _, _, _, _, _⟩ := u
  rw [Theme.mk.injEq]
  exact ⟨hheaders, hmessage, heq .primaryLabel, hsome (e := .secondaryLabel) rfl rfl,
    hsome (e := .lineNumber) rfl rfl, hsome (e := .sourceBorder) rfl rfl,
    hsome (e := .noteBullet) rfl rfl, hsome (e := .skipped) rfl rfl⟩

/-- **Two sections make the same theme** if and only if every element gets the same color. -/
theorem ofSection_eq_iff (s s' : Section) :
    (ofSection s).1 = (ofSection s').1 ↔
      ∀ e : Element, (s.color e.key).value.or e.usualColor =
        (s'.color e.key).value.or e.usualColor := by
  have hforeground : ∀ (style : Style) (c : Option Color),
      (c.map style.withForeground).bind (·.foreground) = c := by
    intro style c
    cases c <;> rfl
  constructor
  · intro h e
    have hstyle := congrArg (fun t => (style? t e).bind (·.foreground)) h
    simpa only [style?_ofSection, hforeground] using hstyle
  · intro h
    refine ext_style? rfl fun e => ?_
    rw [style?_ofSection, style?_ofSection, h e]

/-- The theme of a section without colors is the usual one. -/
theorem ofSection_nil (name : Text) : (ofSection ⟨name, []⟩).1 = {} := rfl

end Theme

end SourceReport
