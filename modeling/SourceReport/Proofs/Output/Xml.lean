import SourceReport.Text.Basic

/-!
# Well-formed documents

What makes a text a document of XML 1.0. It is one element. Elements nest: each tag that is opened
is closed again by a tag of its name, before the one around it is. Between tags stand references,
and characters that neither open a tag nor begin a reference. All characters are among those that
documents may hold.

The grammar here has the names, values and references that images need, a part of what XML has.

* `Xml.IsChar` tells the characters that documents may hold.
* `Xml.Content` is what may stand inside of an element, `Xml.Nests` what may be a whole document.
* `Xml.IsWellFormed` says that a text is a document.

Results:
* `Xml.Content.append`: contents can be put together.
* `Xml.Tag.IsFit.mem_around_iff`: what documents may not hold stands in the content of an element.
-/

namespace SourceReport.Xml

/-! ## Characters -/

/-- A character that documents may hold. -/
def IsChar (c : CodePoint) : Prop :=
  c.val = 0x9 ∨ c.val = 0xA ∨ c.val = 0xD ∨ (0x20 ≤ c.val ∧ c.val ≤ 0xD7FF) ∨
    (0xE000 ≤ c.val ∧ c.val ≤ 0xFFFD) ∨ 0x10000 ≤ c.val

instance (c : CodePoint) : Decidable (IsChar c) := inferInstanceAs (Decidable (_ ∨ _))

/-- All characters may stand in documents. -/
def AllChars (t : Text) : Prop := ∀ c ∈ t, IsChar c

instance (t : Text) : Decidable (AllChars t) := inferInstanceAs (Decidable (∀ c ∈ t, IsChar c))

/-- A character that opens or ends a tag, or begins a reference. -/
def IsMarkup (c : CodePoint) : Prop := c = '<' ∨ c = '>' ∨ c = '&'

instance (c : CodePoint) : Decidable (IsMarkup c) := inferInstanceAs (Decidable (_ ∨ _))

/-- A text that can stand in the value of an attribute. -/
def IsBare (t : Text) : Prop := ∀ c ∈ t, IsChar c ∧ ¬ IsMarkup c ∧ c ≠ '"'

instance (t : Text) : Decidable (IsBare t) :=
  inferInstanceAs (Decidable (∀ c ∈ t, IsChar c ∧ ¬ IsMarkup c ∧ c ≠ '"'))

/-- The name of an element or an attribute, of ASCII letters. -/
def IsName (t : Text) : Prop := t ≠ [] ∧ ∀ c ∈ t, c.isAsciiLetter = true

instance (t : Text) : Decidable (IsName t) := inferInstanceAs (Decidable (_ ∧ _))

section Characters

variable {s t : Text}

theorem IsBare.append (hs : IsBare s) (ht : IsBare t) : IsBare (s ++ t) :=
  List.forall_mem_append.2 ⟨hs, ht⟩

theorem IsBare.allChars (h : IsBare t) : AllChars t := fun c hc => (h c hc).1

theorem AllChars.append (hs : AllChars s) (ht : AllChars t) : AllChars (s ++ t) :=
  List.forall_mem_append.2 ⟨hs, ht⟩

theorem AllChars.not_mem (h : AllChars t) {c : CodePoint} (hc : ¬ IsChar c) : c ∉ t :=
  fun hmem => hc (h c hmem)

/-- ASCII digits and letters can stand in values. -/
theorem isBare_of_alphanumeric
    (h : ∀ c ∈ t, c.isAsciiDigit = true ∨ c.isAsciiLetter = true) : IsBare t := by
  intro c hc
  have hc := h c hc
  refine ⟨?_, ?_, ?_⟩
  · simp [CodePoint.isAsciiDigit, CodePoint.isAsciiLetter] at hc
    unfold IsChar
    omega
  · rintro (rfl | rfl | rfl) <;> exact absurd hc (by decide)
  · rintro rfl
    exact absurd hc (by decide)

theorem IsName.isBare (h : IsName t) : IsBare t :=
  isBare_of_alphanumeric fun c hc => Or.inr (h.2 c hc)

end Characters

/-! ## Tags -/

/-- An attribute in a tag. -/
def attributeText (a : Text × Text) : Text := " " ++ a.1 ++ "=\"" ++ a.2 ++ "\""

/-- The name of an element, and its attributes with their values. -/
structure Tag where
  name : Text
  attributes : List (Text × Text) := []

namespace Tag

variable {tag : Tag}

/-- The tag that opens an element. -/
def opening (tag : Tag) : Text := "<" ++ tag.name ++ tag.attributes.flatMap attributeText ++ ">"

/-- The tag that closes it again. -/
def closing (tag : Tag) : Text := "</" ++ tag.name ++ ">"

/-- An element with its content. -/
def around (tag : Tag) (inner : Text) : Text := tag.opening ++ inner ++ tag.closing

/-- A tag that an element may have: no attribute stands in it twice. -/
structure IsFit (tag : Tag) : Prop where
  name : IsName tag.name
  names : ∀ n ∈ tag.attributes.map Prod.fst, IsName n
  values : ∀ a ∈ tag.attributes, IsBare a.2
  distinct : (tag.attributes.map Prod.fst).Nodup

theorem IsFit.allChars_opening (h : tag.IsFit) : AllChars tag.opening := by
  have hfront : AllChars "<" := by decide
  have hspace : AllChars " " := by decide
  have hequals : AllChars "=\"" := by decide
  have hquote : AllChars "\"" := by decide
  have hend : AllChars ">" := by decide
  have hattributes : AllChars (tag.attributes.flatMap attributeText) := by
    intro c hc
    obtain ⟨a, ha, hc⟩ := List.mem_flatMap.1 hc
    have hname := (h.names a.1 (List.mem_map_of_mem ha)).isBare.allChars
    have hvalue := (h.values a ha).allChars
    exact ((((hspace.append hname).append hequals).append hvalue).append hquote) c hc
  exact ((hfront.append h.name.isBare.allChars).append hattributes).append hend

theorem IsFit.allChars_closing (h : tag.IsFit) : AllChars tag.closing := by
  have hfront : AllChars "</" := by decide
  have hend : AllChars ">" := by decide
  exact (hfront.append h.name.isBare.allChars).append hend

/-- **An element** holds the characters of its content and such as documents may hold. -/
theorem IsFit.mem_around_iff (h : tag.IsFit) {inner : Text} {c : CodePoint} (hc : ¬ IsChar c) :
    c ∈ tag.around inner ↔ c ∈ inner := by
  simp only [around, List.mem_append, h.allChars_opening.not_mem hc, h.allChars_closing.not_mem hc,
    false_or, or_false]

end Tag

/-! ## Documents -/

/-- The references to characters that are markup. -/
def entities : List Text := ["&amp;", "&lt;", "&gt;"]

/-- What may stand inside of an element. -/
inductive Content : Text → Prop
  | nil : Content []
  | char {c : CodePoint} {rest : Text} (hc : ¬ IsMarkup c) (hrest : Content rest) :
    Content (c :: rest)
  | reference {name rest : Text} (hname : name ∈ entities) (hrest : Content rest) :
    Content (name ++ rest)
  | element {tag : Tag} {inner rest : Text} (htag : tag.IsFit) (hinner : Content inner)
    (hrest : Content rest) : Content (tag.around inner ++ rest)

/-- One element whose content nests, and blanks behind it. -/
def Nests (t : Text) : Prop :=
  ∃ (root : Tag) (inner blanks : Text), root.IsFit ∧ Content inner ∧
    (∀ c ∈ blanks, c ∈ (" \t\r\n" : Text)) ∧ t = root.around inner ++ blanks

/-- **A document**. -/
structure IsWellFormed (t : Text) : Prop where
  nests : Nests t
  chars : AllChars t

namespace Content

variable {s t : Text}

/-- **Contents** can be put together. -/
theorem append (hs : Content s) (ht : Content t) : Content (s ++ t) := by
  induction hs with
  | nil => exact ht
  | char hc _ ih => exact char hc ih
  | reference hname _ ih =>
    rw [List.append_assoc]
    exact reference hname ih
  | element htag hinner _ _ ih =>
    rw [List.append_assoc]
    exact element htag hinner ih

theorem entity (h : t ∈ entities) : Content t := by
  have hreference := reference h nil
  rwa [List.append_nil] at hreference

theorem around {tag : Tag} (htag : tag.IsFit) (ht : Content t) : Content (tag.around t) := by
  have helement := element htag ht nil
  rwa [List.append_nil] at helement

theorem flatMap {α : Type} {f : α → Text} {xs : List α} (h : ∀ x ∈ xs, Content (f x)) :
    Content (xs.flatMap f) := by
  induction xs with
  | nil => exact nil
  | cons x xs ih =>
    rw [List.flatMap_cons]
    exact (h x List.mem_cons_self).append (ih fun y hy => h y (List.mem_cons_of_mem x hy))

theorem of_isBare (h : IsBare t) : Content t := by
  induction t with
  | nil => exact nil
  | cons c t ih =>
    exact char (h c List.mem_cons_self).2.1 (ih fun d hd => h d (List.mem_cons_of_mem c hd))

end Content

end SourceReport.Xml
