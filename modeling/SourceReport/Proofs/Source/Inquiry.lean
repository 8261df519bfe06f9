import SourceReport.Proofs.Source.Column
import SourceReport.Proofs.Source.Units

/-!
# Offsets that refusals name

Every look-up in a source can be refused because something lies inside a character, and the refusal
names an offset. A look-up that asks for offsets names one of those it was asked for, which is no
boundary. A look-up that asks for editor positions was given no offset. It names the place where
counting the units of the line stopped, and this is always a boundary: the start of the line for
units below zero, the end of the character for units that split a pair.

* `Inquiry` is a look-up with what it asks for, `Inquiry.refusal?` the cause for which a source
  refuses it.
* `Source.Offends` says that an offset is among those asked for and no boundary.

Results:
* `Source.offends_of_checkBoundary` and its companions: what the look-ups by offsets name.
* `Source.countsTo_of_offsetOf?` and its companion: what the look-ups by positions name.
* `Inquiry.refusal_names_offset`: the look-ups by offsets name an offset that is no boundary, and no
  other look-up does.
-/

namespace SourceReport

/-! ## Look-ups -/

/-- A look-up in a source, and what it asks for. -/
inductive Inquiry where
  /-- Whether an offset is a boundary. -/
  | check (offset : Int)
  /-- The text between two offsets. -/
  | slice (start stop : Int)
  /-- The column of an offset in a line. -/
  | columnIn (line offset : Int)
  /-- The place of an offset. -/
  | location (offset : Int)
  /-- The editor position of an offset. -/
  | positionOf (offset : Int)
  /-- The editor range of a span. -/
  | rangeOf (span : Span)
  /-- The offset of an editor position. -/
  | offsetOf (position : Position)
  /-- The span of an editor range. -/
  | spanOf (range : PositionRange)

namespace Inquiry

/-- The offsets that are asked for. -/
def offsets : Inquiry → List Int
  | check offset => [offset]
  | slice start stop => [start, stop]
  | columnIn _ offset => [offset]
  | location offset => [offset]
  | positionOf offset => [offset]
  | rangeOf span => [span.start, span.stop]
  | offsetOf _ => []
  | spanOf _ => []

/-- The editor positions that are asked for. -/
def positions : Inquiry → List Position
  | offsetOf position => [position]
  | spanOf range => [range.start, range.stop]
  | _ => []

end Inquiry

/-- The cause for which a look-up failed. -/
def causeOf? {α : Type} : Except LookupError α → Option LookupError
  | .ok _ => none
  | .error e => some e

/-- The cause for which a source refuses a look-up. -/
def Inquiry.refusal? (s : Source) : Inquiry → Option LookupError
  | check offset => causeOf? (s.checkBoundary offset)
  | slice start stop => causeOf? (s.slice? start stop)
  | columnIn line offset => causeOf? (s.columnIn? line offset)
  | location offset => causeOf? (s.location? offset)
  | positionOf offset => causeOf? (s.positionOf? offset)
  | rangeOf span => causeOf? (s.rangeOf? span)
  | offsetOf position => causeOf? (s.offsetOf? position)
  | spanOf range => causeOf? (s.spanOf? range)

theorem eq_error_of_causeOf? {α : Type} {x : Except LookupError α} {e : LookupError}
    (h : causeOf? x = some e) : x = .error e := by
  cases x with
  | ok a => cases h
  | error cause => exact congrArg Except.error (Option.some.inj h)

/-- Of two steps, one after the other, either the first one fails or the second one does. -/
theorem bind_eq_error_iff {α β ε : Type} {x : Except ε α} {f : α → Except ε β} {e : ε} :
    x >>= f = .error e ↔ x = .error e ∨ ∃ a, x = .ok a ∧ f a = .error e := by
  cases x with
  | error cause => simp [bind, Except.bind]
  | ok a => simp [bind, Except.bind]

namespace Source

variable {s : Source} {a b i o given : Int} {p : Position}

/-! ## Look-ups by offsets -/

/-- An offset among some others is no boundary. -/
def Offends (s : Source) (offsets : List Int) (given : Int) : Prop :=
  given ∈ offsets ∧ s.isBoundary given = false

theorem Offends.mono {xs ys : List Int} (h : s.Offends xs given) (hsub : xs ⊆ ys) :
    s.Offends ys given :=
  ⟨hsub h.1, h.2⟩

/-- A look-up that is refused for lying inside a character was meant to be. -/
theorem eq_insideCharacter_of_built {α : Type} {x : Except LookupError α} {cause : LookupError}
    (hcause : x = .error cause.built) (h : x = .error (.insideCharacter given)) :
    cause = .insideCharacter given :=
  LookupError.eq_of_built_eq (Except.error.inj (hcause.symm.trans h)) fun _ heq => nomatch heq

theorem offends_of_checkBoundary (h : s.checkBoundary o = .error (.insideCharacter given)) :
    s.Offends [o] given := by
  rcases s.checkBoundary_cases o with ⟨-, hcase⟩ | ⟨-, -, hcase⟩ | ⟨-, hboundary, hcase⟩
  · rw [hcase] at h
    cases h
  · cases eq_insideCharacter_of_built hcase h
  · cases eq_insideCharacter_of_built hcase h
    exact ⟨List.mem_singleton.2 rfl, hboundary⟩

theorem offends_of_slice? (h : s.slice? a b = .error (.insideCharacter given)) :
    s.Offends [a, b] given := by
  rw [slice?, bind_eq_error_iff] at h
  rcases h with hstart | ⟨_, -, h⟩
  · exact (offends_of_checkBoundary hstart).mono (by simp)
  · rw [bind_eq_error_iff] at h
    rcases h with hstop | ⟨_, -, h⟩
    · exact (offends_of_checkBoundary hstop).mono (by simp)
    · cases h

/-- A line that does not exist is refused for that. -/
theorem line?_ne_insideCharacter : s.line? i ≠ .error (.insideCharacter given) := by
  unfold line?
  split
  · split <;> simp
  · simp

theorem offends_of_columnIn? (h : s.columnIn? i o = .error (.insideCharacter given)) :
    s.Offends [o] given := by
  have hfailed := h
  rw [columnIn?, bind_eq_error_iff] at hfailed
  rcases hfailed with hline | ⟨l, hline, -⟩
  · exact absurd hline line?_ne_insideCharacter
  · obtain ⟨n, rfl, hl⟩ := line?_eq_ok_iff.1 hline
    rcases columnIn?_cases hl o with ⟨-, -, hcase⟩ | ⟨-, -, hboundary, hcase⟩ |
      ⟨-, -, column, hcase⟩
    · cases eq_insideCharacter_of_built hcase h
    · cases eq_insideCharacter_of_built hcase h
      exact ⟨List.mem_singleton.2 rfl, hboundary⟩
    · rw [hcase] at h
      cases h

/-- An offset outside the source is refused for that when its line is looked up. -/
theorem lineOf?_ne_insideCharacter : s.lineOf? o ≠ .error (.insideCharacter given) := by
  unfold lineOf?
  split <;> simp

theorem offends_of_location? (h : s.location? o = .error (.insideCharacter given)) :
    s.Offends [o] given := by
  rw [location?, bind_eq_error_iff] at h
  rcases h with hline | ⟨l, -, h⟩
  · exact absurd hline lineOf?_ne_insideCharacter
  · rw [bind_eq_error_iff] at h
    rcases h with hcolumn | ⟨_, -, h⟩
    · exact offends_of_columnIn? hcolumn
    · cases h

theorem offends_of_positionOf? (h : s.positionOf? o = .error (.insideCharacter given)) :
    s.Offends [o] given := by
  rw [positionOf?, bind_eq_error_iff] at h
  rcases h with hcheck | ⟨_, -, h⟩
  · exact offends_of_checkBoundary hcheck
  · rw [bind_eq_error_iff] at h
    rcases h with hline | ⟨_, -, h⟩
    · exact absurd hline lineOf?_ne_insideCharacter
    · cases h

theorem offends_of_rangeOf? {span : Span}
    (h : s.rangeOf? span = .error (.insideCharacter given)) :
    s.Offends [span.start, span.stop] given := by
  rw [rangeOf?, bind_eq_error_iff] at h
  rcases h with hstart | ⟨_, -, h⟩
  · exact (offends_of_positionOf? hstart).mono (by simp)
  · rw [bind_eq_error_iff] at h
    rcases h with hstop | ⟨_, -, h⟩
    · exact (offends_of_positionOf? hstop).mono (by simp)
    · cases h

/-! ## Look-ups by positions -/

theorem countsTo_of_offsetOf? (h : s.offsetOf? p = .error (.insideCharacter given)) :
    s.CountsTo p given :=
  (offsetOf?_eq_insideCharacter_iff.1 h).1

theorem countsTo_of_spanOf? {r : PositionRange}
    (h : s.spanOf? r = .error (.insideCharacter given)) :
    ∃ p ∈ [r.start, r.stop], s.CountsTo p given := by
  rw [spanOf?, bind_eq_error_iff] at h
  rcases h with hstart | ⟨_, -, h⟩
  · exact ⟨r.start, by simp, countsTo_of_offsetOf? hstart⟩
  · rw [bind_eq_error_iff] at h
    rcases h with hstop | ⟨_, -, h⟩
    · exact ⟨r.stop, by simp, countsTo_of_offsetOf? hstop⟩
    · cases h

end Source

/-! ## All look-ups -/

namespace Inquiry

variable {s : Source} {inquiry : Inquiry} {given : Int}

/-- A refusal names an offset that was asked for and is no boundary, or the place where counting the
units of a position that was asked for stops. -/
theorem offends_or_countsTo (h : inquiry.refusal? s = some (.insideCharacter given)) :
    (inquiry.positions = [] ∧ s.Offends inquiry.offsets given) ∨
      (inquiry.offsets = [] ∧ ∃ p ∈ inquiry.positions, s.CountsTo p given) := by
  unfold refusal? at h
  cases inquiry with
  | check _ => exact Or.inl ⟨rfl, Source.offends_of_checkBoundary (eq_error_of_causeOf? h)⟩
  | slice _ _ => exact Or.inl ⟨rfl, Source.offends_of_slice? (eq_error_of_causeOf? h)⟩
  | columnIn _ _ => exact Or.inl ⟨rfl, Source.offends_of_columnIn? (eq_error_of_causeOf? h)⟩
  | location _ => exact Or.inl ⟨rfl, Source.offends_of_location? (eq_error_of_causeOf? h)⟩
  | positionOf _ => exact Or.inl ⟨rfl, Source.offends_of_positionOf? (eq_error_of_causeOf? h)⟩
  | rangeOf _ => exact Or.inl ⟨rfl, Source.offends_of_rangeOf? (eq_error_of_causeOf? h)⟩
  | offsetOf p =>
    exact Or.inr ⟨rfl, p, List.mem_singleton_self p,
      Source.countsTo_of_offsetOf? (eq_error_of_causeOf? h)⟩
  | spanOf _ => exact Or.inr ⟨rfl, Source.countsTo_of_spanOf? (eq_error_of_causeOf? h)⟩

/-- **What refusals name.** A look-up by offsets that is refused because one of them lies inside a
character names one that was asked for and is no boundary. A look-up by editor positions that is
refused for this cause names the place where counting the units of one of them stops, which is a
boundary. Every look-up is of one of these kinds. -/
theorem refusal_names_offset (s : Source) (inquiry : Inquiry) :
    (inquiry.positions = [] ∨ inquiry.offsets = []) ∧
    ∀ given, inquiry.refusal? s = some (.insideCharacter given) →
      (inquiry.positions = [] → given ∈ inquiry.offsets ∧ s.isBoundary given = false) ∧
      (inquiry.offsets = [] → (∃ p ∈ inquiry.positions, s.CountsTo p given) ∧
        s.isBoundary given = true) := by
  refine ⟨by cases inquiry <;> simp [positions, offsets], fun given h => ?_⟩
  rcases offends_or_countsTo h with ⟨hpositions, hoffends⟩ | ⟨hoffsets, p, hp, hcounts⟩
  · refine ⟨fun _ => hoffends, fun hoffsets => absurd hoffends.1 ?_⟩
    rw [hoffsets]
    exact List.not_mem_nil
  · refine ⟨fun hpositions => absurd hp ?_, fun _ => ⟨⟨p, hp, hcounts⟩, hcounts.isBoundary⟩⟩
    rw [hpositions]
    exact List.not_mem_nil

/-- The second byte of a character, and a position between its two units. -/
theorem refusal_names_offset_pair :
    ((slice 0 2).refusal? (.ofEncodable .anonymous "𐐀" rfl) = some (.insideCharacter 2) ∧
      (slice 0 2).positions = [] ∧ 2 ∈ (slice 0 2).offsets ∧
      Source.isBoundary (.ofEncodable .anonymous "𐐀" rfl) 2 = false) ∧
    (offsetOf ⟨0, 1⟩).refusal? (.ofEncodable .anonymous "𐐀" rfl) = some (.insideCharacter 4) ∧
      (offsetOf ⟨0, 1⟩).offsets = [] ∧
      (∃ p ∈ (offsetOf ⟨0, 1⟩).positions,
        Source.CountsTo (.ofEncodable .anonymous "𐐀" rfl) p 4) ∧
      Source.isBoundary (.ofEncodable .anonymous "𐐀" rfl) 4 = true :=
  have hslice : (slice 0 2).refusal? (.ofEncodable .anonymous "𐐀" rfl) =
      some (.insideCharacter 2) := by decide +kernel
  have hposition : (offsetOf ⟨0, 1⟩).refusal? (.ofEncodable .anonymous "𐐀" rfl) =
      some (.insideCharacter 4) := by decide +kernel
  ⟨⟨hslice, rfl, ((refusal_names_offset _ (slice 0 2)).2 2 hslice).1 rfl⟩, hposition, rfl,
    ((refusal_names_offset _ (offsetOf ⟨0, 1⟩)).2 4 hposition).2 rfl⟩

/-- **Not every refusal names an offset inside a character**: a position between the two units of a
character names the end of the character. -/
theorem not_refusal_names_inside : ¬ ∀ (s : Source) (inquiry : Inquiry) (given : Int),
    inquiry.refusal? s = some (.insideCharacter given) → s.isBoundary given = false := by
  intro h
  have hend : Source.isBoundary (.ofEncodable .anonymous "𐐀" rfl) 4 = false :=
    h (.ofEncodable .anonymous "𐐀" rfl) (offsetOf ⟨0, 1⟩) 4 (by decide +kernel)
  have hboundary : Source.isBoundary (.ofEncodable .anonymous "𐐀" rfl) 4 = true := rfl
  rw [hboundary] at hend
  cases hend

end Inquiry

end SourceReport
