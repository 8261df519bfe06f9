import SourceReport.Command.Locate
import SourceReport.Proofs.Command.Action
import SourceReport.Proofs.Settings.Theme
import SourceReport.Proofs.Source.Notation

/-!
# Positions on the command line

The command `locate` reads a position from its words and prints one in its answer. What it prints is
read again as the same position.

Results:
* `Locate.exists_position_of_place`: the place that is found has a position of two natural numbers,
  however it was asked for.
* `Locate.reads_positions`: which texts are read as positions, what is said of the others, and that
  printed positions are among them.
* `Locate.not_reads_zeros`: zeros in front of a number count against the limit of digits.
-/

namespace SourceReport.Locate

open Position (Writes ofText? pattern)

variable {s : Source} {o : LocateOptions} {place : Place} {session session' : Session}

theorem exists_position_of_atOffset {offset : Int} (h : atOffset s offset = .ok place) :
    ∃ m n : Nat, place.position = ⟨m, n⟩ := by
  obtain ⟨position, hposition, h⟩ := bind_eq_ok_iff.1 h
  obtain ⟨location, -, h⟩ := bind_eq_ok_iff.1 h
  obtain ⟨-, -, hposition⟩ := bind_eq_ok_iff.1 hposition
  obtain ⟨line, -, hposition⟩ := bind_eq_ok_iff.1 hposition
  obtain rfl := Except.ok.inj h
  exact ⟨_, _, (Except.ok.inj hposition).symm⟩

theorem position_of_atPosition {position : Position} (h : atPosition s position = .ok place) :
    place.position = position := by
  obtain ⟨offset, -, h⟩ := bind_eq_ok_iff.1 h
  obtain ⟨location, -, h⟩ := bind_eq_ok_iff.1 h
  obtain rfl := Except.ok.inj h
  rfl

/-- What is found was looked up without error. -/
theorem eq_ok_of_outcome_found {α : Type} {x : Except LookupError α} {a : α}
    (h : (found x).outcome session = (.ok a, session')) : x = .ok a := by
  cases x with
  | error e => cases e <;> cases h
  | ok b => exact congrArg Except.ok (Except.ok.inj (Prod.mk.inj h).1)

/-- **The place that is found** has a position of two natural numbers. -/
theorem exists_position_of_place (h : (Locate.place o s).outcome session = (.ok place, session')) :
    ∃ m n : Nat, place.position = ⟨m, n⟩ := by
  unfold Locate.place at h
  split at h
  · exact exists_position_of_atOffset (eq_ok_of_outcome_found h)
  · next word hoffset hword =>
    cases hread : ofText? word with
    | error e =>
      rw [hread] at h
      cases e <;> cases h
    | ok position =>
      rw [hread] at h
      obtain ⟨line, character, -, -, -, rfl⟩ := Position.ofText?_eq_ok_iff.1 hread
      exact ⟨_, _, position_of_atPosition (eq_ok_of_outcome_found h)⟩
  · cases h

/-- A position that is not written like one is refused as a mistake in the use of the command. -/
theorem outcome_place_of_not_writes {t : Text} (hoffset : o.offset = none)
    (hposition : o.position = some t) (h : ¬ ∃ line character, Writes t line character) :
    (Locate.place o s).outcome session = (.error (.failed (misread t)), session) := by
  simp only [Locate.place, hoffset, hposition, Position.ofText?_of_not_writes h]
  rfl

/-- **Positions are read as they are written.** A text is read exactly if it writes two numerals of
no more digits than the limit allows, and as their numbers; if a numeral has more digits, this is
what is refused; every other text is refused as malformed, which is a mistake in the use of the
command. The pattern keeps the same numerals. In particular two numbers below the limit are read
with any blanks around them, and the position that is printed is read as itself. -/
theorem reads_positions (t : Text) (s : Source) (session : Session) :
    (∀ p, ofText? t = .ok p ↔ ∃ line character : Text, Writes t line character ∧
      line.length ≤ digitLimit ∧ character.length ≤ digitLimit ∧
        p = ⟨line.numeral, character.numeral⟩) ∧
    ((∃ e, ofText? t = .error (.digits e)) ↔ ∃ line character : Text,
      Writes t line character ∧ (digitLimit < line.length ∨ digitLimit < character.length)) ∧
    (ofText? t = .error (.malformed t) ↔ ¬ ∃ line character, Writes t line character) ∧
    (∀ o : LocateOptions, o.offset = none → o.position = some t →
      (¬ ∃ line character, Writes t line character) →
        (Locate.place o s).outcome session = (.error (.failed (misread t)), session) ∧
          (misread t).status = .usage) ∧
    (∀ answer, Pattern.match? pattern t = some answer ↔
      ∃ line character, answer = [line, character] ∧ Writes t line character) ∧
    (∀ m n : Nat, m < 10 ^ digitLimit → n < 10 ^ digitLimit → ∀ a b c d : Text,
      a.IsBlank → b.IsBlank → c.IsBlank → d.IsBlank →
        ofText? (a ++ Text.ofNat m ++ b ++ ":" ++ c ++ Text.ofNat n ++ d) = .ok ⟨m, n⟩) ∧
    (∀ (o : LocateOptions) (session' : Session) (place : Place),
      (Locate.place o s).outcome session = (.ok place, session') →
        ∃ m n : Nat, place.position = ⟨m, n⟩ ∧ (m < 10 ^ digitLimit → n < 10 ^ digitLimit →
          ∃ printed : Text, "lsp:      " ++ printed ∈ place.lines ∧
            ofText? printed = .ok place.position)) := by
  refine ⟨fun p => Position.ofText?_eq_ok_iff, Position.exists_ofText?_eq_digits_iff,
    Position.ofText?_eq_malformed_iff, fun o hoffset hposition h =>
      ⟨outcome_place_of_not_writes hoffset hposition h, rfl⟩,
    fun answer => Position.match?_pattern_eq_some_iff,
    fun m n hm hn a b c d ha hb hc hd => Position.ofText?_ofNat hm hn ha hb hc hd,
    fun o session' place hplace => ?_⟩
  obtain ⟨m, n, hposition⟩ := exists_position_of_place hplace
  refine ⟨m, n, hposition, fun hm hn => ⟨Position.display ⟨m, n⟩, ?_, ?_⟩⟩
  · rw [Place.lines, hposition]
    exact List.mem_cons_of_mem _ (List.mem_cons_of_mem _ List.mem_cons_self)
  · rw [hposition, Position.ofText?_display hm hn]

/-- Blanks around two numbers, the position of an offset that is printed, and a text that writes no
position. -/
theorem reads_positions_blanks :
    let source := Source.ofEncodable .anonymous "a\n𐐀b" rfl
    let session : Session := ⟨{ color := false }, .warning, .warning, none, {}, ⟨.ofText "/", []⟩⟩
    let place : Place := ⟨"<anonymous>", 6, ⟨2, 2⟩, ⟨1, 2⟩⟩
    ofText? (" " ++ Text.ofNat 3 ++ "\t" ++ ":" ++ "" ++ Text.ofNat 70 ++ "\n") = .ok ⟨3, 70⟩ ∧
      ((Locate.place { offset := some 6 } source).outcome session = (.ok place, session) ∧
        ∃ printed : Text, "lsp:      " ++ printed ∈ place.lines ∧
          ofText? printed = .ok place.position) ∧
      (¬ ∃ line character, Writes "zero:one" line character) ∧
        (Locate.place { position := some "zero:one" } source).outcome session =
          (.error (.failed (misread "zero:one")), session) := by
  intro source session place
  obtain ⟨-, -, hmalformed, hmisread, -, hblanks, hprinted⟩ :=
    reads_positions "zero:one" source session
  have hlimit : ∀ m < 100, m < 10 ^ digitLimit := fun m hm =>
    Nat.lt_of_lt_of_le (show m < 10 ^ 2 from hm)
      (Nat.pow_le_pow_right (by decide) (show 2 ≤ digitLimit by decide))
  have hplace : (Locate.place { offset := some 6 } source).outcome session =
      (.ok place, session) := rfl
  have hnot : ¬ ∃ line character, Writes "zero:one" line character :=
    hmalformed.1 (by decide +kernel)
  obtain ⟨m, n, hposition, hread⟩ := hprinted _ _ _ hplace
  obtain ⟨hm, hn⟩ : 1 = (m : Int) ∧ 2 = (n : Int) := Position.mk.inj hposition
  refine ⟨?_, ⟨hplace, hread (hlimit m (by omega)) (hlimit n (by omega))⟩, hnot,
    (hmisread { position := some "zero:one" } rfl rfl hnot).1⟩
  exact hblanks 3 70 (hlimit 3 (by decide)) (hlimit 70 (by decide)) " " "\t" "" "\n"
    (by unfold Text.IsBlank; decide) (by unfold Text.IsBlank; decide)
    (by unfold Text.IsBlank; decide) (by unfold Text.IsBlank; decide)

/-- **Zeros in front of a number** count against the limit, although they write nothing. -/
theorem not_reads_zeros :
    let zeros := Text.repeated digitLimit '0'
    Writes (zeros ++ "1:0") (zeros ++ "1") "0" ∧ Text.numeral (zeros ++ "1") = 1 ∧
      Text.numeral "0" = 0 ∧
        ofText? (zeros ++ "1:0") = .error (.digits (.reading (digitLimit + 1))) := by
  intro zeros
  have hone : Text.IsNumeral "1" := Text.isNumeral_ofNat 1
  have hzero : Text.IsNumeral "0" := Text.isNumeral_ofNat 0
  have hnone : Text.IsBlank [] := fun _ hc => absurd hc List.not_mem_nil
  have hwrites : Writes (zeros ++ "1:0") (zeros ++ "1") "0" := by
    refine ⟨hone.repeated_zero_append digitLimit, hzero, [], [], [], [], hnone, hnone, hnone, hnone,
      ?_⟩
    simp only [List.nil_append, List.append_nil, List.append_assoc]
    rfl
  have hlong : (zeros ++ "1" : Text).length = digitLimit + 1 := by
    rw [List.length_append]
    exact congrArg (· + 1) List.length_replicate
  refine ⟨hwrites, (Text.numeral_repeated_zero_append _ _).trans (Text.numeral_ofNat 1),
    Text.numeral_ofNat 0, ?_⟩
  rw [hwrites.ofText?_eq, hlong, if_pos (Nat.lt_succ_self _)]

end SourceReport.Locate
