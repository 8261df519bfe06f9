import SourceReport.Text.Basic

/-!
# Patterns

A pattern is a list of parts that match a text from its start on, one behind the other. A part may
match in several ways: a run of code points of a class prefers to be long, and gives code points
back one by one if the parts behind it do not match otherwise. The answer is what the runs that are
kept have taken on the first way that leads through all parts.

* `Part.ways` lists the ways of a part, the preferred one first: what it takes, and what is left.
* `matchesOf` lists all ways through a pattern in the order in which they are tried, `match?` is the
  first of them.

Results:
* `mem_matchesOf_run_iff`, `mem_matchesOf_only_iff`, `mem_matchesOf_finish_iff`: the texts through
  which there is a way, and what it answers, part by part.
* `match?_eq_some_iff`: if all ways through a pattern take the same, the order does not matter.
-/

namespace SourceReport.Pattern

/-- A part of a pattern. -/
inductive Part where
  /-- A number of code points of a class, at least so many; a run that is kept is answered. -/
  | run (kept : Bool) (least : Nat) (accepts : CodePoint → Bool)
  /-- The code point itself. -/
  | only (c : CodePoint)
  /-- Nothing, at the end of the text or before a newline at its end. -/
  | finish

/-- The ways to split a text behind code points of a class, the longest run first. -/
def splits (accepts : CodePoint → Bool) : Text → List (Text × Text)
  | [] => [([], [])]
  | c :: t =>
    (if accepts c then (splits accepts t).map fun s => (c :: s.1, s.2) else []) ++ [([], c :: t)]

/-- What a part may take of a text and what it leaves, the preferred way first. -/
def Part.ways : Part → Text → List (Text × Text)
  | .run _ least accepts, t => (splits accepts t).filter fun s => least ≤ s.1.length
  | .only c, t =>
    match t with
    | [] => []
    | d :: rest => if d = c then [([d], rest)] else []
  | .finish, t => if t = [] ∨ t = [CodePoint.ofChar '\n'] then [([], t)] else []

/-- What a part adds to the answer if it takes a text. -/
def Part.answer : Part → Text → List Text
  | .run true _ _, taken => [taken]
  | _, _ => []

/-- The answers of all ways through a pattern, in the order in which they are tried. -/
def matchesOf : List Part → Text → List (List Text)
  | [], _ => [[]]
  | part :: parts, t =>
    (part.ways t).flatMap fun s => (matchesOf parts s.2).map (part.answer s.1 ++ ·)

/-- The answer of the first way through a pattern. -/
def match? (parts : List Part) (t : Text) : Option (List Text) := (matchesOf parts t).head?

/-! ## Ways through a pattern -/

theorem mem_splits_iff {accepts : CodePoint → Bool} {a b t : Text} :
    (a, b) ∈ splits accepts t ↔ t = a ++ b ∧ ∀ c ∈ a, accepts c = true := by
  induction t generalizing a with
  | nil =>
    rw [splits, List.mem_singleton, Prod.mk.injEq]
    constructor
    · rintro ⟨rfl, rfl⟩
      exact ⟨rfl, fun _ hc => absurd hc List.not_mem_nil⟩
    · rintro ⟨h, -⟩
      exact List.append_eq_nil_iff.1 h.symm
  | cons d t ih =>
    rw [splits, List.mem_append, List.mem_singleton, Prod.mk.injEq]
    constructor
    · rintro (h | ⟨rfl, rfl⟩)
      · split at h
        · next hd =>
          obtain ⟨⟨a', b'⟩, hmem, heq⟩ := List.mem_map.1 h
          obtain ⟨rfl, rfl⟩ := Prod.mk.inj heq
          obtain ⟨rfl, hall⟩ := ih.1 hmem
          exact ⟨rfl, List.forall_mem_cons.2 ⟨hd, hall⟩⟩
        · exact absurd h List.not_mem_nil
      · exact ⟨rfl, fun _ hc => absurd hc List.not_mem_nil⟩
    · rintro ⟨h, hall⟩
      cases a with
      | nil => exact Or.inr ⟨rfl, h.symm⟩
      | cons c a =>
        obtain ⟨rfl, rfl⟩ := List.cons.inj h
        obtain ⟨hd, hall⟩ := List.forall_mem_cons.1 hall
        rw [if_pos hd]
        exact Or.inl (List.mem_map.2 ⟨(a, b), ih.2 ⟨rfl, hall⟩, rfl⟩)

section Parts

variable {parts : List Part} {t : Text} {answer : List Text}

/-- A way through a pattern is a way of its first part, then one through the parts behind it. -/
theorem mem_matchesOf_cons_iff {part : Part} :
    answer ∈ matchesOf (part :: parts) t ↔ ∃ a b, (a, b) ∈ part.ways t ∧
      ∃ more ∈ matchesOf parts b, answer = part.answer a ++ more := by
  simp only [matchesOf, List.mem_flatMap, List.mem_map, Prod.exists, eq_comm]

/-- **A run** may take what its class allows, if that is long enough. -/
theorem mem_matchesOf_run_iff {kept : Bool} {least : Nat} {accepts : CodePoint → Bool} :
    answer ∈ matchesOf (.run kept least accepts :: parts) t ↔ ∃ a b, t = a ++ b ∧
      (∀ c ∈ a, accepts c = true) ∧ least ≤ a.length ∧
        ∃ more ∈ matchesOf parts b, answer = (if kept then [a] else []) ++ more := by
  rw [mem_matchesOf_cons_iff]
  simp only [Part.ways, List.mem_filter, mem_splits_iff, decide_eq_true_iff, and_assoc]
  cases kept <;> rfl

theorem mem_matchesOf_only_iff {c : CodePoint} :
    answer ∈ matchesOf (.only c :: parts) t ↔ ∃ b, t = c :: b ∧ answer ∈ matchesOf parts b := by
  rw [mem_matchesOf_cons_iff]
  constructor
  · rintro ⟨a, b, hway, more, hmore, rfl⟩
    cases t with
    | nil => exact absurd hway List.not_mem_nil
    | cons d t =>
      rw [Part.ways] at hway
      split at hway
      · next hd =>
        obtain ⟨rfl, rfl⟩ := Prod.mk.inj (List.mem_singleton.1 hway)
        exact ⟨b, congrArg (· :: b) hd, hmore⟩
      · exact absurd hway List.not_mem_nil
  · rintro ⟨b, rfl, hmore⟩
    refine ⟨[c], b, ?_, answer, hmore, rfl⟩
    rw [Part.ways, if_pos rfl]
    exact List.mem_singleton_self _

theorem mem_matchesOf_finish_iff :
    answer ∈ matchesOf [.finish] t ↔ (t = [] ∨ t = [CodePoint.ofChar '\n']) ∧ answer = [] := by
  rw [mem_matchesOf_cons_iff]
  constructor
  · rintro ⟨a, b, hway, more, hmore, rfl⟩
    rw [Part.ways] at hway
    split at hway
    · next hend => exact ⟨hend, List.mem_singleton.1 hmore⟩
    · exact absurd hway List.not_mem_nil
  · rintro ⟨hend, rfl⟩
    refine ⟨[], t, ?_, [], List.mem_singleton_self _, rfl⟩
    rw [Part.ways, if_pos hend]
    exact List.mem_singleton_self _

/-- **The answer** of a pattern is the only one there is, if all ways through it agree. -/
theorem match?_eq_some_iff
    (hagree : ∀ x ∈ matchesOf parts t, ∀ y ∈ matchesOf parts t, x = y) :
    match? parts t = some answer ↔ answer ∈ matchesOf parts t := by
  constructor
  · exact List.mem_of_mem_head?
  · intro h
    cases hall : matchesOf parts t with
    | nil =>
      rw [hall] at h
      exact absurd h List.not_mem_nil
    | cons first others =>
      rw [match?, hall, List.head?_cons, hagree first (hall ▸ List.mem_cons_self) answer h]

end Parts

end SourceReport.Pattern
