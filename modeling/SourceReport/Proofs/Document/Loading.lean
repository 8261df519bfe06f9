import Mathlib.Data.List.Forall2
import SourceReport.Document.Error

/-!
# What loading gives

Reading a part of a document gives a value or an error. A sequence of steps gives a value if each of
them gives one to the next.

* `Loading.Gives` says that a part was read, and as which value.
* `Loading.Fails` says that it was refused, and why.

Results:
* `Loading.gives_bind`, `Loading.gives_mapM`: what sequences and lists of steps give.
* `Loading.fails_bind`, `Loading.exists_of_fails_mapM`: which step a failure comes from.
-/

namespace SourceReport.Loading

variable {α β γ : Type}

/-- The part was read as a value. -/
def Gives (x : Loading α) (a : α) : Prop := x.outcome = .ok a

@[simp] theorem gives_ok {a b : α} : (ok a).Gives b ↔ a = b := Except.ok.injEq a b ▸ Iff.rfl

@[simp] theorem gives_pure {a b : α} : (pure a : Loading α).Gives b ↔ a = b := gives_ok

@[simp] theorem not_gives_refuse {place : Text} {flaw : ShapeFlaw} {a : α} :
    ¬ (refuse place flaw : Loading α).Gives a := fun h => nomatch h

@[simp] theorem not_gives_error {e : DocumentError} {warnings : List Text} {a : α} :
    ¬ Gives ⟨.error e, warnings⟩ a := fun h => nomatch h

theorem bind_eq (x : Loading α) (f : α → Loading β) : x >>= f = x.bind f := rfl

/-- **A step after another one** gives what it gives for the value of that one. -/
@[simp] theorem gives_bind {x : Loading α} {f : α → Loading β} {b : β} :
    (x >>= f).Gives b ↔ ∃ a, x.Gives a ∧ (f a).Gives b := by
  rw [bind_eq]
  unfold Gives Loading.bind
  cases x.outcome with
  | error e => simp
  | ok a => simp

instance : LawfulMonad Loading := LawfulMonad.mk' Loading
  (fun x => by
    obtain ⟨outcome, warnings⟩ := x
    cases outcome with
    | error e => rfl
    | ok a => exact congrArg (Loading.mk _) (List.append_nil _))
  (fun _ _ => rfl)
  (fun x f g => by
    obtain ⟨outcome, warnings⟩ := x
    cases outcome with
    | error e => rfl
    | ok a =>
      simp only [bind_eq, Loading.bind]
      cases (f a).outcome with
      | error e => rfl
      | ok b => exact congrArg (Loading.mk _) (List.append_assoc _ _ _))

/-- **A list of steps** gives the list of what each of them gives. -/
theorem gives_mapM {f : α → Loading β} {xs : List α} {ys : List β} :
    (xs.mapM f).Gives ys ↔ List.Forall₂ (fun x y => (f x).Gives y) xs ys := by
  induction xs generalizing ys with
  | nil => simp [eq_comm]
  | cons x xs ih =>
    rw [List.mapM_cons, List.forall₂_cons_left_iff]
    simp only [gives_bind, gives_pure, ih]
    constructor
    · rintro ⟨y, hy, ys, hys, rfl⟩
      exact ⟨y, ys, hy, hys, rfl⟩
    · rintro ⟨y, ys, hy, hys, rfl⟩
      exact ⟨y, hy, ys, hys, rfl⟩

/-- Each value of the list was given by one of the steps. -/
theorem exists_of_gives_mapM {f : α → Loading β} {xs : List α} {ys : List β}
    (h : (xs.mapM f).Gives ys) : ∀ y ∈ ys, ∃ x ∈ xs, (f x).Gives y := by
  have hall := gives_mapM.1 h
  intro y hy
  induction hall with
  | nil => cases hy
  | @cons x y' xs ys hgives hrest ih =>
    rcases List.mem_cons.1 hy with rfl | hy
    · exact ⟨x, List.mem_cons_self, hgives⟩
    · obtain ⟨x', hx', hgives'⟩ := ih (gives_mapM.2 hrest) hy
      exact ⟨x', List.mem_cons_of_mem x hx', hgives'⟩

/-! ## Failures -/

/-- The part was refused for a reason. -/
def Fails (x : Loading α) (e : DocumentError) : Prop := x.outcome = .error e

/-- A part is read or refused. -/
theorem gives_or_fails (x : Loading α) : (∃ a, x.Gives a) ∨ ∃ e, x.Fails e := by
  unfold Gives Fails
  cases x.outcome with
  | error e => exact Or.inr ⟨e, rfl⟩
  | ok a => exact Or.inl ⟨a, rfl⟩

theorem Gives.unique {x : Loading α} {a b : α} (ha : x.Gives a) (hb : x.Gives b) : a = b :=
  Except.ok.inj (ha.symm.trans hb)

@[simp] theorem not_fails_ok {a : α} {e : DocumentError} : ¬ (ok a).Fails e := fun h => nomatch h

@[simp] theorem not_fails_pure {a : α} {e : DocumentError} : ¬ (pure a : Loading α).Fails e :=
  not_fails_ok

@[simp] theorem fails_error {e e' : DocumentError} {warnings : List Text} :
    Fails (⟨.error e, warnings⟩ : Loading α) e' ↔ e = e' := Except.error.injEq e e' ▸ Iff.rfl

@[simp] theorem fails_refuse {place : Text} {flaw : ShapeFlaw} {e : DocumentError} :
    (refuse place flaw : Loading α).Fails e ↔ .shape place flaw = e := fails_error

/-- A warning fails if its message cannot be written. -/
theorem fails_warn {message : Except DigitLimitError Text} {e : DocumentError} :
    (warn message).Fails e ↔ ∃ limit, message = .error limit ∧ .refused (.digits limit) = e := by
  cases message with
  | error limit => simp [warn]
  | ok t => simp [warn, Fails]

/-- **A step after another one** fails if the first one fails, or it does for the value of the first
one. -/
@[simp] theorem fails_bind {x : Loading α} {f : α → Loading β} {e : DocumentError} :
    (x >>= f).Fails e ↔ x.Fails e ∨ ∃ a, x.Gives a ∧ (f a).Fails e := by
  rw [bind_eq]
  unfold Gives Fails Loading.bind
  cases x.outcome with
  | error e => simp
  | ok a => simp

/-- **A list of steps** fails with one of them. -/
theorem exists_of_fails_mapM {f : α → Loading β} {xs : List α} {e : DocumentError}
    (h : (xs.mapM f).Fails e) : ∃ x ∈ xs, (f x).Fails e := by
  induction xs with
  | nil => exact absurd h not_fails_pure
  | cons x xs ih =>
    rw [List.mapM_cons] at h
    rcases fails_bind.1 h with hx | ⟨y, -, h⟩
    · exact ⟨x, List.mem_cons_self, hx⟩
    · rcases fails_bind.1 h with hxs | ⟨ys, -, h⟩
      · obtain ⟨x', hx', hfails⟩ := ih hxs
        exact ⟨x', List.mem_cons_of_mem x hx', hfails⟩
      · exact absurd h not_fails_pure

/-- A list of steps without values fails with one of them. -/
theorem exists_of_fails_forM {f : α → Loading PUnit} {xs : List α} {e : DocumentError}
    (h : (xs.forM f).Fails e) : ∃ x ∈ xs, (f x).Fails e := by
  induction xs with
  | nil => exact absurd h not_fails_pure
  | cons x xs ih =>
    rw [List.forM_eq_forM, List.forM_cons] at h
    rcases fails_bind.1 h with hx | ⟨-, -, h⟩
    · exact ⟨x, List.mem_cons_self, hx⟩
    · obtain ⟨x', hx', hfails⟩ := ih h
      exact ⟨x', List.mem_cons_of_mem x hx', hfails⟩

end SourceReport.Loading
