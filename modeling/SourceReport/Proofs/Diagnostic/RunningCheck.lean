import SourceReport.Diagnostic.Validation

/-!
# Running checks

A running check applies moves to a validation, each to what the one before it has left, and all of
them with one running list. A validation that has collected diagnostics gives them to the list with
its first fold. A failure that comes back from `validate` carries a copy of the list, so the next
fold appends that copy: from then on the list holds what was collected more than once.

* `Move` is one step, `Moves` a sequence of them; the type of the value may change on the way.
* `Moves.refolds` says that a failure which `validate` returned is folded again.
* `Moves.tally` counts the copies of what was collected, in the list and in the failure.

Results:
* `Moves.run_failure`: what a check of a failure comes to, copy by copy.
* `Moves.tally_le_one_iff`: the list holds one copy at most unless a failure is folded again.
* `diagnostics_kept`: no diagnostic is lost, their order is kept, and when none is repeated.
* `not_reported_once`: a failure that is validated twice.
-/

namespace SourceReport.Validation

/-- A step of a running check. -/
inductive Move : Type → Type → Type 1 where
  | map {α β : Type} (f : α → β) : Move α β
  | take {α : Type} : Move α α
  | validate {α : Type} : Move α α
  | recover {α : Type} (default : α) : Move α α

/-- Steps one after another. -/
inductive Moves : Type → Type → Type 1 where
  | done {α : Type} : Moves α α
  | next {α β γ : Type} (move : Move α β) (rest : Moves β γ) : Moves α γ

/-- The current validation and the running list. -/
abbrev Check (α : Type) := Validation α × List Diagnostic

variable {α β : Type}

/-- Applies a step to the current validation; every step but `map` folds it into the list. -/
def Move.apply : Move α β → Check α → Check β
  | .map f, (v, errors) => (v.map f, errors)
  | .take, (v, errors) => v.takeDiagnostics errors
  | .validate, (v, errors) => v.validate errors
  | .recover default, (v, errors) => v.recover errors default

namespace Move

variable {ds errors : List Diagnostic} {fatal : Diagnostic}

/-- **A step from a success** leaves what was collected where it is, or moves it to the list. -/
theorem apply_success (move : Move α β) (a : α) (ds errors : List Diagnostic) :
    ∃ b, move.apply (success a ds, errors) = (success b ds, errors) ∨
      move.apply (success a ds, errors) = (success b [], errors ++ ds) := by
  cases move with
  | map f => exact ⟨f a, Or.inl rfl⟩
  | take => exact ⟨a, Or.inr rfl⟩
  | validate => exact ⟨a, Or.inr rfl⟩
  | recover default => exact ⟨a, Or.inr rfl⟩

theorem apply_map_failure (f : α → β) :
    (map f).apply (failure fatal ds, errors) = (failure fatal ds, errors) := rfl

theorem apply_take_failure :
    (take : Move α α).apply (failure fatal ds, errors) = (failure fatal [], errors ++ ds) := rfl

theorem apply_validate_failure :
    (validate : Move α α).apply (failure fatal ds, errors) =
      (failure fatal (errors ++ ds), errors ++ ds) := rfl

theorem apply_recover_failure (default : α) :
    (recover default).apply (failure fatal ds, errors) =
      (success default [], errors ++ ds ++ [fatal]) := rfl

end Move

/-- A list several times over. -/
def copies (n : Nat) (ds : List Diagnostic) : List Diagnostic := (List.replicate n ds).flatten

variable {ds : List Diagnostic} {fatal : Diagnostic}

@[simp] theorem copies_zero (ds : List Diagnostic) : copies 0 ds = [] := rfl

@[simp] theorem copies_one (ds : List Diagnostic) : copies 1 ds = ds := List.append_nil ds

theorem copies_append_copies (m n : Nat) (ds : List Diagnostic) :
    copies m ds ++ copies n ds = copies (m + n) ds := by
  rw [copies, copies, copies, ← List.flatten_append, List.replicate_append_replicate]

theorem mem_copies {n : Nat} {d : Diagnostic} : d ∈ copies n ds ↔ n ≠ 0 ∧ d ∈ ds := by
  simp only [copies, List.mem_flatten, List.mem_replicate]
  exact ⟨fun ⟨_, ⟨hn, hds⟩, hd⟩ => ⟨hn, hds ▸ hd⟩, fun ⟨hn, hd⟩ => ⟨ds, ⟨hn, rfl⟩, hd⟩⟩

/-- Two copies of a list repeat its elements, one does not. -/
theorem nodup_copies_iff {n : Nat} (hds : ds.Nodup) : (copies n ds).Nodup ↔ n ≤ 1 ∨ ds = [] := by
  match n with
  | 0 => simp
  | 1 => simpa using hds
  | n + 2 =>
    have hsplit : copies (n + 2) ds = ds ++ (ds ++ copies n ds) := by
      simp [copies, List.replicate_succ]
    cases ds with
    | nil => simp [copies]
    | cons d ds => simp [hsplit]

namespace Moves

/-- Applies the steps in order. -/
def run : {α β : Type} → Moves α β → Check α → Check β
  | _, _, .done, c => c
  | _, _, .next move rest, c => rest.run (move.apply c)

/-- Whether a step folds the current validation into the list. -/
def folds : {α β : Type} → Moves α β → Bool
  | _, _, .done => false
  | _, _, .next (.map _) rest => rest.folds
  | _, _, .next _ _ => true

/-- Whether a failure that `validate` returned is folded again. After `recover` there is none. -/
def refolds : {α β : Type} → Moves α β → Bool
  | _, _, .done => false
  | _, _, .next (.map _) rest => rest.refolds
  | _, _, .next .take rest => rest.refolds
  | _, _, .next .validate rest => rest.folds
  | _, _, .next (.recover _) _ => false

/-- Whether a failure is given up for another value. -/
def recovers : {α β : Type} → Moves α β → Bool
  | _, _, .done => false
  | _, _, .next (.recover _) _ => true
  | _, _, .next (.map _) rest => rest.recovers
  | _, _, .next .take rest => rest.recovers
  | _, _, .next .validate rest => rest.recovers

/-- The copies of what a failure had collected, in the list and in the failure. -/
def tally : {α β : Type} → Moves α β → Nat → Nat → Nat × Nat
  | _, _, .done, listed, held => (listed, held)
  | _, _, .next (.map _) rest, listed, held => rest.tally listed held
  | _, _, .next .take rest, listed, held => rest.tally (listed + held) 0
  | _, _, .next .validate rest, listed, held => rest.tally (listed + held) (listed + held)
  | _, _, .next (.recover _) _, listed, held => (listed + held, 0)

/-! ## Successes -/

/-- A success that holds nothing adds nothing. -/
theorem run_settled (moves : Moves α β) (a : α) (errors : List Diagnostic) :
    ∃ b, moves.run (success a [], errors) = (success b [], errors) := by
  induction moves with
  | done => exact ⟨a, rfl⟩
  | next move rest ih =>
    obtain ⟨b, h⟩ := move.apply_success a [] errors
    rw [List.append_nil, or_self] at h
    rw [run, h]
    exact ih b

/-- **A success** gives what it has collected to the list once. -/
theorem run_success (moves : Moves α β) (a : α) (ds : List Diagnostic) :
    ∃ b, moves.run (success a ds, []) = (success b ds, []) ∨
      moves.run (success a ds, []) = (success b [], ds) := by
  induction moves with
  | done => exact ⟨a, Or.inl rfl⟩
  | next move rest ih =>
    rw [run]
    obtain ⟨b, h | h⟩ := move.apply_success a ds []
    · rw [h]
      exact ih b
    · rw [h, List.nil_append]
      obtain ⟨c, hc⟩ := rest.run_settled b ds
      exact ⟨c, Or.inr hc⟩

/-! ## Failures -/

/-- **A failure**, copy by copy: the list and the failure hold what the tally counts, until the
failure is given up and its fatal diagnostic follows the copies in the list. -/
theorem run_failure (moves : Moves α β) (fatal : Diagnostic) (ds : List Diagnostic)
    (listed held : Nat) :
    let now := moves.run (failure fatal (copies held ds), copies listed ds)
    let tally := moves.tally listed held
    if moves.recovers then ∃ b, now = (success b [], copies tally.1 ds ++ [fatal])
    else now = (failure fatal (copies tally.2 ds), copies tally.1 ds) := by
  induction moves generalizing listed held with
  | done => rfl
  | next move rest ih =>
    cases move with
    | map f =>
      simp only [run, Move.apply_map_failure, recovers, tally]
      exact ih listed held
    | take =>
      simp only [run, Move.apply_take_failure, copies_append_copies, recovers, tally]
      exact ih (listed + held) 0
    | validate =>
      simp only [run, Move.apply_validate_failure, copies_append_copies, recovers, tally]
      exact ih (listed + held) (listed + held)
    | recover default =>
      simp only [run, Move.apply_recover_failure, copies_append_copies, recovers, tally, if_true]
      exact rest.run_settled default _

/-! ## Counting copies -/

/-- No copy gets lost. -/
theorem le_tally (moves : Moves α β) (listed held : Nat) :
    listed + held ≤ (moves.tally listed held).1 + (moves.tally listed held).2 := by
  fun_induction tally moves listed held <;> omega

/-- Nothing is taken out of the list. -/
theorem le_tally_fst (moves : Moves α β) (listed held : Nat) :
    listed ≤ (moves.tally listed held).1 := by
  fun_induction tally moves listed held <;> omega

theorem tally_of_not_folds {moves : Moves α β} (h : moves.folds = false) (listed held : Nat) :
    moves.tally listed held = (listed, held) := by
  induction moves with
  | done => rfl
  | next move rest ih =>
    cases move with
    | map f => exact ih h
    | take | validate | recover => cases h

/-- A fold moves the copies of the failure to the list. -/
theorem le_tally_of_folds {moves : Moves α β} (h : moves.folds = true) (listed held : Nat) :
    listed + held ≤ (moves.tally listed held).1 := by
  induction moves with
  | done => cases h
  | next move rest ih =>
    cases move with
    | map f => exact ih h
    | take => exact rest.le_tally_fst (listed + held) 0
    | validate => exact rest.le_tally_fst (listed + held) (listed + held)
    | recover default => exact Nat.le_refl _

theorem folds_of_recovers {moves : Moves α β} (h : moves.recovers = true) :
    moves.folds = true := by
  induction moves with
  | done => cases h
  | next move rest ih =>
    cases move with
    | map f => exact ih h
    | take | validate | recover => rfl

/-- Unless a failure is folded again, the list gets the copies that there are. -/
theorem tally_le_of_not_refolds {moves : Moves α β} (h : moves.refolds = false)
    (listed held : Nat) : (moves.tally listed held).1 ≤ listed + held := by
  induction moves generalizing listed held with
  | done => exact Nat.le_add_right listed held
  | next move rest ih =>
    cases move with
    | map f => exact ih h listed held
    | take => exact ih h (listed + held) 0
    | validate => exact Nat.le_of_eq (by rw [tally, tally_of_not_folds h])
    | recover default => exact Nat.le_refl _

/-- Folding a failure again doubles the copies. -/
theorem le_tally_of_refolds {moves : Moves α β} (h : moves.refolds = true) (listed held : Nat) :
    2 * (listed + held) ≤ (moves.tally listed held).1 := by
  induction moves generalizing listed held with
  | done => cases h
  | next move rest ih =>
    cases move with
    | map f => exact ih h listed held
    | take => exact ih h (listed + held) 0
    | validate =>
      have hrest : rest.folds = true := h
      have := le_tally_of_folds hrest (listed + held) (listed + held)
      rw [tally]
      omega
    | recover default => cases h

/-- **One copy at most** is in the list exactly if no failure is folded again. -/
theorem tally_le_one_iff (moves : Moves α β) :
    (moves.tally 0 1).1 ≤ 1 ↔ moves.refolds = false := by
  constructor
  · intro hle
    rw [← Bool.not_eq_true]
    intro h
    have := le_tally_of_refolds h 0 1
    omega
  · intro h
    exact tally_le_of_not_refolds h 0 1

/-- **What a check comes to**: copies of what the validation had collected, in the list and in the
current validation, and its fatal diagnostic, in the list once the failure has been given up. -/
theorem exists_run_eq (v : Validation α) (moves : Moves α β) :
    let now := moves.run (v, [])
    ∃ listed held, now.2 = copies listed v.collected ++
        (if now.1.isSuccess then v.fatal?.toList else []) ∧
      now.1.collected = copies held v.collected ∧
      (now.1.isSuccess = false → now.1.fatal? = v.fatal?) ∧ 1 ≤ listed + held ∧
      (listed ≤ 1 ↔ v.isSuccess = true ∨ moves.refolds = false) := by
  obtain ⟨outcome, ds⟩ := v
  cases outcome with
  | ok a =>
    obtain ⟨b, h | h⟩ := moves.run_success a ds <;> rw [success] at h <;> rw [h]
    · exact ⟨0, 1, by simp [success, isSuccess, fatal?]⟩
    · exact ⟨1, 0, by simp [success, isSuccess, fatal?]⟩
  | error fatal =>
    have hrun := moves.run_failure fatal ds 0 1
    have hpos := moves.le_tally 0 1
    have hone := moves.tally_le_one_iff
    simp only [copies_zero, copies_one, failure] at hrun
    split at hrun
    · next hrecovers =>
      obtain ⟨b, h⟩ := hrun
      have := le_tally_of_folds (folds_of_recovers hrecovers) 0 1
      rw [h]
      exact ⟨(moves.tally 0 1).1, 0, rfl, rfl, fun hfalse => (nomatch hfalse), by omega,
        by simpa [isSuccess] using hone⟩
    · rw [hrun]
      exact ⟨(moves.tally 0 1).1, (moves.tally 0 1).2, (List.append_nil _).symm, rfl, fun _ => rfl,
        hpos, by simpa [isSuccess] using hone⟩

end Moves

/-- **No diagnostic of a running check is lost**: each is in the running list or in the current
validation. The list holds whole copies of what was collected, in its order, and then the fatal
diagnostic if the failure has been given up. No diagnostic is in it twice, unless something was
collected and a failure that `validate` returned is folded again. -/
theorem diagnostics_kept (v : Validation α) (hdistinct : v.allDiagnostics.Nodup)
    (moves : Moves α β) :
    let now := moves.run (v, [])
    (∀ d ∈ v.allDiagnostics, d ∈ now.2 ∨ d ∈ now.1.allDiagnostics) ∧
    (∃ listed held, now.1.collected = copies held v.collected ∧
      now.2 = copies listed v.collected ++
        (if now.1.isSuccess then v.fatal?.toList else [])) ∧
    (now.2.Nodup ↔ v.isSuccess = true ∨ v.collected = [] ∨ moves.refolds = false) := by
  intro now
  obtain ⟨listed, held, hlist, hheld, hfatal, hpos, hone⟩ := moves.exists_run_eq v
  obtain ⟨hcollected, hfatals, hapart⟩ := List.nodup_append.1 hdistinct
  refine ⟨fun d hd => ?_, ⟨listed, held, hheld, hlist⟩, ?_⟩
  · rcases List.mem_append.1 hd with hd | hd
    · rcases Nat.eq_zero_or_pos listed with hzero | hlisted
      · refine Or.inr (List.mem_append_left _ ?_)
        rw [hheld, mem_copies]
        exact ⟨by omega, hd⟩
      · refine Or.inl ?_
        rw [hlist]
        exact List.mem_append_left _ (mem_copies.2 ⟨by omega, hd⟩)
    · cases hsuccess : now.1.isSuccess with
      | true =>
        refine Or.inl ?_
        rw [hlist, if_pos hsuccess]
        exact List.mem_append_right _ hd
      | false =>
        refine Or.inr (List.mem_append_right _ ?_)
        rw [hfatal hsuccess]
        exact hd
  · have hdemoted : ∀ b : Bool, (if b then v.fatal?.toList else []).Sublist v.fatal?.toList :=
      fun b => by cases b <;> simp
    have happart : ∀ d ∈ copies listed v.collected,
        ∀ e ∈ (if now.1.isSuccess then v.fatal?.toList else []), d ≠ e := fun d hd e he =>
      hapart d (mem_copies.1 hd).2 e ((hdemoted _).subset he)
    rw [hlist, List.nodup_append, nodup_copies_iff hcollected, hone]
    constructor
    · rintro ⟨(hsuccess | hrefolds) | hnil, -⟩
      · exact Or.inl hsuccess
      · exact Or.inr (Or.inr hrefolds)
      · exact Or.inr (Or.inl hnil)
    · intro h
      refine ⟨?_, (hdemoted _).nodup hfatals, happart⟩
      rcases h with hsuccess | hnil | hrefolds
      · exact Or.inl (Or.inl hsuccess)
      · exact Or.inr hnil
      · exact Or.inl (Or.inr hrefolds)

/-- A failure that is emptied, returned with a copy, and then given up: the copy is in the list a
second time. -/
theorem diagnostics_kept_recovered :
    let warning : Diagnostic := { level := .warning, message := "unused" }
    let stop : Diagnostic := { level := .error, message := "stop" }
    let v : Validation Nat := failure stop [warning]
    let moves : Moves Nat Bool :=
      .next .take (.next .validate (.next (.recover 0) (.next (.map (· == 0)) .done)))
    v.allDiagnostics.Nodup ∧ moves.refolds = true ∧
      (∀ d ∈ v.allDiagnostics, d ∈ (moves.run (v, [])).2 ∨
        d ∈ (moves.run (v, [])).1.allDiagnostics) ∧ ¬ (moves.run (v, [])).2.Nodup := by
  intro warning stop v moves
  have hdistinct : v.allDiagnostics.Nodup := by decide
  obtain ⟨hkept, -, honce⟩ := diagnostics_kept v hdistinct moves
  refine ⟨hdistinct, rfl, hkept, fun hnodup => ?_⟩
  rcases honce.1 hnodup with h | h | h <;> cases h

/-- **A failure that is validated twice** reports what it had collected twice. -/
theorem not_reported_once :
    ¬ ∀ (v : Validation Unit), v.allDiagnostics.Nodup → ∀ moves : Moves Unit Unit,
      ∀ d ∈ v.allDiagnostics, (moves.run (v, [])).2.count d ≤ 1 := by
  intro h
  have htwice := h (failure { level := .error, message := "stop" } [{ level := .warning }])
    (by decide) (.next .validate (.next .validate .done)) { level := .warning } (by decide)
  exact absurd htwice (by decide)

end SourceReport.Validation
