import SourceReport.Command.Session

/-!
# What a step of a run leaves

Most steps of a run answer something and talk about it on the second output, and change nothing
else. No step looks at what stands there. So what a run comes to can be followed without it.

* `Action.Leaves` says what a step answers and which session it leaves, but for the second output.

Results:
* `Action.Leaves.bind`, `Action.Leaves.bind_error`: steps one after another.
* `Action.leaves_forM`, `Action.exists_leaves_mapM`: steps for all items of a list.
* `Session.leaves_log`, `Session.leaves_warn`: records and warnings change nothing else.
* `Session.run_of_leaves`, `Session.run_of_leaves_failed`, `Session.run_of_leaves_broken`: the
  outcome of a run.
-/

namespace SourceReport

/-- The session after something more was written to the second output. -/
def Session.noted (s : Session) (t : Text) : Session :=
  { s with console := { s.console with err := s.console.err ++ t } }

namespace Action

variable {α β γ : Type} {x : Action α} {f : α → Action β} {s s' s'' : Session}

/-- What a step answers, and the session after it. -/
def outcome (x : Action α) (s : Session) : Except Ending α × Session :=
  StateT.run (ExceptT.run x) s

/-- A step answers `r` and leaves `s'`, but for the second output, whatever stood there. -/
def Leaves (x : Action α) (s : Session) (r : Except Ending α) (s' : Session) : Prop :=
  ∀ before, ∃ after, x.outcome (s.noted before) = (r, s'.noted after)

theorem leaves_pure (a : α) (s : Session) : (pure a : Action α).Leaves s (.ok a) s :=
  fun before => ⟨before, rfl⟩

theorem leaves_throw (e : Ending) (s : Session) : (throw e : Action α).Leaves s (.error e) s :=
  fun before => ⟨before, rfl⟩

theorem outcome_bind {a : α} (h : x.outcome s = (.ok a, s')) :
    (x >>= f).outcome s = (f a).outcome s' := by
  simp only [outcome, ExceptT.run_bind, StateT.run_bind] at h ⊢
  rw [h]
  rfl

/-- **Steps one after another**: the second one starts from what the first one has left. -/
theorem Leaves.bind {a : α} {r : Except Ending β} (hx : x.Leaves s (.ok a) s')
    (hf : (f a).Leaves s' r s'') : (x >>= f).Leaves s r s'' := by
  intro before
  obtain ⟨between, hx⟩ := hx before
  obtain ⟨after, hf⟩ := hf between
  exact ⟨after, (outcome_bind hx).trans hf⟩

/-- A step that breaks the run off is the last one. -/
theorem Leaves.bind_error {e : Ending} (hx : x.Leaves s (.error e) s') :
    (x >>= f).Leaves s (.error e) s' := by
  intro before
  obtain ⟨after, hx⟩ := hx before
  refine ⟨after, ?_⟩
  simp only [outcome, ExceptT.run_bind, StateT.run_bind] at hx ⊢
  rw [hx]
  rfl

/-- A step that looks at the session. -/
theorem leaves_get_bind {f : Session → Action β} {r : Except Ending β}
    (h : ∀ before, (f (s.noted before)).Leaves s r s') : (get >>= f).Leaves s r s' :=
  fun before => h before before

/-- A step that changes the session. -/
theorem leaves_modify {g : Session → Session}
    (h : ∀ before, ∃ after, g (s.noted before) = s'.noted after) :
    (modify g : Action Unit).Leaves s (.ok ()) s' := by
  intro before
  obtain ⟨after, h⟩ := h before
  exact ⟨after, congrArg (Prod.mk (Except.ok ())) h⟩

/-- **A step for every item** of a list, if each answers and changes nothing else. -/
theorem leaves_forM {f : γ → Action PUnit} (hf : ∀ c, (f c).Leaves s (.ok ⟨⟩) s) (cs : List γ) :
    (cs.forM f).Leaves s (.ok ⟨⟩) s := by
  induction cs with
  | nil => exact leaves_pure _ s
  | cons c cs ih => exact (hf c).bind ih

theorem leaves_option_forM {f : γ → Action PUnit} (hf : ∀ c, (f c).Leaves s (.ok ⟨⟩) s)
    (o : Option γ) : (o.forM f).Leaves s (.ok ⟨⟩) s := by
  cases o with
  | none => exact leaves_pure _ s
  | some c => exact hf c

theorem exists_leaves_mapM {f : γ → Action β} (hf : ∀ c, ∃ b, (f c).Leaves s (.ok b) s)
    (cs : List γ) : ∃ bs, (cs.mapM f).Leaves s (.ok bs) s := by
  induction cs with
  | nil => exact ⟨[], leaves_pure _ s⟩
  | cons c cs ih =>
    obtain ⟨b, hb⟩ := hf c
    obtain ⟨bs, hbs⟩ := ih
    refine ⟨b :: bs, ?_⟩
    rw [List.mapM_cons]
    exact hb.bind (hbs.bind (leaves_pure _ s))

end Action

namespace Session

open SourceReport.Action

variable {s s' : Session} {command : Action Status}

theorem record_noted (s : Session) (before t : Text) :
    { s.noted before with console := (s.noted before).console.record t } =
      s.noted (before ++ t.escapeSurrogates) := by
  simp [noted, Console.record, List.append_assoc]

/-- **A log record** changes nothing but the second output. -/
theorem leaves_log (level : LogLevel) (message : Text) (s : Session) :
    (log level message).Leaves s (.ok ()) s :=
  leaves_modify fun before => ⟨_, s.record_noted before _⟩

/-- **A warning** changes nothing but the second output. -/
theorem leaves_warn (t : Text) (s : Session) : (warn t).Leaves s (.ok ()) s := by
  refine leaves_modify fun before => ?_
  unfold Console.warn Console.noteIn
  split
  · exact ⟨_, s.record_noted before _⟩
  · exact ⟨_, s.record_noted before _⟩

theorem leaves_fail {α : Type} (status : Status) (message : Text) (s : Session) :
    (fail status message : Action α).Leaves s (.error (.failed ⟨status, message⟩)) s :=
  leaves_throw _ s

theorem exists_outcome_of_leaves {α : Type} {x : Action α} {r : Except Ending α}
    (h : x.Leaves s r s') : ∃ after, StateT.run (ExceptT.run x) s = (r, s'.noted after) := by
  obtain ⟨after, h⟩ := h []
  exact ⟨after, by simpa [outcome, noted] using h⟩

/-- **A run that comes to its end** has the status that its command answers. -/
theorem run_of_leaves {status : Status} (h : command.Leaves s (.ok status) s') :
    (s.run command).status = status.code ∧ (s.run command).breakdown = none ∧
      (s.run command).console.out = s'.console.out ∧ (s.run command).tree = s'.tree := by
  obtain ⟨after, h⟩ := exists_outcome_of_leaves h
  rw [run, h]
  exact ⟨rfl, rfl, rfl, rfl⟩

/-- **A run that fails** has the status of its failure. -/
theorem run_of_leaves_failed {f : Failure} (h : command.Leaves s (.error (.failed f)) s') :
    (s.run command).status = f.status.code ∧ (s.run command).breakdown = none := by
  obtain ⟨after, h⟩ := exists_outcome_of_leaves h
  rw [run, h]
  exact ⟨rfl, rfl⟩

/-- **A run that breaks down** has the status 1. -/
theorem run_of_leaves_broken {b : Breakdown} (h : command.Leaves s (.error (.broken b)) s') :
    (s.run command).status = 1 ∧ (s.run command).breakdown = some b := by
  obtain ⟨after, h⟩ := exists_outcome_of_leaves h
  rw [run, h]
  exact ⟨rfl, rfl⟩

end Session

end SourceReport
