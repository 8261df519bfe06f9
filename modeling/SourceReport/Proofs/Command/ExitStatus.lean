import SourceReport.Command.Program
import SourceReport.Proofs.Command.Stages

/-!
# The exit status of `render`

The status 1 says that the report was handed over and holds what the caller asked to fail on. A run
that breaks down has the status 1 as well, so the status tells this apart only if nothing breaks the
run off. What does so is listed here.

* `Render.Produces` says that a run comes to a report.
* `Render.Reaches` says that the report holds what the caller asked to fail on.
* `Render.Breaks` lists what breaks a run off.
* `Program.Begins` says that the program comes to the command at all.

Results:
* `Render.leaves_command`, `Render.exists_leaves_command_of_breaks`,
  `Render.hands_or_breaks_or_fails`: how a run ends, by what comes of its stages.
* `Render.tells_run`: what the outcome of the command tells.
* `Program.run_of_begins`: a program that comes to the command runs it.
* `Program.render_status`: what the outcome of the program tells.
* `Program.not_render_status`: a surrogate in a message gives the status 1.
-/

namespace SourceReport

/-- Whether a file can be written does not depend on what is written. -/
theorem Tree.exists_write? {tree after : Tree} {p : Path} {bytes : List UInt8}
    (h : tree.write? p bytes = .ok after) (others : List UInt8) :
    ∃ after, tree.write? p others = .ok after := by
  obtain ⟨parts, hparts, h⟩ := bind_eq_ok_iff.1 h
  have hplace : tree.at? parts ≠ some .directory := by
    intro hat
    rw [hat] at h
    cases h
  refine ⟨{ tree with
    entries := (tree.entries.filter fun e => e.1 ≠ parts) ++ [(parts, .file others)] },
    bind_eq_ok_iff.2 ⟨parts, hparts, ?_⟩⟩
  cases hat : tree.at? parts with
  | none => rfl
  | some entry =>
    cases entry with
    | file bytes => rfl
    | directory => exact absurd hat hplace

namespace Render

open SourceReport.Action Session

variable {s s' : Session} {o : RenderOptions} {d : Document} {t : Text}

/-! ## What a run comes to -/

/-- A run comes to a report on the document `d` with the text `t`. -/
structure Produces (s : Session) (o : RenderOptions) (d : Document) (t : Text) : Prop where
  found : s.tree.isFile (.ofText o.document) = true
  named : HasSettings s.tree o
  read : (loading s.tree o).outcome = .ok d
  written : ∃ draft, draft? s.tree o = .ok draft ∧ text? s o draft d = .ok t

/-- The caller asked to fail on a level, and a diagnostic is at least as severe. A custom level has
no rank. -/
def Reaches (o : RenderOptions) (d : Document) : Prop :=
  ∃ threshold ∈ o.failOn, ∃ x ∈ d.diagnostics, ∃ m n,
    threshold.rank? = some m ∧ x.level.rank? = some n ∧ m ≤ n

/-- What breaks a run off: a refused content of a settings file or of the document, a source in it
under a name that no file can have, or a report without an encoding. -/
inductive Breaks (s : Session) (o : RenderOptions) : Breakdown → Prop where
  | settings {e : SettingsError} {b : Breakdown}
      (found : s.tree.isFile (.ofText o.document) = true) (named : HasSettings s.tree o)
      (h : draft? s.tree o = .error e) (hb : e.fault.breakdown? = some b) : Breaks s o b
  | document {draft : Draft} {e : DocumentError} {b : Breakdown}
      (found : s.tree.isFile (.ofText o.document) = true) (named : HasSettings s.tree o)
      (hdraft : draft? s.tree o = .ok draft) (h : (loading s.tree o).outcome = .error e)
      (hb : e.breakdown? = some b) : Breaks s o b
  | encoding {d : Document} {t : Text} (h : Produces s o d t)
      (htext : t.loneSurrogate?.isSome = true)
      (hwrite : ∀ file ∈ o.output, ∃ tree, s.tree.write? (.ofText file) [] = .ok tree) :
      Breaks s o .encoding

theorem fails_iff : fails o d.diagnostics = true ↔ Reaches o d := by
  unfold fails Reaches
  cases o.failOn with
  | none => simp
  | some threshold =>
    simp only [List.any_eq_true, Option.mem_some_iff, exists_eq_left']
    refine exists_congr fun x => and_congr_right fun _ => ?_
    unfold Level.atLeast
    cases threshold.rank? <;> cases x.level.rank? <;> simp

/-! ## The command -/

theorem leaves_requireFile (h : s.tree.isFile (.ofText o.document) = true) :
    (requireFile o.document).Leaves s (.ok ()) s := by
  refine leaves_get_bind fun _ => ?_
  simp only [noted, h]
  exact leaves_pure _ s

theorem leaves_requireFile_missing (h : s.tree.isFile (.ofText o.document) = false) :
    (requireFile o.document).Leaves s
      (.error (.failed ⟨.missingFile, "No such file: " ++ o.document⟩)) s := by
  refine leaves_get_bind fun _ => ?_
  simp only [noted, h]
  exact leaves_fail _ _ s

/-- A run that comes to a report ends as handing it over does. -/
theorem leaves_command_of_produces {r : Except Ending Status} (h : Produces s o d t)
    (hrest : ∀ messages : List Text,
      (do
        deliver o t
        warnOf messages
        summarize (.ofLevels (d.diagnostics.map (·.level)))
        conclude o d.diagnostics : Action Status).Leaves s r s') :
    (command o).Leaves s r s' := by
  obtain ⟨draft, hdraft, htext⟩ := h.written
  refine (leaves_requireFile h.found).bind ?_
  refine (leaves_settings h.named hdraft).bind ?_
  refine (leaves_document h.read).bind ?_
  refine leaves_get_bind fun before => ?_
  refine (leaves_warnOf _ s).bind ?_
  refine (leaves_forM (fun i => leaves_log _ (issueTrouble i) s) _).bind ?_
  split
  · next e he => cases htext.symm.trans he
  · next t' ht' =>
    obtain rfl : t = t' := Except.ok.inj (htext.symm.trans ht')
    exact hrest _

/-- **A report that is handed over** decides on the status. -/
theorem leaves_command (h : Produces s o d t) (hhands : Hands s o t s') :
    (command o).Leaves s (.ok (answer o d)) s' := by
  refine leaves_command_of_produces h fun messages => ?_
  refine (leaves_deliver hhands).bind ?_
  refine (leaves_warnOf messages s').bind ?_
  exact (leaves_summarize _ s').bind (leaves_conclude o d s')

/-- **What breaks a run off** does so. -/
theorem exists_leaves_command_of_breaks {b : Breakdown} (h : Breaks s o b) :
    ∃ s', (command o).Leaves s (.error (.broken b)) s' := by
  cases h with
  | @settings e b found named herror hb =>
    have hsettings := leaves_settings_error named herror
    rw [hb] at hsettings
    exact ⟨s, (leaves_requireFile found).bind hsettings.bind_error⟩
  | @document draft e b found named hdraft herror hb =>
    have hdocument := leaves_document_error herror
    rw [hb] at hdocument
    exact ⟨s, (leaves_requireFile found).bind
      ((leaves_settings named hdraft).bind hdocument.bind_error)⟩
  | encoding hproduces htext hwrite =>
    obtain ⟨s', hdeliver⟩ := exists_leaves_deliver_broken htext hwrite
    exact ⟨s', leaves_command_of_produces hproduces fun _ => hdeliver.bind_error⟩

/-- The statuses of errors in settings, in documents, and of files. -/
def errorStatuses : List Status := [.data, .missingFile, .io, .settings]

theorem code_mem_of_mem_errorStatuses :
    ∀ status ∈ errorStatuses, status.code ∈ [65, 66, 74, 78] := by
  decide

theorem status_document_mem (e : DocumentError) :
    (LibraryError.document e).status ∈ errorStatuses := by
  cases e with
  | source e =>
    obtain ⟨path, fault⟩ := e
    cases fault <;> simp [LibraryError.status, Fault.status, errorStatuses]
  | _ => simp [LibraryError.status, errorStatuses]

/-- A report is handed over, unless it has no encoding or its file cannot be written. -/
theorem hands_or_breaks_or_fails_of_produces (h : Produces s o d t) :
    (∃ s', Hands s o t s') ∨ Breaks s o .encoding ∨
      ∃ message, (command o).Leaves s (.error (.failed ⟨.io, message⟩)) s := by
  by_cases hwrite : ∀ file ∈ o.output, ∃ tree, s.tree.write? (.ofText file) [] = .ok tree
  · cases htext : t.loneSurrogate? with
    | some c => exact .inr (.inl (.encoding h (by rw [htext]; rfl) hwrite))
    | none =>
      cases houtput : o.output with
      | none => exact .inl ⟨_, .console houtput htext⟩
      | some file =>
        obtain ⟨tree, hempty⟩ := hwrite file houtput
        obtain ⟨tree, hfull⟩ := Tree.exists_write? hempty t.utf8
        exact .inl ⟨_, .file houtput htext hfull⟩
  · obtain ⟨file, hfile⟩ := Classical.not_forall.1 hwrite
    obtain ⟨houtput, hnot⟩ := Classical.not_imp.1 hfile
    have hfails : ∀ bytes tree, s.tree.write? (.ofText file) bytes ≠ .ok tree :=
      fun _ _ hok => hnot (Tree.exists_write? hok [])
    obtain ⟨message, hdeliver⟩ := exists_leaves_deliver_failed (t := t) houtput hfails
    exact .inr (.inr ⟨message, leaves_command_of_produces h fun _ => hdeliver.bind_error⟩)

/-- **Every run** comes to a report that is handed over, or breaks down, or fails with the status of
an error. -/
theorem hands_or_breaks_or_fails (s : Session) (o : RenderOptions) :
    (∃ d t s', Produces s o d t ∧ Hands s o t s') ∨ (∃ b, Breaks s o b) ∨
      ∃ f : Failure, f.status ∈ errorStatuses ∧ (command o).Leaves s (.error (.failed f)) s := by
  by_cases found : s.tree.isFile (.ofText o.document) = true
  case neg =>
    have hmissing := leaves_requireFile_missing (Bool.eq_false_iff.2 found)
    exact .inr (.inr ⟨_, by simp [errorStatuses], hmissing.bind_error⟩)
  by_cases named : HasSettings s.tree o
  case neg =>
    obtain ⟨message, hsettings⟩ := leaves_settings_missing named
    exact .inr (.inr ⟨⟨.settings, message⟩, by simp [errorStatuses],
      (leaves_requireFile found).bind hsettings.bind_error⟩)
  rcases hdraft : draft? s.tree o with e | draft
  · cases hb : e.fault.breakdown? with
    | some b => exact .inr (.inl ⟨b, .settings found named hdraft hb⟩)
    | none =>
      have hsettings := leaves_settings_error named hdraft
      rw [hb] at hsettings
      exact .inr (.inr ⟨.of (.settings e), by simp [Failure.of, LibraryError.status, errorStatuses],
        (leaves_requireFile found).bind hsettings.bind_error⟩)
  rcases hdoc : (loading s.tree o).outcome with e | d
  · cases hb : e.breakdown? with
    | some b => exact .inr (.inl ⟨b, .document found named hdraft hdoc hb⟩)
    | none =>
      have hdocument := leaves_document_error hdoc
      rw [hb] at hdocument
      exact .inr (.inr ⟨.of (.document e), status_document_mem e,
        (leaves_requireFile found).bind ((leaves_settings named hdraft).bind
          hdocument.bind_error)⟩)
  obtain ⟨t, ht⟩ := exists_text? hdraft hdoc
  have hproduces : Produces s o d t := ⟨found, named, hdoc, draft, hdraft, ht⟩
  rcases hands_or_breaks_or_fails_of_produces hproduces with ⟨s', hhands⟩ | hb | ⟨message, hleaves⟩
  · exact .inl ⟨d, t, s', hproduces, hhands⟩
  · exact .inr (.inl ⟨_, hb⟩)
  · exact .inr (.inr ⟨⟨.io, message⟩, by simp [errorStatuses], hleaves⟩)

/-- What the outcome of a run tells: the status 1 stands for a report that reaches the level to fail
on and for a breakdown, the status 0 for a report that does not reach it, and every other run has
the status of an error. The report stands where it shall go. -/
structure Tells (s : Session) (o : RenderOptions) (outcome : Outcome) : Prop where
  reached : outcome.status = 1 ↔
    (∃ d t s', Produces s o d t ∧ Hands s o t s' ∧ Reaches o d) ∨ ∃ b, Breaks s o b
  success : outcome.status = 0 ↔ ∃ d t s', Produces s o d t ∧ Hands s o t s' ∧ ¬ Reaches o d
  statuses : outcome.status ∈ [0, 1, 65, 66, 74, 78]
  breakdown : ∀ b, outcome.breakdown = some b ↔ Breaks s o b
  handed : ∀ d t s', Produces s o d t → Hands s o t s' →
    outcome.breakdown = none ∧ outcome.console.out = s'.console.out ∧ outcome.tree = s'.tree

theorem code_answer_of_reaches (h : Reaches o d) : (answer o d).code = 1 := by
  rw [answer, if_pos (fails_iff.2 h)]
  rfl

theorem code_answer_of_not_reaches (h : ¬ Reaches o d) : (answer o d).code = 0 := by
  rw [answer, if_neg (mt fails_iff.1 h)]
  rfl

/-- **What the outcome of the command tells**, in every session and with all options. -/
theorem tells_run (s : Session) (o : RenderOptions) : Tells s o (s.run (command o)) := by
  have hreport : ∀ {d t s'}, Produces s o d t → Hands s o t s' →
      (s.run (command o)).status = (answer o d).code ∧ (s.run (command o)).breakdown = none ∧
        (s.run (command o)).console.out = s'.console.out ∧ (s.run (command o)).tree = s'.tree :=
    fun hproduces hhands => run_of_leaves (leaves_command hproduces hhands)
  have hreached : ∀ {d t s'}, Produces s o d t → Hands s o t s' → Reaches o d →
      (s.run (command o)).status = 1 := fun hproduces hhands h =>
    (hreport hproduces hhands).1.trans (code_answer_of_reaches h)
  have hsuccess : ∀ {d t s'}, Produces s o d t → Hands s o t s' → ¬ Reaches o d →
      (s.run (command o)).status = 0 := fun hproduces hhands h =>
    (hreport hproduces hhands).1.trans (code_answer_of_not_reaches h)
  have hbreaks : ∀ {b}, Breaks s o b →
      (s.run (command o)).status = 1 ∧ (s.run (command o)).breakdown = some b := by
    intro b h
    obtain ⟨s', hleaves⟩ := exists_leaves_command_of_breaks h
    exact run_of_leaves_broken hleaves
  have handed : ∀ d t s', Produces s o d t → Hands s o t s' →
      (s.run (command o)).breakdown = none ∧ (s.run (command o)).console.out = s'.console.out ∧
        (s.run (command o)).tree = s'.tree := fun _ _ _ hproduces hhands =>
    (hreport hproduces hhands).2
  have hends : (∃ d t s', Produces s o d t ∧ Hands s o t s') ∨ (∃ b, Breaks s o b) ∨
      (s.run (command o)).status ∈ [65, 66, 74, 78] ∧ (s.run (command o)).breakdown = none := by
    refine (hands_or_breaks_or_fails s o).imp_right (Or.imp_right fun ⟨f, hf, hleaves⟩ => ?_)
    obtain ⟨hstatus, hnone⟩ := run_of_leaves_failed hleaves
    exact ⟨hstatus ▸ code_mem_of_mem_errorStatuses _ hf, hnone⟩
  refine {
    reached := ⟨fun h => ?_, ?_⟩
    success := ⟨fun h => ?_, ?_⟩
    statuses := ?_
    breakdown := fun b => ⟨fun h => ?_, fun h => (hbreaks h).2⟩
    handed := handed }
  · rcases hends with ⟨d, t, s', hproduces, hhands⟩ | hb | ⟨hstatus, -⟩
    · by_cases hr : Reaches o d
      · exact .inl ⟨d, t, s', hproduces, hhands, hr⟩
      · rw [hsuccess hproduces hhands hr] at h
        cases h
    · exact .inr hb
    · rw [h] at hstatus
      simp at hstatus
  · rintro (⟨d, t, s', hproduces, hhands, hr⟩ | ⟨b, hb⟩)
    · exact hreached hproduces hhands hr
    · exact (hbreaks hb).1
  · rcases hends with ⟨d, t, s', hproduces, hhands⟩ | ⟨b, hb⟩ | ⟨hstatus, -⟩
    · refine ⟨d, t, s', hproduces, hhands, fun hr => ?_⟩
      rw [hreached hproduces hhands hr] at h
      cases h
    · rw [(hbreaks hb).1] at h
      cases h
    · rw [h] at hstatus
      simp at hstatus
  · rintro ⟨d, t, s', hproduces, hhands, hr⟩
    exact hsuccess hproduces hhands hr
  · rcases hends with ⟨d, t, s', hproduces, hhands⟩ | ⟨b, hb⟩ | ⟨hstatus, -⟩
    · by_cases hr : Reaches o d
      · simp [hreached hproduces hhands hr]
      · simp [hsuccess hproduces hhands hr]
    · simp [(hbreaks hb).1]
    · exact List.mem_cons_of_mem _ (List.mem_cons_of_mem _ hstatus)
  · rcases hends with ⟨d, t, s', hproduces, hhands⟩ | ⟨b', hb⟩ | ⟨-, hnone⟩
    · rw [(handed d t s' hproduces hhands).1] at h
      cases h
    · rw [(hbreaks hb).2] at h
      exact Option.some.inj h ▸ hb
    · rw [hnone] at h
      cases h

end Render

namespace Program

open SourceReport.Action

/-- The program accepts its options and comes to the command `render`, in the session `s` and with
the options `o`. -/
inductive Begins (r : Request) : Session → RenderOptions → Prop where
  | intro {p : ProgramOptions} {words : List Text} {s : Session} {o : RenderOptions}
      (hoptions : ProgramOptions.grammar.read r.tree r.words {} = .ok (p, "render" :: words))
      (hsession : (setUp p r.isTerminal).outcome (start r) = (.ok (), s))
      (hwords : Render.grammar.readAll s.tree words {} = .ok o) : Begins r s o

/-- **A program that comes to the command** runs it, and nothing else. -/
theorem run_of_begins {r : Request} {s : Session} {o : RenderOptions} (h : Begins r s o) :
    run r = s.run (Render.command o) := by
  obtain @⟨p, words, _, _, hoptions, hsession, hwords⟩ := h
  have hread : (readOptions r.words).outcome (start r) = (.ok (p, "render" :: words), start r) := by
    have hsame : (readOptions r.words).outcome (start r) =
      (Session.readWords .program
        (ProgramOptions.grammar.read r.tree r.words {})).outcome (start r) := rfl
    rw [hsame, hoptions]
    rfl
  have hdispatch : (dispatch .render Render.grammar {} Render.command words).outcome s =
      (Render.command o).outcome s := by
    have hsame : (dispatch .render Render.grammar {} Render.command words).outcome s =
      (Session.readWords .render (Render.grammar.readAll s.tree words {}) >>=
        Render.command).outcome s := rfl
    rw [hsame, hwords]
    rfl
  have haction : (action r).outcome (start r) = (Render.command o).outcome s := by
    rw [action, outcome_bind hread, ← hdispatch]
    exact outcome_bind hsession
  unfold run Session.run
  unfold outcome at haction
  rw [haction]

/-- **What the outcome of the program tells** if it comes to the command. -/
theorem render_status {r : Request} {s : Session} {o : RenderOptions} (h : Begins r s o) :
    Render.Tells s o (run r) := by
  rw [run_of_begins h]
  exact Render.tells_run s o

/-- A document with an error, which is what the caller asked to fail on. -/
theorem render_status_reached :
    let r : Request := {
      words := ["render", "d.json", "--fail-on", "error"]
      env := {}
      tree := ⟨Path.ofText "/w", [(["w", "d.json"], .file (Text.utf8
        "\x7b\"diagnostics\": [\x7b\"severity\": \"error\"\x7d]\x7d"))]⟩ }
    ∃ s o, Begins r s o ∧ (run r).status = 1 ∧
      ∃ d t s', Render.Produces s o d t ∧ Render.Hands s o t s' ∧ Render.Reaches o d ∧
        (run r).console.out = s'.console.out := by
  intro r
  have hoptions : ProgramOptions.grammar.read r.tree r.words {} =
    .ok ({}, "render" :: ["d.json", "--fail-on", "error"]) := rfl
  have hbegins : Begins r _ _ := .intro hoptions rfl rfl
  have hrun : (run r).status = 1 ∧ (run r).breakdown = none := by decide +kernel
  have htells := render_status hbegins
  rcases htells.reached.1 hrun.1 with ⟨d, t, s', hproduces, hhands, hreaches⟩ | ⟨b, hb⟩
  · exact ⟨_, _, hbegins, hrun.1, d, t, s', hproduces, hhands, hreaches,
      (htells.handed d t s' hproduces hhands).2.1⟩
  · have hbroken := (htells.breakdown b).2 hb
    rw [hrun.2] at hbroken
    cases hbroken

/-- **A surrogate in a message** gives the status 1, although the caller asked to fail on
nothing. -/
theorem not_render_status :
    let r : Request := {
      words := ["render", "d.json", "--no-config"]
      env := {}
      tree := ⟨Path.ofText "/w", [(["w", "d.json"], .file (Text.utf8
        "\x7b\"diagnostics\": [\x7b\"message\": \"\\ud800\"\x7d]\x7d"))]⟩ }
    ∃ s o, Begins r s o ∧ (∀ d, ¬ Render.Reaches o d) ∧
      (run r).status = 1 ∧ (run r).breakdown = some .encoding := by
  intro r
  have hoptions : ProgramOptions.grammar.read r.tree r.words {} =
    .ok ({}, "render" :: ["d.json", "--no-config"]) := rfl
  have hbegins : Begins r _ _ := .intro hoptions rfl rfl
  have hbroken : (run r).status = 1 ∧ (run r).breakdown = some .encoding := by decide +kernel
  refine ⟨_, _, hbegins, ?_, hbroken⟩
  rintro d ⟨threshold, hlevel, -⟩
  cases hlevel

end Program

end SourceReport
