import SourceReport.Command.Render
import SourceReport.Proofs.Command.Action
import SourceReport.Proofs.Document.Reader

/-!
# The stages of `render`

The command looks for its document, reads the settings, then the document, writes the report, hands
it over and concludes. Each stage but the one that hands the report over leaves everything as it is,
apart from the second output. What it answers depends on the files and on what the user says about
colors.

* `Render.settingsFile?` is the settings file of a run, `Render.draft?` what is read from it.
* `Render.report` is the report of a run, `Render.text?` the text of it.
* `Render.Hands` says what is left of a text that has been handed over.

Results:
* `Render.leaves_settings`, `Render.leaves_document`, `Render.leaves_deliver`,
  `Render.leaves_conclude`: what the stages answer; the lemmas beside them say how they fail.
* `Render.exists_text?`: the report of a document that was read has a text.
-/

namespace SourceReport

/-- The breakdown to which a fault of settings leads, if it leads to one. -/
def SettingsFault.breakdown? : SettingsFault → Option Breakdown
  | .refused r => some (.refused r)
  | .unwritable w => some (.refused (.digits w.cause))
  | _ => none

/-- The breakdown to which an error in a document leads, if it leads to one. -/
def DocumentError.breakdown? : DocumentError → Option Breakdown
  | .fileName e => some (.fileName e)
  | .refused r => some (.refused r)
  | _ => none

/-- How a run ends for a library error that may lead to a breakdown. -/
def LibraryError.ending (e : LibraryError) (b : Option Breakdown) : Ending :=
  (b.map .broken).getD (.failed (.of e))

namespace Render

open SourceReport.Action Session

variable {s s' : Session} {o : RenderOptions} {t : Text}

/-! ## Settings -/

/-- The settings file of a run: the one that is named, or the nearest one. -/
def settingsFile? (tree : Tree) (o : RenderOptions) : Except SettingsError (Option Path) :=
  match o.settingsFile with
  | some file => .ok (some (.ofText file))
  | none =>
    if o.usualSettings then .ok none
    else tree.discover? (tree.resolve (.ofText o.document)).parent

/-- What is read from the settings file of a run. -/
def draft? (tree : Tree) (o : RenderOptions) : Except SettingsError Draft := do
  tree.layered? (← settingsFile? tree o)

/-- The settings file that is named, if one is, is there. -/
def HasSettings (tree : Tree) (o : RenderOptions) : Prop :=
  ∀ file ∈ o.settingsFile, tree.isFile (.ofText file) = true

theorem leaves_refuseSettings {α : Type} (e : SettingsError) (s : Session) :
    (refuseSettings e : Action α).Leaves s
      (.error (LibraryError.ending (.settings e) e.fault.breakdown?)) s := by
  unfold refuseSettings
  cases hfault : e.fault with
  | unreadable fault => exact (leaves_log _ _ s).bind (leaves_throw _ s)
  | malformed syntaxError => exact (leaves_log _ _ s).bind (leaves_throw _ s)
  | refused r => exact leaves_throw _ s
  | unwritable w =>
    exact (leaves_forM (fun m => leaves_log _ m s) w.before).bind (leaves_throw _ s)

theorem leaves_ofSettings {α : Type} {x : Except SettingsError α} {a : α} (h : x = .ok a)
    (s : Session) : (ofSettings x).Leaves s (.ok a) s :=
  h ▸ leaves_pure a s

theorem leaves_ofSettings_error {α : Type} {x : Except SettingsError α} {e : SettingsError}
    (h : x = .error e) (s : Session) :
    (ofSettings x).Leaves s (.error (LibraryError.ending (.settings e) e.fault.breakdown?)) s :=
  h ▸ leaves_refuseSettings e s

/-- Looking for the settings file ends as the search for it does. -/
theorem leaves_settingsPath (hnamed : HasSettings s.tree o) {r : Except Ending (Option Path)}
    (h : (ofSettings (settingsFile? s.tree o)).Leaves s r s) : (settingsPath o).Leaves s r s := by
  refine leaves_get_bind fun _ => ?_
  unfold settingsFile? at h
  cases hfile : o.settingsFile with
  | some file =>
    have hfound : s.tree.isFile (.ofText file) = true := hnamed file hfile
    rw [hfile] at h
    simp only [noted, hfound, if_true]
    exact h
  | none =>
    rw [hfile] at h
    dsimp only at h ⊢
    split
    · next husual =>
      rw [if_pos husual] at h
      exact h
    · next husual =>
      rw [if_neg husual] at h
      exact h

theorem leaves_settingsPath_missing (h : ¬ HasSettings s.tree o) :
    ∃ message, (settingsPath o).Leaves s (.error (.failed ⟨.settings, message⟩)) s := by
  unfold HasSettings at h
  cases hfile : o.settingsFile with
  | none =>
    rw [hfile] at h
    exact absurd (fun _ hmem => nomatch hmem) h
  | some file =>
    have hmissing : s.tree.isFile (.ofText file) = false := by
      refine Bool.eq_false_iff.2 fun hfound => h fun other hmem => ?_
      rw [hfile] at hmem
      exact Option.some.inj hmem ▸ hfound
    refine ⟨"Config file not found: " ++ file, leaves_get_bind fun _ => ?_⟩
    simp only [hfile, noted, hmissing]
    exact leaves_fail _ _ s

theorem leaves_logSettings (path : Path) (draft : Draft) (s : Session) :
    (logSettings path draft).Leaves s (.ok ⟨⟩) s := by
  unfold logSettings
  have hwarnings := leaves_forM (fun m => leaves_log LogLevel.warning m s) draft.warnings
  split
  · exact (leaves_log _ _ s).bind hwarnings
  · exact (leaves_pure _ s).bind hwarnings

/-- **The settings of a run** are those of its file below those of the command line. -/
theorem leaves_settings (hnamed : HasSettings s.tree o) {draft : Draft}
    (h : draft? s.tree o = .ok draft) :
    (settings o).Leaves s (.ok ((overrides o).above draft)) s := by
  obtain ⟨path, hpath, hdraft⟩ := bind_eq_ok_iff.1 h
  refine (leaves_settingsPath hnamed (leaves_ofSettings hpath s)).bind ?_
  refine (leaves_option_forM (fun _ => leaves_log _ _ s) path).bind ?_
  refine leaves_get_bind fun _ => ?_
  refine (leaves_ofSettings hdraft s).bind ?_
  refine (leaves_option_forM (fun p => leaves_logSettings p draft s) path).bind ?_
  exact leaves_pure _ s

theorem leaves_settings_error (hnamed : HasSettings s.tree o) {e : SettingsError}
    (h : draft? s.tree o = .error e) :
    (settings o).Leaves s (.error (LibraryError.ending (.settings e) e.fault.breakdown?)) s := by
  unfold draft? at h
  cases hpath : settingsFile? s.tree o with
  | error e' =>
    rw [hpath] at h
    obtain rfl := Except.error.inj h
    exact (leaves_settingsPath hnamed (leaves_ofSettings_error hpath s)).bind_error
  | ok path =>
    rw [hpath] at h
    refine (leaves_settingsPath hnamed (leaves_ofSettings hpath s)).bind ?_
    refine (leaves_option_forM (fun _ => leaves_log _ _ s) path).bind ?_
    refine leaves_get_bind fun _ => ?_
    exact (leaves_ofSettings_error h s).bind_error

theorem leaves_settings_missing (h : ¬ HasSettings s.tree o) :
    ∃ message, (settings o).Leaves s (.error (.failed ⟨.settings, message⟩)) s := by
  obtain ⟨message, h⟩ := leaves_settingsPath_missing h
  exact ⟨message, h.bind_error⟩

/-! ## The document -/

/-- What comes of the document of a run. -/
def loading (tree : Tree) (o : RenderOptions) : Loading Document :=
  Document.ofFile tree (.ofText o.document)

/-- **The document of a run** with the warnings about it. -/
theorem leaves_document {d : Document} (h : (loading s.tree o).outcome = .ok d) :
    (document o).Leaves s (.ok (d, (loading s.tree o).warnings)) s := by
  refine leaves_get_bind fun _ => ?_
  refine (leaves_forM (fun m => leaves_log _ m s) _).bind ?_
  split
  · next d' hd' =>
    obtain rfl : d = d' := Except.ok.inj (h.symm.trans hd')
    exact (leaves_log _ _ s).bind (leaves_pure _ s)
  · next e he => cases h.symm.trans he

theorem leaves_document_error {e : DocumentError} (h : (loading s.tree o).outcome = .error e) :
    (document o).Leaves s (.error (LibraryError.ending (.document e) e.breakdown?)) s := by
  refine leaves_get_bind fun _ => ?_
  refine (leaves_forM (fun m => leaves_log _ m s) _).bind ?_
  split
  · next d hd => cases h.symm.trans hd
  · next e' he' =>
    obtain rfl : e = e' := Except.error.inj (h.symm.trans he')
    refine (leaves_option_forM (fun m => leaves_log _ m s) _).bind ?_
    cases e <;> exact leaves_throw _ s

/-! ## The report -/

/-- The settings with which a report is written. -/
def reportSettings (s : Session) (o : RenderOptions) (draft : Draft) : Settings :=
  let draft := (overrides o).above draft
  { draft with color := some (isColored s o draft) }.settle

/-- The report on a document. -/
def report (s : Session) (o : RenderOptions) (draft : Draft) (d : Document) : Report :=
  .ofAll (reportSettings s o draft) d.registry d.diagnostics

/-- The report on a document in its format. -/
def text? (s : Session) (o : RenderOptions) (draft : Draft) (d : Document) :
    Except Ansi.UnknownColor Text :=
  write (o.format.getD .text) (isColored s o ((overrides o).above draft)) (report s o draft d)

/-- **The report on a document that was read** has a text: all colors in it are known. -/
theorem exists_text? {draft : Draft} (hdraft : draft? s.tree o = .ok draft) {d : Document}
    (hdoc : (loading s.tree o).outcome = .ok d) : ∃ t, text? s o draft d = .ok t := by
  have htheme : (reportSettings s o draft).theme.IsValid := by
    obtain ⟨path, -, hlayered⟩ := bind_eq_ok_iff.1 hdraft
    exact (Tree.isRead_layered? hlayered).isValid_settle
  have hfit : ∀ x ∈ d.diagnostics, x.IsFit d.registry := by
    unfold loading Document.ofFile at hdoc
    split at hdoc
    · cases hdoc
    · exact Document.isFit_of_ofText hdoc
  have hwrite := Report.exists_write_ofAll htheme hfit
  unfold text? write
  cases o.format.getD .text with
  | text => exact hwrite _ _
  | html => exact hwrite _ _
  | svg =>
    obtain ⟨t, ht⟩ := hwrite .html (isColored s o ((overrides o).above draft))
    exact ⟨_, congrArg (Except.map (Svg.wrap {})) ht⟩

/-! ## Handing over -/

/-- The session after a text has been handed over: it is on the first output, or in a file. A text
with a surrogate cannot be handed over. -/
inductive Hands (s : Session) (o : RenderOptions) (t : Text) : Session → Prop where
  | console (houtput : o.output = none) (htext : t.loneSurrogate? = none) :
      Hands s o t { s with console := s.console.print t false }
  | file {file : Text} {tree : Tree} (houtput : o.output = some file)
      (htext : t.loneSurrogate? = none)
      (hwrite : s.tree.write? (.ofText file) t.utf8 = .ok tree) :
      Hands s o t { s with tree := tree }

/-- Writes bytes to a file. -/
def save (file : Text) (bytes : List UInt8) : Action Unit := do
  match (← get).tree.write? (.ofText file) bytes with
  | .ok tree => modify fun s => { s with tree := tree }
  | .error fault =>
    fail .io ("Cannot write " ++ file ++ ": " ++ fault.message (.ofText file))

theorem writeFile_eq (file t : Text) :
    writeFile file t =
      if t.loneSurrogate?.isSome then do
        save file []
        throw (.broken .encoding)
      else save file t.utf8 := rfl

theorem leaves_save {file : Text} {bytes : List UInt8} {tree : Tree}
    (h : s.tree.write? (.ofText file) bytes = .ok tree) :
    (save file bytes).Leaves s (.ok ()) { s with tree := tree } := by
  refine leaves_get_bind fun _ => ?_
  simp only [noted, h]
  exact leaves_modify fun before => ⟨before, rfl⟩

theorem exists_leaves_save_error {file : Text} {bytes : List UInt8}
    (h : ∀ tree, s.tree.write? (.ofText file) bytes ≠ .ok tree) :
    ∃ message, (save file bytes).Leaves s (.error (.failed ⟨.io, message⟩)) s := by
  cases hwrite : s.tree.write? (.ofText file) bytes with
  | ok tree => exact absurd hwrite (h tree)
  | error fault =>
    refine ⟨"Cannot write " ++ file ++ ": " ++ fault.message (.ofText file),
      leaves_get_bind fun _ => ?_⟩
    simp only [noted, hwrite]
    exact leaves_fail _ _ s

/-- **A text without surrogates** is handed over. -/
theorem leaves_deliver (h : Hands s o t s') : (deliver o t).Leaves s (.ok ()) s' := by
  unfold deliver
  cases h with
  | console houtput htext =>
    rw [houtput]
    unfold print
    rw [htext]
    exact leaves_modify fun before => ⟨before, rfl⟩
  | file houtput htext hwrite =>
    rw [houtput]
    dsimp only
    rw [writeFile_eq, htext]
    exact (leaves_save hwrite).bind (leaves_log _ _ _)

/-- A text with a surrogate breaks the run off, after its file has been emptied. -/
theorem exists_leaves_deliver_broken (htext : t.loneSurrogate?.isSome = true)
    (hwrite : ∀ file ∈ o.output, ∃ tree, s.tree.write? (.ofText file) [] = .ok tree) :
    ∃ s', (deliver o t).Leaves s (.error (.broken .encoding)) s' := by
  unfold deliver
  cases houtput : o.output with
  | none =>
    unfold print
    rw [if_pos htext]
    exact ⟨s, leaves_throw _ s⟩
  | some file =>
    obtain ⟨tree, hempty⟩ := hwrite file houtput
    dsimp only
    rw [writeFile_eq, if_pos htext]
    exact ⟨_, ((leaves_save hempty).bind (leaves_throw _ _)).bind_error⟩

/-- A file that cannot be written ends the run. -/
theorem exists_leaves_deliver_failed {file : Text} (houtput : o.output = some file)
    (hwrite : ∀ bytes tree, s.tree.write? (.ofText file) bytes ≠ .ok tree) :
    ∃ message, (deliver o t).Leaves s (.error (.failed ⟨.io, message⟩)) s := by
  unfold deliver
  rw [houtput]
  dsimp only
  rw [writeFile_eq]
  split
  · obtain ⟨message, h⟩ := exists_leaves_save_error (hwrite [])
    exact ⟨message, h.bind_error.bind_error⟩
  · obtain ⟨message, h⟩ := exists_leaves_save_error (hwrite t.utf8)
    exact ⟨message, h.bind_error⟩

/-! ## The end of a run -/

theorem leaves_warnOf (messages : List Text) (s : Session) :
    (warnOf messages).Leaves s (.ok ()) s := by
  refine leaves_get_bind fun _ => ?_
  split
  · exact leaves_forM (fun m => leaves_warn _ s) messages
  · exact leaves_pure _ s

theorem exists_leaves_countOf (tally : Tally) (l : Level) (s : Session) :
    ∃ parts, (countOf tally l).Leaves s (.ok parts) s := by
  unfold countOf
  split
  · exact ⟨[], leaves_pure _ s⟩
  · have hstyled : ∀ t : Text, ∃ u,
        s.console.styled { foreground := some (.named l.colorName) } t = .ok u := by
      intro t
      unfold Console.styled
      split
      · cases l <;> exact ⟨_, rfl⟩
      · exact ⟨t, rfl⟩
    obtain ⟨u, hu⟩ := hstyled (Text.ofNat (tally.count l) ++ " " ++ l.name)
    have hleaves : (styled { foreground := some (.named l.colorName) }
        (Text.ofNat (tally.count l) ++ " " ++ l.name)).Leaves s (.ok u) s := by
      refine leaves_get_bind fun before => ?_
      have hsame : (s.noted before).console.styled { foreground := some (.named l.colorName) }
        (Text.ofNat (tally.count l) ++ " " ++ l.name) = .ok u := hu
      rw [hsame]
      exact leaves_pure _ s
    exact ⟨[u], hleaves.bind (leaves_pure _ s)⟩

theorem leaves_summarize (tally : Tally) (s : Session) :
    (summarize tally).Leaves s (.ok ()) s := by
  refine leaves_get_bind fun _ => ?_
  split
  · obtain ⟨parts, hparts⟩ := exists_leaves_mapM (exists_leaves_countOf tally · s) Level.all
    exact hparts.bind (leaves_warn _ s)
  · exact leaves_pure _ s

/-- The answer of a run that has handed its report over. -/
def answer (o : RenderOptions) (d : Document) : Status :=
  if fails o d.diagnostics then .thresholdReached else .success

theorem leaves_conclude (o : RenderOptions) (d : Document) (s : Session) :
    (conclude o d.diagnostics).Leaves s (.ok (answer o d)) s := by
  unfold conclude answer
  split
  · exact (leaves_option_forM (fun l => leaves_log _ _ s) o.failOn).bind (leaves_pure _ s)
  · exact leaves_pure _ s

end Render

end SourceReport
