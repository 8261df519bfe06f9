import SourceReport.Proofs.Output.Renderer

/-!
# Reports one after the other

A renderer goes from one diagnostic to the next and keeps its output, the style that is set there
and the styles of the labels. Nothing of this shows in the next report: every row leaves the output
without a style, and the styles of labels are replaced before they are used. So what is written of
several diagnostics is what is written of each of them by a renderer of its own.

* `Renderer.renderAll` renders diagnostics in order, rich ones with an empty row between them.
* `Transcript` is what is left of rendering: the text, and the issues or a fault.
  `Transcript.chain` joins several up to the first fault.

Results:
* `Sink.feed_after`: what a sink has written before makes no difference.
* `Sink.settles_rows`: rows leave a sink without a style.
* `Renderer.transcript_renderNext`: a renderer joins the transcripts of fresh ones.
* `Renderer.renderAll_independent`: so do reports of several diagnostics, which are those that are
  drawn at once.
-/

namespace SourceReport

namespace Renderer

variable {σ ε : Type} (send : σ → Event → Except ε σ)

/-- Renders diagnostics after others, whose issues are given. -/
def renderNext (issues : List Issue) (r : Renderer σ) :
    List Diagnostic → Renderer σ × Except (RenderFault ε) (List Issue)
  | [] => (r, .ok issues)
  | d :: ds =>
    match r.emit send (Report.separation r.settings) with
    | (r, some e) => (r, .error (.write e))
    | (r, none) =>
      match r.render send d with
      | (r, .ok more) => renderNext (issues ++ more) r ds
      | (r, .error e) => (r, .error e)

/-- Renders diagnostics; answers the issues of all. -/
def renderAll (r : Renderer σ) :
    List Diagnostic → Renderer σ × Except (RenderFault ε) (List Issue)
  | [] => (r, .ok [])
  | d :: ds =>
    match r.render send d with
    | (r, .ok issues) => renderNext send issues r ds
    | (r, .error e) => (r, .error e)

end Renderer

/-! ## Transcripts -/

/-- What is left of rendering to a sink: the text, and the issues or a fault. -/
structure Transcript where
  written : Text
  result : Except (RenderFault Ansi.UnknownColor) (List Issue)

namespace Transcript

/-- Both transcripts with a text between them, or the first one if it has a fault. -/
def join (between : Text) (first second : Transcript) : Transcript :=
  match first.result with
  | .ok issues => ⟨first.written ++ between ++ second.written, second.result.map (issues ++ ·)⟩
  | .error _ => first

/-- Transcripts in order with a text between them, up to the first fault. -/
def chain (between : Text) : List Transcript → Transcript
  | [] => ⟨[], .ok []⟩
  | first :: rest => rest.foldl (join between) first

/-- The text and the issues, unless there is a fault. -/
def answer (o : Transcript) : Except (RenderFault Ansi.UnknownColor) (Text × List Issue) :=
  o.result.map (o.written, ·)

/-- A transcript after a text. -/
def after (w : Text) (o : Transcript) : Transcript := ⟨w ++ o.written, o.result⟩

theorem foldl_join_after (between w : Text) (first : Transcript) (os : List Transcript) :
    os.foldl (join between) (first.after w) = (os.foldl (join between) first).after w := by
  induction os generalizing first with
  | nil => rfl
  | cons o os ih =>
    have hjoin : join between (first.after w) o = (join between first o).after w := by
      obtain ⟨written, result⟩ := first
      cases result with
      | ok issues => simp [join, after]
      | error e => rfl
    rw [List.foldl_cons, List.foldl_cons, hjoin, ih]

/-- Nothing comes after a fault. -/
theorem foldl_join_of_error (between w : Text) (e : RenderFault Ansi.UnknownColor)
    (os : List Transcript) : os.foldl (join between) ⟨w, .error e⟩ = ⟨w, .error e⟩ := by
  induction os with
  | nil => rfl
  | cons o os ih => exact ih

end Transcript

/-- Elements after the first one each come with a separator in front. -/
theorem intercalate_cons {α : Type} (between xs : List α) (xss : List (List α)) :
    between.intercalate (xs :: xss) = xs ++ xss.flatMap (between ++ ·) := by
  induction xss generalizing xs with
  | nil => rw [List.intercalate_singleton, List.flatMap_nil, List.append_nil]
  | cons ys xss ih =>
    rw [List.intercalate_cons_cons, ih, List.flatMap_cons, List.append_assoc, List.append_assoc]

namespace Transcript

theorem answer_foldl_join (between : Text) (first : Transcript) (os : List Transcript) :
    (os.foldl (join between) first).answer = do
      let x ← first.answer
      let xs ← os.mapM answer
      return (x.1 ++ xs.flatMap (between ++ ·.1), x.2 ++ xs.flatMap (·.2)) := by
  induction os generalizing first with
  | nil =>
    obtain ⟨written, result⟩ := first
    cases result <;> simp [answer, Except.map, bind, Except.bind, pure, Except.pure]
  | cons o os ih =>
    rw [List.foldl_cons, ih, List.mapM_cons]
    obtain ⟨written, result⟩ := first
    obtain ⟨next, more⟩ := o
    cases result with
    | error e => rfl
    | ok issues =>
      cases more with
      | error e => rfl
      | ok more =>
        dsimp only [join, answer, Except.map, bind, Except.bind]
        cases os.mapM answer with
        | error e => rfl
        | ok xs => simp [pure, Except.pure]

/-- **Joined transcripts** have joined texts and issues, if none of them has a fault. -/
theorem answer_chain (between : Text) (os : List Transcript) :
    (chain between os).answer = (os.mapM answer).map fun xs =>
      (between.intercalate (xs.map (·.1)), xs.flatMap (·.2)) := by
  cases os with
  | nil => rfl
  | cons first os =>
    rw [chain, answer_foldl_join, List.mapM_cons]
    cases first.answer with
    | error e => rfl
    | ok x =>
      dsimp only [bind, Except.bind]
      cases os.mapM answer with
      | error e => rfl
      | ok xs =>
        refine congrArg Except.ok (Prod.ext ?_ rfl)
        dsimp only
        rw [List.map_cons, intercalate_cons, List.flatMap_map]

end Transcript

/-! ## Sinks between rows -/

section Settles

variable {σ ε : Type} {send : σ → Event → Except ε σ}

/-- Events that are all taken leave an output in a condition that it was in before. -/
def Settles (send : σ → Event → Except ε σ) (P : σ → Prop) (events : List Event) : Prop :=
  ∀ out out', P out → feed send out events = (out', none) → P out'

theorem Settles.append {P : σ → Prop} {front back : List Event} (hfront : Settles send P front)
    (hback : Settles send P back) : Settles send P (front ++ back) := by
  intro out out' hout h
  rw [feed_append] at h
  cases hfeed : feed send out front with
  | mk mid fault =>
    rw [hfeed] at h
    cases fault with
    | none => exact hback mid out' (hfront out mid hout hfeed) h
    | some e => cases h

theorem settles_flatMap {α : Type} {P : σ → Prop} {f : α → List Event} {xs : List α}
    (h : ∀ x ∈ xs, Settles send P (f x)) : Settles send P (xs.flatMap f) := by
  induction xs with
  | nil =>
    intro out out' hout hfeed
    obtain rfl := (Prod.mk.inj hfeed).1
    exact hout
  | cons x xs ih =>
    rw [List.flatMap_cons]
    exact (h x List.mem_cons_self).append (ih fun y hy => h y (List.mem_cons_of_mem x hy))

end Settles

namespace Sink

/-- A sink of a format in which no style is set. -/
structure IsPlain (format : Format) (s : Sink) : Prop where
  format : s.format = format
  style : s.style = .plain

/-- A sink with a text in front of what it has written. -/
def after (w : Text) (s : Sink) : Sink := { s with written := w ++ s.written }

/-- **What a sink has written before** makes no difference. -/
theorem feed_after (w : Text) (s : Sink) (events : List Event) :
    feed send (s.after w) events =
      ((feed send s events).1.after w, (feed send s events).2) := by
  induction events generalizing s with
  | nil => rfl
  | cons e events ih =>
    have hsend : (s.after w).send e = (s.send e).map (after w) := by
      cases e with
      | style style => rfl
      | reset => rfl
      | text t =>
        rw [send, send]
        unfold after
        dsimp only
        cases s.format.write s.style t with
        | error e => rfl
        | ok out => simp [Except.map]
    rw [feed, feed, hsend]
    cases s.send e with
    | ok next => exact ih next
    | error fault => rfl

variable {format : Format} (color : Bool)

theorem settles_text (t : Text) : Settles send (IsPlain format) [.text t] := by
  intro s s' hs h
  rw [feed, send, hs.style] at h
  cases hwrite : s.format.write .plain t with
  | error e =>
    rw [hwrite] at h
    cases h
  | ok out =>
    rw [hwrite] at h
    obtain rfl := (Prod.mk.inj h).1
    exact ⟨hs.format, rfl⟩

theorem settles_run (r : Run) : Settles send (IsPlain format) (r.events color) := by
  unfold Run.events
  cases r.style.filter fun s => color && !s.isPlain with
  | none => exact settles_text r.text
  | some style =>
    intro s s' hs h
    have hset : feed send s [.style style, .text r.text, .reset] =
        feed send { s with style := style } [.text r.text, .reset] := rfl
    dsimp only at h
    rw [hset, feed, send] at h
    dsimp only at h
    cases hwrite : s.format.write style r.text with
    | error e =>
      rw [hwrite] at h
      cases h
    | ok out =>
      rw [hwrite] at h
      obtain rfl := (Prod.mk.inj h).1
      exact ⟨hs.format, rfl⟩

/-- **Rows leave a sink** without a style. -/
theorem settles_rows (rows : List Row) :
    Settles send (IsPlain format) (rows.flatMap (Row.events color)) :=
  settles_flatMap fun _ _ =>
    (settles_flatMap fun run _ => settles_run color run).append (settles_text "\n")

end Sink

/-! ## Fresh renderers -/

namespace Renderer

variable {settings : Settings} {registry : Registry} {format : Format}

/-- A renderer to a sink that has not rendered anything. -/
def fresh (settings : Settings) (registry : Registry) (format : Format) : Renderer Sink :=
  ⟨settings, registry, [], { format := format }⟩

/-- What a renderer to a sink answers, with all that it has written. -/
def transcript (x : Renderer Sink × Except (RenderFault Ansi.UnknownColor) (List Issue)) :
    Transcript :=
  ⟨x.1.out.written, x.2⟩

/-- The transcript of a diagnostic by itself. -/
def alone (settings : Settings) (registry : Registry) (format : Format) (d : Diagnostic) :
    Transcript :=
  transcript ((fresh settings registry format).render Sink.send d)

/-- What stands between two reports: an empty row, if they are rich. -/
def between (settings : Settings) : Text :=
  match settings.detail with
  | .rich => "\n"
  | _ => []

/-- A renderer to a sink in which no style is set. It may keep the styles of any labels, and
anything may have been written. -/
structure IsReady (settings : Settings) (registry : Registry) (format : Format)
    (r : Renderer Sink) : Prop where
  settings : r.settings = settings
  registry : r.registry = registry
  out : r.out.IsPlain format

namespace IsReady

variable {r : Renderer Sink} (h : r.IsReady settings registry format)

include h

theorem exists_eq :
    ∃ styles, r = ⟨settings, registry, styles, ⟨format, .plain, r.out.written⟩⟩ := by
  obtain ⟨settings', registry', styles, format', style, written⟩ := r
  obtain ⟨rfl, rfl, rfl, rfl⟩ := h
  exact ⟨styles, rfl⟩

/-- **A renderer that is ready** renders as a fresh one, after what it has written. -/
theorem transcript_render (d : Diagnostic) :
    transcript (r.render Sink.send d) =
      (alone settings registry format d).after r.out.written := by
  obtain ⟨styles, heq⟩ := h.exists_eq
  generalize r.out.written = w at heq ⊢
  obtain rfl := heq
  have hfeed := Sink.feed_after w { format := format }
    ((Report.ofDiagnostic settings registry d).events settings.color)
  have hsink : Sink.after w { format := format } = ⟨format, .plain, w⟩ := by simp [Sink.after]
  unfold alone
  rw [render_eq, render_eq]
  dsimp only [fresh]
  rw [← hsink, hfeed]
  cases feed Sink.send { format := format }
      ((Report.ofDiagnostic settings registry d).events settings.color) with
  | mk out fault => cases fault <;> rfl

/-- It is ready again if there is no fault. -/
theorem render {r' : Renderer Sink} {d : Diagnostic} {issues : List Issue}
    (hrender : r.render Sink.send d = (r', .ok issues)) : r'.IsReady settings registry format := by
  rw [render_eq] at hrender
  cases hfeed : feed Sink.send r.out
      ((Report.ofDiagnostic r.settings r.registry d).events r.settings.color) with
  | mk out fault =>
    rw [hfeed] at hrender
    cases fault with
    | none =>
      obtain rfl := (Prod.mk.inj hrender).1
      exact ⟨h.settings, h.registry, Sink.settles_rows r.settings.color _ _ _ h.out hfeed⟩
    | some e => cases (Prod.mk.inj hrender).2

/-- So it is between two reports. -/
theorem emit_separation :
    ∃ r', r.emit Sink.send (Report.separation r.settings) = (r', none) ∧
      r'.IsReady settings registry format ∧
      r'.out.written = r.out.written ++ between settings := by
  obtain ⟨styles, heq⟩ := h.exists_eq
  generalize r.out.written = w at heq ⊢
  obtain rfl := heq
  refine ⟨⟨settings, registry, styles, ⟨format, .plain, w ++ between settings⟩⟩, ?_,
    ⟨rfl, rfl, rfl, rfl⟩, rfl⟩
  unfold emit Report.separation between
  cases settings.detail with
  | rich => cases format <;> rfl
  | medium =>
    rw [List.append_nil]
    rfl
  | short =>
    rw [List.append_nil]
    rfl

/-- **A renderer joins** the transcripts of fresh ones. -/
theorem transcript_renderNext (issues : List Issue) (ds : List Diagnostic) :
    transcript (r.renderNext Sink.send issues ds) =
      (ds.map (alone settings registry format)).foldl (Transcript.join (between settings))
        ⟨r.out.written, .ok issues⟩ := by
  induction ds generalizing r issues with
  | nil => rfl
  | cons d ds ih =>
    obtain ⟨mid, hemit, hmid, hwritten⟩ := h.emit_separation
    have hone := hmid.transcript_render d
    have hjoin : Transcript.join (between settings) ⟨r.out.written, .ok issues⟩
        (alone settings registry format d) =
          ⟨mid.out.written ++ (alone settings registry format d).written,
            (alone settings registry format d).result.map (issues ++ ·)⟩ := by
      rw [hwritten]
      rfl
    rw [List.map_cons, List.foldl_cons, hjoin, renderNext, hemit]
    dsimp only
    cases hrender : mid.render Sink.send d with
    | mk next result =>
      rw [hrender] at hone
      obtain ⟨htext, hresult⟩ := Transcript.mk.inj hone
      rw [← htext, ← hresult]
      cases result with
      | ok more => exact ih (hmid.render hrender) (issues ++ more)
      | error e => exact (Transcript.foldl_join_of_error _ _ _ _).symm

/-- **A renderer that is ready** renders diagnostics as fresh ones do, after what it has written. -/
theorem transcript_renderAll (ds : List Diagnostic) :
    transcript (r.renderAll Sink.send ds) =
      (Transcript.chain (between settings) (ds.map (alone settings registry format))).after
        r.out.written := by
  cases ds with
  | nil => simp [renderAll, transcript, Transcript.chain, Transcript.after]
  | cons d ds =>
    have hone := h.transcript_render d
    rw [List.map_cons, Transcript.chain, ← Transcript.foldl_join_after, ← hone, renderAll]
    cases hrender : r.render Sink.send d with
    | mk next result =>
      cases result with
      | ok issues => exact (h.render hrender).transcript_renderNext issues ds
      | error e => exact (Transcript.foldl_join_of_error _ _ _ _).symm

end IsReady

end Renderer

/-! ## Reports that are drawn at once -/

namespace Report

variable {settings : Settings} {registry : Registry} {format : Format}

/-- What is written of rows after others. -/
theorem write_append (front back : List Row) (issues : List Issue) (format : Format)
    (color : Bool) :
    write ⟨front ++ back, issues⟩ format color = do
      let x ← write ⟨front, issues⟩ format color
      let y ← write ⟨back, issues⟩ format color
      return x ++ y := by
  have hruns : runs ⟨front ++ back, issues⟩ = runs ⟨front, issues⟩ ++ runs ⟨back, issues⟩ :=
    List.flatMap_append
  rw [write_eq, write_eq, write_eq, pieces_eq, pieces_eq, pieces_eq, hruns, List.map_append,
    List.mapM_append]
  cases ((runs ⟨front, issues⟩).map (Run.piece color)).mapM (Piece.write format) with
  | error e => rfl
  | ok xs =>
    cases ((runs ⟨back, issues⟩).map (Run.piece color)).mapM (Piece.write format) with
    | error e => rfl
    | ok ys => exact congrArg Except.ok List.flatten_append

/-- Rows that separate reports are an empty one or none. -/
theorem write_separation (settings : Settings) (format : Format) (color : Bool) :
    write ⟨separation settings, []⟩ format color = .ok (Renderer.between settings) := by
  unfold separation Renderer.between
  cases settings.detail <;> cases format <;> rfl

/-- What is written of rows and then of reports, each after a separation. -/
theorem write_separated (settings : Settings) (front : List Row) (rest : List Report)
    (format : Format) (color : Bool) :
    write ⟨front ++ (rest.map (·.rows)).flatMap (separation settings ++ ·), []⟩ format color = do
      let x ← write ⟨front, []⟩ format color
      let xs ← rest.mapM fun r => write ⟨r.rows, []⟩ format color
      return x ++ xs.flatMap (Renderer.between settings ++ ·) := by
  induction rest generalizing front with
  | nil =>
    rw [List.map_nil, List.flatMap_nil, List.append_nil]
    cases write ⟨front, []⟩ format color with
    | error e => rfl
    | ok x => exact congrArg Except.ok (List.append_nil x).symm
  | cons r rest ih =>
    rw [List.map_cons, List.flatMap_cons, ← List.append_assoc, ih, write_append front,
      write_append (separation settings), write_separation, List.mapM_cons]
    cases write ⟨front, []⟩ format color with
    | error e => rfl
    | ok x =>
      cases write ⟨r.rows, []⟩ format color with
      | error e => rfl
      | ok y =>
        dsimp only [bind, Except.bind, pure, Except.pure]
        cases rest.mapM fun r => write ⟨r.rows, []⟩ format color with
        | error e => rfl
        | ok xs => exact congrArg Except.ok (List.append_assoc _ _ _)

/-- **Reports one after the other** are written as each by itself, with texts between them. -/
theorem write_concat (settings : Settings) (reports : List Report) (format : Format)
    (color : Bool) :
    (concat settings reports).write format color =
      (reports.mapM fun r => write ⟨r.rows, []⟩ format color).map
        (Renderer.between settings).intercalate := by
  cases reports with
  | nil => rfl
  | cons r rest =>
    have hrows : (concat settings (r :: rest)).rows =
        r.rows ++ (rest.map (·.rows)).flatMap (separation settings ++ ·) :=
      intercalate_cons _ _ _
    have hwrite : (concat settings (r :: rest)).write format color =
        write ⟨(concat settings (r :: rest)).rows, []⟩ format color := rfl
    rw [hwrite, hrows, write_separated, List.mapM_cons]
    cases write ⟨r.rows, []⟩ format color with
    | error e => rfl
    | ok x =>
      dsimp only [bind, Except.bind, pure, Except.pure]
      cases rest.mapM fun r => write ⟨r.rows, []⟩ format color with
      | error e => rfl
      | ok xs => exact congrArg Except.ok (intercalate_cons _ _ _).symm

end Report

/-- Computations in order whose values are paired with lists. -/
theorem mapM_map_pair {α β γ ε ε' : Type} (f : α → Except ε β) (g : ε → ε') (i : α → List γ)
    (xs : List α) :
    (xs.mapM fun x => ((f x).mapError g).map (·, i x)).map
        (fun ys => (ys.map (·.1), ys.flatMap (·.2))) =
      ((xs.mapM f).mapError g).map (·, xs.flatMap i) := by
  induction xs with
  | nil => rfl
  | cons x xs ih =>
    rw [List.mapM_cons, List.mapM_cons, List.flatMap_cons]
    cases f x with
    | error e => rfl
    | ok y =>
      have hstep : ∀ zs : Except ε' (List (β × List γ)),
          (zs >>= fun ys => pure ((y, i x) :: ys)).map
              (fun ys => (ys.map (·.1), ys.flatMap (·.2))) =
            (zs.map fun ys => (ys.map (·.1), ys.flatMap (·.2))).map
              fun q => (y :: q.1, i x ++ q.2) := by
        intro zs
        cases zs <;> rfl
      refine (hstep _).trans ?_
      rw [ih]
      cases xs.mapM f <;> rfl

namespace Renderer

/-- A fresh renderer answers what is written of the report. -/
theorem answer_alone (settings : Settings) (registry : Registry) (format : Format)
    (d : Diagnostic) :
    let report := Report.ofDiagnostic settings registry d
    (alone settings registry format d).answer =
      ((report.write format settings.color).mapError .write).map (·, report.issues) := by
  intro report
  unfold alone Report.write
  rw [render_eq, Sink.sendAll_eq_feed]
  dsimp only [fresh]
  cases feed Sink.send { format := format } (report.events settings.color) with
  | mk out fault => cases fault <;> rfl

/-- Fresh renderers one after the other answer what is written of the reports drawn at once. -/
theorem answer_chain_alone (settings : Settings) (registry : Registry) (format : Format)
    (ds : List Diagnostic) :
    let report := Report.ofAll settings registry ds
    (Transcript.chain (between settings) (ds.map (alone settings registry format))).answer =
      ((report.write format settings.color).mapError .write).map (·, report.issues) := by
  intro report
  -- Abbreviations for what one diagnostic adds to the text and to the issues.
  let written d := (Report.ofDiagnostic settings registry d).write format settings.color
  let issues d := (Report.ofDiagnostic settings registry d).issues
  have hissues : report.issues = ds.flatMap issues := List.flatMap_map _ _ _
  have hreport : report.write format settings.color =
      (ds.mapM written).map (between settings).intercalate := by
    refine (Report.write_concat settings _ format settings.color).trans ?_
    rw [List.mapM_map]
    rfl
  have heach : (ds.map (alone settings registry format)).mapM Transcript.answer =
      ds.mapM fun d => ((written d).mapError .write).map (·, issues d) := by
    rw [List.mapM_map]
    exact congrArg (ds.mapM ·) (funext (answer_alone settings registry format))
  have hpair : ∀ x : Except (RenderFault Ansi.UnknownColor) (List (Text × List Issue)),
      x.map (fun xs => ((between settings).intercalate (xs.map (·.1)), xs.flatMap (·.2))) =
        (x.map fun xs => (xs.map (·.1), xs.flatMap (·.2))).map fun q =>
          ((between settings).intercalate q.1, q.2) := by
    intro x
    cases x <;> rfl
  rw [Transcript.answer_chain, heach, hpair, mapM_map_pair written, hissues, hreport]
  cases ds.mapM written <;> rfl

/-- **No state leaks** from one diagnostic to the next. What is written of several diagnostics, and
the issues that are answered, are those of renderers and sinks of their own, in order, with an empty
row between rich reports and nothing between others; the first fault ends it. Neither what has been
written before nor the styles that are left of other labels make a difference, and it is what is
written of the reports drawn at once. -/
theorem renderAll_independent (settings : Settings) (registry : Registry) (format : Format)
    (ds : List Diagnostic) :
    let all := transcript ((fresh settings registry format).renderAll Sink.send ds)
    let each := ds.map fun d => transcript ((fresh settings registry format).render Sink.send d)
    let report := Report.ofAll settings registry ds
    all = .chain (between settings) each ∧
      all.answer = (each.mapM Transcript.answer).map (fun xs =>
        ((between settings).intercalate (xs.map (·.1)), xs.flatMap (·.2))) ∧
      (∀ styles written, transcript (renderAll Sink.send
        ⟨settings, registry, styles, ⟨format, .plain, written⟩⟩ ds) = all.after written) ∧
      all.answer =
        ((report.write format settings.color).mapError .write).map (·, report.issues) := by
  intro all each report
  have hready : (fresh settings registry format).IsReady settings registry format :=
    ⟨rfl, rfl, rfl, rfl⟩
  have hall : all = .chain (between settings) each := hready.transcript_renderAll ds
  have hanswer := Transcript.answer_chain (between settings) each
  refine ⟨hall, hall ▸ hanswer, fun styles written => ?_,
    hall ▸ answer_chain_alone settings registry format ds⟩
  rw [hall]
  exact IsReady.transcript_renderAll ⟨rfl, rfl, rfl, rfl⟩ ds

end Renderer

end SourceReport
