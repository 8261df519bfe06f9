import SourceReport.Proofs.Output.Agreement
import SourceReport.Proofs.Text.Characters

/-!
# The runs of a row

Before a row is written, its runs are cleared from the back until one of them has something visible,
and that one is cut behind it. Then each run is joined to the one before it if they share a style.
Both go over the row run by run, in which empty and blank runs may stand anywhere; what they come to
is told of single characters: the row without the blanks at its end, every character in its style.

* `Run.styled` lists the characters of a run with their style, `styledText` those of runs.
* `cutBack` takes runs away from the back, `joinBehind` puts a run behind those that are joined.

Results:
* `trimRuns_eq_cutBack`, `joinRuns_eq_foldl`: clearing from the back and joining run by run.
* `styledText_trimRuns`, `styledText_joinRuns`: what is left of the characters of a row.
* `isChain_joinRuns`: no two neighbours are left in one style.
* `Report.printed_runs`: what is written of runs, and of the rows of a report.
-/

namespace SourceReport

/-! ## Characters in their style -/

/-- The characters of a run with their style. -/
def Run.styled (r : Run) : List (CodePoint × Option Style) := r.text.map (·, r.style)

/-- The characters of runs with their styles. -/
def styledText (rs : List Run) : List (CodePoint × Option Style) := rs.flatMap Run.styled

theorem styledText_cons (r : Run) (rs : List Run) :
    styledText (r :: rs) = r.styled ++ styledText rs := rfl

theorem map_fst_styledText (rs : List Run) : (styledText rs).map Prod.fst = runsText rs := by
  induction rs with
  | nil => rfl
  | cons r rs ih =>
    rw [styledText_cons, List.map_append, ih, runsText_cons, Run.styled, List.map_map]
    exact congrArg (· ++ runsText rs) (List.map_id' r.text)

theorem length_styledText (rs : List Run) : (styledText rs).length = (runsText rs).length := by
  rw [← map_fst_styledText, List.length_map]

/-! ## Clearing from the back -/

/-- Takes runs of blanks away, the last run of the row first, up to one that is cut. -/
def cutBack : List Run → List Run
  | [] => []
  | r :: before =>
    match r.text.trimEnd with
    | [] => cutBack before
    | t => { r with text := t } :: before

theorem cutBack_append_of_ne_nil {back : List Run} (h : cutBack back ≠ []) (front : List Run) :
    cutBack (back ++ front) = cutBack back ++ front := by
  induction back with
  | nil => exact absurd rfl h
  | cons r back ih =>
    rw [cutBack] at h
    rw [List.cons_append, cutBack, cutBack]
    split
    · next hr =>
      rw [hr] at h
      exact ih h
    · rfl

theorem cutBack_append_of_eq_nil {back : List Run} (h : cutBack back = []) (front : List Run) :
    cutBack (back ++ front) = cutBack front := by
  induction back with
  | nil => rfl
  | cons r back ih =>
    rw [cutBack] at h
    rw [List.cons_append, cutBack]
    split
    · next hr =>
      rw [hr] at h
      exact ih h
    · next hne =>
      split at h
      · next hr => exact absurd hr hne
      · cases h

/-- **The blanks at the end of a row** are taken away from the back. -/
theorem trimRuns_eq_cutBack (rs : List Run) : trimRuns rs = (cutBack rs.reverse).reverse := by
  induction rs with
  | nil => rfl
  | cons r rs ih =>
    rw [List.reverse_cons, trimRuns]
    cases hkept : trimRuns rs with
    | nil =>
      have hback : cutBack rs.reverse = [] := List.reverse_eq_nil_iff.1 (ih.symm.trans hkept)
      rw [cutBack_append_of_eq_nil hback, cutBack]
      cases r.text.trimEnd <;> rfl
    | cons k kept =>
      have hback : cutBack rs.reverse ≠ [] := by
        rw [← List.reverse_ne_nil_iff, ← ih, hkept]
        exact List.cons_ne_nil k kept
      rw [cutBack_append_of_ne_nil hback, List.reverse_append, ← ih, hkept]
      rfl

/-- The characters that are left of a row keep their styles. -/
theorem styledText_trimRuns_isPrefix (rs : List Run) :
    styledText (trimRuns rs) <+: styledText rs := by
  induction rs with
  | nil => exact List.prefix_rfl
  | cons r rs ih =>
    rw [styledText_cons, trimRuns]
    split
    · split
      · exact List.nil_prefix
      · next hkept =>
        rw [styledText_cons]
        refine List.IsPrefix.trans ?_ (List.prefix_append r.styled (styledText rs))
        exact (List.append_nil _).symm ▸ r.text.trimEnd_prefix.map (·, r.style)
    · rw [styledText_cons]
      exact (List.prefix_append_right_inj r.styled).2 ih

/-- **What is left of a row** without the blanks at its end: its first characters, in their
styles. -/
theorem styledText_trimRuns (rs : List Run) :
    styledText (trimRuns rs) = (styledText rs).take (runsText rs).trimEnd.length := by
  have hlength : (styledText (trimRuns rs)).length = (runsText rs).trimEnd.length := by
    rw [length_styledText, runsText_trimRuns]
  rw [← hlength]
  exact List.prefix_iff_eq_take.1 (styledText_trimRuns_isPrefix rs)

/-! ## Joining neighbours -/

/-- Puts a run behind runs that are joined: into the last one of them if they share a style. -/
def joinBehind (done : List Run) (r : Run) : List Run :=
  match done.getLast? with
  | none => [r]
  | some last =>
    if last.style = r.style then done.dropLast ++ [{ last with text := last.text ++ r.text }]
    else done ++ [r]

/-- The first run that is left has the style of the first run. -/
theorem exists_joinRuns_cons_eq (r : Run) (rs : List Run) :
    ∃ next more, joinRuns (r :: rs) = next :: more ∧ next.style = r.style := by
  rw [joinRuns]
  split
  · exact ⟨r, [], rfl, rfl⟩
  · split
    · exact ⟨_, _, rfl, rfl⟩
    · exact ⟨_, _, rfl, rfl⟩

/-- A run and its neighbour of one style are joined whatever comes behind them. -/
theorem joinRuns_join {r x : Run} (h : r.style = x.style) (rest : List Run) :
    joinRuns ({ r with text := r.text ++ x.text } :: rest) = joinRuns (r :: x :: rest) := by
  rw [joinRuns, joinRuns, joinRuns]
  cases joinRuns rest with
  | nil => exact (if_pos h).symm
  | cons next more =>
    dsimp only
    by_cases hnext : x.style = next.style
    · simp only [if_pos hnext, if_pos h, if_pos (h.trans hnext), List.append_assoc]
    · have hnext' : ¬ r.style = next.style := fun heq => hnext (h.symm.trans heq)
      simp only [if_neg hnext, if_pos h, if_neg hnext']

theorem joinRuns_cons_of_ne {r x : Run} (h : r.style ≠ x.style) (rest : List Run) :
    joinRuns (r :: x :: rest) = r :: joinRuns (x :: rest) := by
  obtain ⟨next, more, hjoined, hstyle⟩ := exists_joinRuns_cons_eq x rest
  rw [joinRuns, hjoined]
  exact if_neg fun heq => h (heq.trans hstyle)

theorem foldl_joinBehind (done : List Run) (r : Run) (rs : List Run) :
    rs.foldl joinBehind (done ++ [r]) = done ++ joinRuns (r :: rs) := by
  induction rs generalizing done r with
  | nil => rfl
  | cons x rest ih =>
    rw [List.foldl_cons, joinBehind, List.getLast?_concat, List.dropLast_concat]
    dsimp only
    split
    · next h => rw [ih, joinRuns_join h]
    · next h => rw [ih, joinRuns_cons_of_ne h, List.append_assoc, List.singleton_append]

/-- **Neighbours of one style** are joined one after the other. -/
theorem joinRuns_eq_foldl (rs : List Run) : joinRuns rs = rs.foldl joinBehind [] := by
  cases rs with
  | nil => rfl
  | cons r rs => exact (foldl_joinBehind [] r rs).symm

/-- **Joining runs** moves no character to another style. -/
theorem styledText_joinRuns (rs : List Run) : styledText (joinRuns rs) = styledText rs := by
  induction rs with
  | nil => rfl
  | cons r rs ih =>
    rw [styledText_cons, ← ih, joinRuns]
    split
    · next h => rw [h]; rfl
    · next next more h =>
      rw [h]
      split
      · next hstyle =>
        rw [styledText_cons, styledText_cons, Run.styled, Run.styled, Run.styled, List.map_append,
          hstyle, List.append_assoc]
      · rfl

/-- **No two neighbours** are left in one style. -/
theorem isChain_joinRuns (rs : List Run) : (joinRuns rs).IsChain (·.style ≠ ·.style) := by
  induction rs with
  | nil => exact List.IsChain.nil
  | cons r rs ih =>
    rw [joinRuns]
    split
    · exact List.IsChain.singleton r
    · next next more h =>
      rw [h] at ih
      split
      · next hstyle =>
        -- The run that is joined has the style of the one it takes the place of.
        cases more with
        | nil => exact List.IsChain.singleton _
        | cons y more =>
          obtain ⟨hne, hmore⟩ := List.isChain_cons_cons.1 ih
          exact List.isChain_cons_cons.2 ⟨fun heq => hne (hstyle.symm.trans heq), hmore⟩
      · next hstyle => exact List.isChain_cons_cons.2 ⟨hstyle, ih⟩

/-! ## Rows that are written -/

/-- A row whose runs hold no newline is written without one. -/
theorem Row.not_mem_written {row : Row} (h : ∀ run ∈ row.runs, ('\n' : CodePoint) ∉ run.text) :
    ('\n' : CodePoint) ∉ row.written := by
  intro hmem
  rw [written, printed, runsText_joinRuns, runsText_trimRuns] at hmem
  obtain ⟨run, hrun, hnewline⟩ := List.mem_flatMap.1 ((Text.trimEnd_prefix _).subset hmem)
  exact h run hrun hnewline

/-- **What is written of a row** ends with no blank. -/
theorem Row.isBlank_getLast?_written (row : Row) :
    ∀ c ∈ row.written.getLast?, c.isBlank = false := by
  intro c hc
  rw [written, printed, runsText_joinRuns, runsText_trimRuns] at hc
  rcases (runsText row.runs).exists_trimEnd_eq_append with hnil | ⟨a, d, hkept, hd⟩
  · rw [hnil] at hc
    cases hc
  · rw [hkept, List.getLast?_concat] at hc
    obtain rfl := Option.some.inj hc
    exact hd

namespace Report

/-- Rows without newlines are the rows of the text that is written. -/
theorem rows_flatMap_written {rows : List Row}
    (h : ∀ row ∈ rows, ∀ run ∈ row.runs, ('\n' : CodePoint) ∉ run.text) :
    Text.rows (rows.flatMap fun row => (row.written ++ "\n" : Text)) =
      rows.map Row.written ++ [[]] := by
  induction rows with
  | nil => rfl
  | cons row rows ih =>
    have hrow := Row.not_mem_written (h row List.mem_cons_self)
    have hrest := ih fun row' hrow' => h row' (List.mem_cons_of_mem row hrow')
    rw [List.flatMap_cons, List.append_assoc, List.map_cons, List.cons_append, ← hrest]
    exact List.splitOn_append_cons_self_of_not_mem hrow _

/-- **What is written of runs**: their text without the blanks at its end, every character in its
style, and no two neighbours in one style; so clearing from the back and joining run by run come to
the same. No row of a report whose runs hold no newline ends with a blank. -/
theorem printed_runs :
    (∀ rs : List Run,
      runsText (joinRuns (trimRuns rs)) = (runsText rs).trimEnd ∧
        (joinRuns (trimRuns rs)).IsChain (·.style ≠ ·.style) ∧
        styledText (joinRuns (trimRuns rs)) =
          (styledText rs).take (runsText rs).trimEnd.length ∧
        joinRuns (trimRuns rs) = (cutBack rs.reverse).reverse.foldl joinBehind []) ∧
    ∀ (r : Report) (color : Bool),
      (∀ row ∈ r.rows, ∀ run ∈ row.runs, ('\n' : CodePoint) ∉ run.text) →
        ∃ out, r.write .plain color = .ok out ∧ (r.pieces color).flatMap (·.text) = out ∧
          Text.rows out = r.rows.map Row.written ++ [[]] ∧
            ∀ line ∈ Text.rows out, ∀ c ∈ line.getLast?, c.isBlank = false := by
  refine ⟨fun rs => ⟨?_, isChain_joinRuns _, ?_, ?_⟩, fun r color h => ?_⟩
  · rw [runsText_joinRuns, runsText_trimRuns]
  · rw [styledText_joinRuns, styledText_trimRuns]
  · rw [joinRuns_eq_foldl, trimRuns_eq_cutBack]
  · have hrows : Text.rows (runsText r.runs) = r.rows.map Row.written ++ [[]] := by
      rw [runsText_runs, rows_flatMap_written h]
    refine ⟨runsText r.runs, write_plain_eq r color, (runsText_runs_eq_flatMap r color).symm, hrows,
      fun line hline => ?_⟩
    rw [hrows, List.mem_append, List.mem_map, List.mem_singleton] at hline
    rcases hline with ⟨row, -, rfl⟩ | rfl
    · exact row.isBlank_getLast?_written
    · exact fun c hc => nomatch hc

/-- Blanks inside a row stay, those at its end go with the runs that hold nothing else. -/
theorem printed_runs_blank :
    let bold : Style := { bold := true }
    let r : Report := ⟨[{ kind := .header 0, text := [⟨"a ", none⟩, ⟨"b", some bold⟩,
      ⟨"c\t", some bold⟩, ⟨" ", none⟩, ⟨"", some bold⟩] }], []⟩
    (∀ row ∈ r.rows, ∀ run ∈ row.runs, ('\n' : CodePoint) ∉ run.text) ∧
      r.write .plain true = .ok "a bc\n" ∧ Text.rows "a bc\n" = ["a bc", ""] ∧
      ∀ line ∈ Text.rows "a bc\n", ∀ c ∈ line.getLast?, c.isBlank = false := by
  intro bold r
  have hclean : ∀ row ∈ r.rows, ∀ run ∈ row.runs, ('\n' : CodePoint) ∉ run.text := by decide
  have hwrite : r.write .plain true = .ok "a bc\n" := by decide
  obtain ⟨out, hout, -, -, hlines⟩ := printed_runs.2 r true hclean
  obtain rfl : out = "a bc\n" := Except.ok.inj (hout.symm.trans hwrite)
  exact ⟨hclean, hwrite, by decide, hlines⟩

end Report

end SourceReport
