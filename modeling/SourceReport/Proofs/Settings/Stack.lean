import SourceReport.Proofs.Settings.Setting

/-!
# Stacks of drafts

Drafts are laid over each other one by one: the usual settings, those of a file, those of the
command line. A `Stack` is any way to do so. However it is put together, only the order of its
layers counts, and in it each setting for itself: the topmost layer that says something decides.

Results:
* `Draft.above_assoc`, `Draft.above_empty`, `Draft.empty_above`: layers combine like lists do.
* `Stack.given?_draft`: what a stack says of a setting.
* `Stack.draft_eq_of_layers_eq`: only the order of the layers counts.
* `Draft.layers_combine`: the laws of layers and what settings come of a stack.
-/

namespace SourceReport

namespace Draft

/-- Three layers make one draft, whichever two of them are put together first. -/
theorem above_assoc (top middle base : Draft) :
    top.above (middle.above base) = (top.above middle).above base := by
  refine ext_given? (fun s => ?_) (List.append_assoc ..) (List.append_assoc ..)
  simp only [given?_above, Option.or_assoc]

@[simp] theorem above_empty (d : Draft) : d.above {} = d :=
  ext_given? (fun s => by simp) (List.nil_append _) (List.nil_append _)

@[simp] theorem empty_above (d : Draft) : Draft.above {} d = d :=
  ext_given? (fun s => by simp) (List.append_nil _) (List.append_nil _)

/-- What the topmost of the layers says that speaks of a setting; the layers are listed from the
lowest one on. -/
def topmost? (layers : List Draft) (s : Setting) : Option s.Given :=
  (layers.filterMap (·.given? s)).getLast?

theorem topmost?_append (lower upper : List Draft) (s : Setting) :
    topmost? (lower ++ upper) s = (topmost? upper s).or (topmost? lower s) := by
  rw [topmost?, List.filterMap_append, List.getLast?_append]
  rfl

theorem topmost?_singleton (d : Draft) (s : Setting) : topmost? [d] s = d.given? s := by
  unfold topmost?
  cases h : d.given? s <;> simp [h]

end Draft

/-- Drafts over each other. -/
inductive Stack where
  | empty
  | layer (d : Draft)
  | above (upper lower : Stack)

namespace Stack

/-- The layers, the lowest one first. -/
def layers : Stack → List Draft
  | empty => []
  | layer d => [d]
  | above upper lower => lower.layers ++ upper.layers

/-- The draft that the layers make. -/
def draft : Stack → Draft
  | empty => {}
  | layer d => d
  | above upper lower => upper.draft.above lower.draft

/-- **What a stack says of a setting** is what its topmost layer says that speaks of it. -/
theorem given?_draft (stack : Stack) (s : Setting) :
    stack.draft.given? s = Draft.topmost? stack.layers s := by
  induction stack with
  | empty => exact Draft.given?_empty s
  | layer d => exact (Draft.topmost?_singleton d s).symm
  | above upper lower ihupper ihlower =>
    rw [draft, layers, Draft.given?_above, Draft.topmost?_append, ihupper, ihlower]

theorem files_draft (stack : Stack) : stack.draft.files = stack.layers.flatMap (·.files) := by
  induction stack with
  | empty => rfl
  | layer d => simp [draft, layers]
  | above upper lower ihupper ihlower =>
    rw [layers, List.flatMap_append, ← ihupper, ← ihlower]
    rfl

theorem warnings_draft (stack : Stack) :
    stack.draft.warnings = stack.layers.flatMap (·.warnings) := by
  induction stack with
  | empty => rfl
  | layer d => simp [draft, layers]
  | above upper lower ihupper ihlower =>
    rw [layers, List.flatMap_append, ← ihupper, ← ihlower]
    rfl

/-- **Only the order of the layers counts**, not which of them were put together first. -/
theorem draft_eq_of_layers_eq {stack other : Stack} (h : stack.layers = other.layers) :
    stack.draft = other.draft := by
  refine Draft.ext_given? (fun s => ?_) ?_ ?_
  · rw [given?_draft, given?_draft, h]
  · rw [files_draft, files_draft, h]
  · rw [warnings_draft, warnings_draft, h]

end Stack

namespace Draft

/-- **Layers combine.** Laying drafts over each other is associative, the empty draft changes
nothing below or above another one, of two drafts the upper one decides on every setting of which
it says something, and the files and warnings of both are listed. Settings taken for a draft settle
to themselves. Settled, a stack has for every setting what its topmost layer says that speaks of it,
a negative amount as zero, and the usual value if none does. -/
theorem layers_combine :
    (∀ top middle base : Draft,
      top.above (middle.above base) = (top.above middle).above base) ∧
    (∀ d : Draft, d.above {} = d ∧ Draft.above {} d = d) ∧
    (∀ upper lower : Draft,
      (∀ s, (upper.above lower).given? s = (upper.given? s).or (lower.given? s)) ∧
      (upper.above lower).files = lower.files ++ upper.files ∧
      (upper.above lower).warnings = lower.warnings ++ upper.warnings) ∧
    (∀ k : Settings, k.draft.settle = k) ∧
    ∀ stack : Stack,
      (∀ s, stack.draft.settle.value s =
        ((topmost? stack.layers s).map s.settled).getD (({} : Settings).value s)) ∧
      stack.draft.settle.files = stack.layers.flatMap (·.files) ∧
      stack.draft.settle.warnings = stack.layers.flatMap (·.warnings) := by
  refine ⟨above_assoc, fun d => ⟨above_empty d, empty_above d⟩,
    fun upper lower => ⟨given?_above upper lower, rfl, rfl⟩, Settings.settle_draft,
    fun stack => ⟨fun s => ?_, stack.files_draft, stack.warnings_draft⟩⟩
  rw [Settings.value_settle, Stack.given?_draft]

/-- Three layers: an amount below zero counts like any other, and so does a truth value that is
false. -/
example :
    let base : Draft := { tabWidth := some 8, compact := some true }
    let middle : Draft := { tabWidth := some (-3) }
    let top : Draft := { compact := some false }
    ((top.above middle).above base).settle = { tabWidth := 0 } := rfl

end Draft

end SourceReport
