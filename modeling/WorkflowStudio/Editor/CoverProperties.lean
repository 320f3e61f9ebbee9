import WorkflowStudio.Editor.MirrorProperties
import WorkflowStudio.Editor.PreviewIsolationProperties

/-! The graph that an open preview covers. A preview keeps it while it is open,
and shows it again when it ends with the original restored. -/

set_option autoImplicit false

namespace WorkflowStudio.Editor

open Lib

variable {registry : Registry} {adapter : WorkflowAdapter}

/-!
## The graph under a preview
-/

namespace Store

def original (registry : Registry) (store : Store) (snapshot : Option Snapshot) :
    WorkflowAdapter :=
  match snapshot with
  | some original => (WorkflowAdapter.fromJSON registry original).1
  | none => store.adapter

/-- The graph that is shown when the open preview, if any, has ended. -/
def covered (registry : Registry) (store : Store) : WorkflowAdapter :=
  if store.historyPreview.active then
    store.original registry store.historyPreview.originalSnapshot
  else if store.executionView.active then
    store.original registry store.executionView.originalSnapshot
  else store.adapter

/-- At most one preview is open, and it has kept the graph that it covers. -/
structure Previews (store : Store) : Prop where
  one : store.historyPreview.active = true → store.executionView.active = false
  history : store.historyPreview.active = true → store.historyPreview.originalSnapshot ≠ none
  execution : store.executionView.active = true → store.executionView.originalSnapshot ≠ none

variable {store : Store}

theorem covered_of_idle (idle : store.Idle) : store.covered registry = store.adapter := by
  simp only [covered, idle.1, idle.2, Bool.false_eq_true, ↓reduceIte]

theorem Previews.of_idle (idle : store.Idle) : store.Previews where
  one active := by rw [idle.1] at active; cases active
  history active := by rw [idle.1] at active; cases active
  execution active := by rw [idle.2] at active; cases active

end Store

/-- A graph that is covered and shown again is the same graph. -/
theorem reloaded_same (mirrored : adapter.Mirrored registry)
    (labelled : adapter.editor.Labelled registry) :
    (WorkflowAdapter.fromJSON registry adapter.toJSON).1.Mirrored registry ∧
      (WorkflowAdapter.fromJSON registry adapter.toJSON).1.editor.Same adapter.editor := by
  obtain ⟨counter, loaded⟩ := reloaded mirrored.formed labelled
  refine ⟨⟨.fromJSON registry _, WorkflowAdapter.Mirrored.fromJSON_shown (by rw [loaded])⟩, ?_⟩
  rw [loaded]
  exact ⟨fun _ => rfl, .refl _⟩

namespace Store

variable {store : Store}

/-- The end of a preview, if it restores the graph, shows what was covered. -/
structure Uncovers (registry : Registry) (store after : Store) : Prop where
  covered : after.covered registry = store.covered registry
  shown : after.adapter = store.covered registry ∨ after.adapter = store.adapter
  previews : after.Previews
  history : after.history = store.history
  draft : after.buildFullSnapshot.metadata = store.buildFullSnapshot.metadata

theorem endHistoryPreview_uncovers (previews : store.Previews) {restoreOriginal : Bool}
    (restores : restoreOriginal = true ∨ store.historyPreview.active = false) :
    store.Uncovers registry (store.endHistoryPreview registry restoreOriginal) ∧
      (store.executionView.active = false →
        (store.endHistoryPreview registry restoreOriginal).Idle) := by
  cases active : store.historyPreview.active with
  | false =>
      have adapter : (store.endHistoryPreview registry restoreOriginal).adapter =
          store.adapter := by
        unfold endHistoryPreview
        cases store.historyPreview.originalSnapshot with
        | none => rfl
        | some original => simp only [active, Bool.false_eq_true, false_and, ↓reduceIte]
      refine ⟨⟨?_, .inr adapter, ⟨fun opened => absurd opened Bool.false_ne_true,
        fun opened => absurd opened Bool.false_ne_true, previews.execution⟩, rfl, rfl⟩,
        fun closed => ⟨rfl, closed⟩⟩
      simp only [covered, active, adapter, Bool.false_eq_true, ↓reduceIte, original]
      rfl
  | true =>
      have closed := previews.one active
      have restore : restoreOriginal = true := by
        rcases restores with given | inactive
        · exact given
        · rw [active] at inactive; cases inactive
      have adapter : (store.endHistoryPreview registry restoreOriginal).adapter =
          store.covered registry := by
        unfold endHistoryPreview covered original
        cases found : store.historyPreview.originalSnapshot with
        | none => exact absurd found (previews.history active)
        | some original => simp only [active, restore, and_self, ↓reduceIte]
      have idle : (store.endHistoryPreview registry restoreOriginal).Idle := ⟨rfl, closed⟩
      exact ⟨⟨(covered_of_idle idle).trans adapter, .inl adapter, .of_idle idle, rfl, rfl⟩,
        fun _ => idle⟩

theorem endExecutionView_uncovers (previews : store.Previews) {restoreOriginal : Bool}
    (restores : restoreOriginal = true ∨ store.executionView.active = false) :
    store.Uncovers registry (store.endExecutionView registry restoreOriginal) ∧
      (store.historyPreview.active = false →
        (store.endExecutionView registry restoreOriginal).Idle) := by
  cases active : store.executionView.active with
  | false =>
      have adapter : (store.endExecutionView registry restoreOriginal).adapter =
          store.adapter := by
        unfold endExecutionView
        cases store.executionView.originalSnapshot with
        | none => rfl
        | some original => simp only [active, Bool.false_eq_true, false_and, ↓reduceIte]
      refine ⟨⟨?_, .inr adapter, ⟨fun _ => rfl, previews.history,
        fun opened => absurd opened Bool.false_ne_true⟩, rfl, rfl⟩, fun closed => ⟨closed, rfl⟩⟩
      simp only [covered, active, adapter, Bool.false_eq_true, ↓reduceIte, original]
      rfl
  | true =>
      have closed : store.historyPreview.active = false := by
        cases opened : store.historyPreview.active with
        | false => rfl
        | true =>
            rw [previews.one opened] at active
            cases active
      have restore : restoreOriginal = true := by
        rcases restores with given | inactive
        · exact given
        · rw [active] at inactive; cases inactive
      have adapter : (store.endExecutionView registry restoreOriginal).adapter =
          store.covered registry := by
        unfold endExecutionView covered original
        cases found : store.executionView.originalSnapshot with
        | none => exact absurd found (previews.execution active)
        | some original =>
            simp only [active, closed, restore, and_self, Bool.false_eq_true, ↓reduceIte]
      have idle : (store.endExecutionView registry restoreOriginal).Idle := ⟨closed, rfl⟩
      exact ⟨⟨(covered_of_idle idle).trans adapter, .inl adapter, .of_idle idle, rfl, rfl⟩,
        fun _ => idle⟩

/-- The start of a preview keeps the graph, which it covers. -/
structure Covers (registry : Registry) (store after : Store) (snapshot : Snapshot) : Prop where
  mirrored : (after.covered registry).Mirrored registry
  covered : (after.covered registry).editor.Same (store.covered registry).editor
  shown : after.adapter = (WorkflowAdapter.fromJSON registry snapshot).1
  previews : after.Previews
  history : after.history = store.history
  draft : after.buildFullSnapshot.metadata = store.buildFullSnapshot.metadata

section Covering

variable (previews : store.Previews) (mirrored : (store.covered registry).Mirrored registry)
  (labelled : (store.covered registry).editor.Labelled registry) (snapshot : Snapshot)

include previews mirrored labelled

theorem startHistoryPreview_covers (revisionId : Option Nat) :
    store.Covers registry (store.startHistoryPreview registry revisionId snapshot) snapshot := by
  -- an execution view is left first
  have left : ∃ middle : Store, store.Uncovers registry middle ∧
      middle.executionView.active = false ∧
      store.startHistoryPreview registry revisionId snapshot =
        middle.startHistoryPreview registry revisionId snapshot := by
    cases viewing : store.executionView.active with
    | false =>
        exact ⟨store, ⟨rfl, .inr rfl, previews, rfl, rfl⟩, viewing, rfl⟩
    | true =>
        refine ⟨_, (endExecutionView_uncovers previews (.inl rfl)).1, rfl, ?_⟩
        unfold startHistoryPreview
        rw [if_pos viewing, if_neg]
        exact Bool.false_ne_true
  obtain ⟨middle, uncovers, closed, same⟩ := left
  rw [same]
  have current : middle.startHistoryPreview registry revisionId snapshot = { middle with
      historyPreview := {
        active := true
        revisionId := revisionId
        originalSnapshot := if middle.historyPreview.active then
          middle.historyPreview.originalSnapshot else some middle.adapter.toJSON }
      flags := { middle.flags with historyPreviewActive := true, readonly := true }
      adapter := (WorkflowAdapter.fromJSON registry snapshot).1 } := by
    unfold startHistoryPreview
    rw [if_neg (by rw [closed]; exact Bool.false_ne_true)]
  rw [current]
  cases active : middle.historyPreview.active with
  | true =>
      obtain ⟨original, found⟩ := Option.ne_none_iff_exists'.mp (uncovers.previews.history active)
      have unchanged : (middle.covered registry) =
          (WorkflowAdapter.fromJSON registry original).1 := by
        simp only [Store.covered, active, ↓reduceIte, Store.original, found]
      rw [← uncovers.covered, unchanged] at mirrored
      refine ⟨?_, ?_, rfl, ⟨fun _ => closed, fun _ => ?_,
        fun opened => absurd (closed.symm.trans opened) Bool.false_ne_true⟩, uncovers.history,
        uncovers.draft⟩
      · simp only [Store.covered, ↓reduceIte, Store.original, found]
        exact mirrored
      · rw [← uncovers.covered, unchanged]
        simp only [Store.covered, ↓reduceIte, Store.original, found]
        exact .refl _
      · simp only [↓reduceIte, found]
        exact Option.some_ne_none _
  | false =>
      have graph : middle.adapter = store.covered registry :=
        (covered_of_idle ⟨active, closed⟩).symm.trans uncovers.covered
      obtain ⟨reloads, unchanged⟩ := reloaded_same mirrored labelled
      rw [graph]
      exact ⟨reloads, unchanged, rfl, ⟨fun _ => closed, fun _ => Option.some_ne_none _,
        fun opened => absurd (closed.symm.trans opened) Bool.false_ne_true⟩, uncovers.history,
        uncovers.draft⟩

theorem startExecutionView_covers (runId : Option Nat) :
    store.Covers registry (store.startExecutionView registry runId snapshot) snapshot := by
  have left : ∃ middle : Store, store.Uncovers registry middle ∧
      middle.historyPreview.active = false ∧
      store.startExecutionView registry runId snapshot =
        middle.startExecutionView registry runId snapshot := by
    cases viewing : store.historyPreview.active with
    | false =>
        exact ⟨store, ⟨rfl, .inr rfl, previews, rfl, rfl⟩, viewing, rfl⟩
    | true =>
        refine ⟨_, (endHistoryPreview_uncovers previews (.inl rfl)).1, rfl, ?_⟩
        unfold startExecutionView
        rw [if_pos viewing, if_neg]
        exact Bool.false_ne_true
  obtain ⟨middle, uncovers, closed, same⟩ := left
  rw [same]
  have current : middle.startExecutionView registry runId snapshot = { middle with
      executionView := {
        active := true
        runId := runId
        originalSnapshot := if middle.executionView.active then
          middle.executionView.originalSnapshot else some middle.adapter.toJSON }
      flags := { middle.flags with executionViewActive := true, readonly := true }
      adapter := (WorkflowAdapter.fromJSON registry snapshot).1 } := by
    unfold startExecutionView
    rw [if_neg (by rw [closed]; exact Bool.false_ne_true)]
  rw [current]
  cases active : middle.executionView.active with
  | true =>
      obtain ⟨original, found⟩ := Option.ne_none_iff_exists'.mp (uncovers.previews.execution active)
      have unchanged : (middle.covered registry) =
          (WorkflowAdapter.fromJSON registry original).1 := by
        simp only [Store.covered, closed, active, Bool.false_eq_true, ↓reduceIte, Store.original,
          found]
      rw [← uncovers.covered, unchanged] at mirrored
      refine ⟨?_, ?_, rfl, ⟨fun opened => absurd (closed.symm.trans opened) Bool.false_ne_true,
        fun opened => absurd (closed.symm.trans opened) Bool.false_ne_true, fun _ => ?_⟩,
        uncovers.history, uncovers.draft⟩
      · simp only [Store.covered, closed, Bool.false_eq_true, ↓reduceIte, Store.original, found]
        exact mirrored
      · rw [← uncovers.covered, unchanged]
        simp only [Store.covered, closed, Bool.false_eq_true, ↓reduceIte, Store.original, found]
        exact .refl _
      · simp only [↓reduceIte, found]
        exact Option.some_ne_none _
  | false =>
      have graph : middle.adapter = store.covered registry :=
        (covered_of_idle ⟨closed, active⟩).symm.trans uncovers.covered
      obtain ⟨reloads, unchanged⟩ := reloaded_same mirrored labelled
      rw [graph]
      refine ⟨?_, ?_, rfl, ⟨fun opened => absurd (closed.symm.trans opened) Bool.false_ne_true,
        fun opened => absurd (closed.symm.trans opened) Bool.false_ne_true,
        fun _ => Option.some_ne_none _⟩, uncovers.history, uncovers.draft⟩
      · simp only [Store.covered, closed, Bool.false_eq_true, ↓reduceIte, Store.original]
        exact reloads
      · simp only [Store.covered, closed, Bool.false_eq_true, ↓reduceIte, Store.original]
        exact unchanged

end Covering

end Store

/-!
## The other operations
-/

section Views

variable {store : Store}

def Operation.isPreview : Operation → Bool
  | .startHistoryPreview _ _ | .endHistoryPreview _ | .startExecutionView _ _
  | .endExecutionView _ => true
  | _ => false

/-- The other operations leave an open preview as it is. -/
theorem Operation.apply_views (registry : Registry) (store : Store) (operation : Operation)
    (plain : operation.isPreview = false) :
    (operation.apply registry store).historyPreview = store.historyPreview ∧
      (operation.apply registry store).executionView = store.executionView := by
  cases operation with
  | startHistoryPreview revisionId snapshot => cases plain
  | endHistoryPreview restoreOriginal => cases plain
  | startExecutionView runId snapshot => cases plain
  | endExecutionView restoreOriginal => cases plain
  | recordMoveNodes nodeMoves =>
      simp only [Operation.apply]
      split <;> exact ⟨rfl, rfl⟩
  | adapterAddNodeWithId type position forcedId config =>
      simp only [Operation.apply]
      split <;> exact ⟨rfl, rfl⟩
  | undo =>
      simp only [Operation.apply, Store.undo]
      split <;> exact ⟨rfl, rfl⟩
  | redo =>
      simp only [Operation.apply, Store.redo]
      split <;> exact ⟨rfl, rfl⟩
  | pinNodeData nodeId pinValue =>
      simp only [Operation.apply, Store.pinNodeData]
      split <;> exact ⟨rfl, rfl⟩
  | loadWorkflow id draft versionHash =>
      simp only [Operation.apply, Store.loadWorkflow]
      split <;> exact ⟨rfl, rfl⟩
  | saveWorkflow answer =>
      simp only [Operation.apply, Store.saveWorkflow]
      split <;> exact ⟨rfl, rfl⟩
  | _ => exact ⟨rfl, rfl⟩

theorem Operation.idle_apply (registry : Registry) (operation : Operation) (idle : store.Idle)
    (plain : operation.isPreview = false) :
    (operation.apply registry store).Idle := by
  obtain ⟨history, execution⟩ := Operation.apply_views registry store operation plain
  exact ⟨by rw [history]; exact idle.1, by rw [execution]; exact idle.2⟩

theorem Store.covered_congr {after : Store} (history : after.historyPreview = store.historyPreview)
    (execution : after.executionView = store.executionView)
    (adapter : after.adapter = store.adapter) :
    after.covered registry = store.covered registry := by
  simp only [Store.covered, Store.original, history, execution, adapter]

end Views

end WorkflowStudio.Editor
