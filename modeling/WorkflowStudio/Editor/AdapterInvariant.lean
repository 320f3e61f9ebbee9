import WorkflowStudio.Lib.GuardedRun
import WorkflowStudio.Editor.GraphProperties

/-! The store changes the graph only through the operations of the adapter. A
property of the adapter that these keep is kept by recorded actions, by undo
and redo of any history, and by every operation that puts a new graph in place
when it holds of the new graph. -/

set_option autoImplicit false

namespace WorkflowStudio.Editor

open Lib

structure AdapterInvariant (registry : Registry) (holds : WorkflowAdapter → Prop) : Prop where
  addNode : ∀ adapter type position, holds adapter →
    holds (adapter.addNode registry type position).1
  addNodeWithId : ∀ adapter type position forcedId config, holds adapter →
    holds (adapter.addNodeWithId registry type position forcedId config)
  removeNode : ∀ adapter nodeId, holds adapter → holds (adapter.removeNode nodeId)
  updatePosition : ∀ adapter nodeId position, holds adapter →
    holds (adapter.updatePosition nodeId position)
  configure : ∀ adapter nodeId config, holds adapter →
    holds (adapter.configure nodeId config).1
  setNodeMeta : ∀ adapter nodeId metaPatch, holds adapter →
    holds (adapter.setNodeMeta nodeId metaPatch)
  setNodeLabel : ∀ adapter nodeId label, holds adapter →
    holds (adapter.setNodeLabel nodeId label)
  setControlValue : ∀ adapter nodeId controlKey value, holds adapter →
    holds (adapter.setControlValue nodeId controlKey value)
  addConnection : ∀ adapter sourceId sourceHandle targetId targetHandle, holds adapter →
    holds (adapter.addConnection registry sourceId sourceHandle targetId targetHandle).1
  removeConnection : ∀ adapter connectionId, holds adapter →
    holds (adapter.removeConnection connectionId)

/-- The snapshot that an operation loads in place of the present graph. -/
def Operation.loaded (store : Store) : Operation → Option Snapshot
  | .fromJSON snapshot | .startHistoryPreview _ snapshot | .startExecutionView _ snapshot =>
      some snapshot
  | .loadWorkflow _ draft _ => some draft.snapshot
  | .endHistoryPreview restoreOriginal =>
      if store.historyPreview.active ∧ restoreOriginal then store.historyPreview.originalSnapshot
      else none
  | .endExecutionView restoreOriginal =>
      if store.executionView.active ∧ restoreOriginal then store.executionView.originalSnapshot
      else none
  | _ => none

/-- The property holds of the graph that an operation puts in place, if any. -/
def Operation.Replaces (registry : Registry) (holds : WorkflowAdapter → Prop) (store : Store)
    (operation : Operation) : Prop :=
  (∀ snapshot, operation.loaded store = some snapshot →
    holds (WorkflowAdapter.fromJSON registry snapshot).1) ∧
  (operation = .clear → holds .empty)

namespace AdapterInvariant

variable {registry : Registry} {holds : WorkflowAdapter → Prop}
  (invariant : AdapterInvariant registry holds)

include invariant

/-!
## Commands
-/

theorem undo {adapter : WorkflowAdapter} (kept : holds adapter) (command : Command) :
    holds (command.undo registry adapter) := by
  cases command with
  | addNode id type position config => exact invariant.removeNode _ _ kept
  | removeNode id type position config relatedConnections related =>
      have reconnects : ∀ (adapter : WorkflowAdapter) conn, holds adapter →
          holds (adapter.reconnect registry conn) :=
        fun adapter conn kept => invariant.addConnection adapter _ _ _ _ kept
      exact GuardedRun.run_invariant holds reconnects
        (invariant.addNodeWithId adapter type position id config kept) relatedConnections
  | moveNode nodeId oldPosition newPosition => exact invariant.updatePosition _ _ _ kept
  | moveNodes nodeMoves =>
      have moves : ∀ (adapter : WorkflowAdapter) (move : NodeMove), holds adapter →
          holds (adapter.updatePosition move.nodeId move.oldPosition) :=
        fun adapter move kept => invariant.updatePosition adapter _ _ kept
      exact GuardedRun.run_invariant holds moves kept nodeMoves
  | addConnection source sourceHandle target targetHandle =>
      exact invariant.removeConnection _ _ kept
  | removeConnection conn => exact invariant.addConnection _ _ _ _ _ kept

theorem redo {adapter : WorkflowAdapter} (kept : holds adapter) (command : Command) :
    holds (command.redo registry adapter) := by
  cases command with
  | addNode id type position config => exact invariant.addNodeWithId _ _ _ _ _ kept
  | removeNode id type position config relatedConnections related =>
      exact invariant.removeNode _ _ kept
  | moveNode nodeId oldPosition newPosition => exact invariant.updatePosition _ _ _ kept
  | moveNodes nodeMoves =>
      have moves : ∀ (adapter : WorkflowAdapter) (move : NodeMove), holds adapter →
          holds (adapter.updatePosition move.nodeId move.newPosition) :=
        fun adapter move kept => invariant.updatePosition adapter _ _ kept
      exact GuardedRun.run_invariant holds moves kept nodeMoves
  | addConnection source sourceHandle target targetHandle =>
      exact invariant.addConnection _ _ _ _ _ kept
  | removeConnection conn => exact invariant.removeConnection _ _ kept

theorem undoAll {adapter : WorkflowAdapter} (kept : holds adapter) (commands : List Command) :
    holds (Reversal.undoAll (Command.undo registry) commands adapter) := by
  induction commands with
  | nil => exact kept
  | cons command rest ih => exact invariant.undo ih command

theorem redoAll {adapter : WorkflowAdapter} (kept : holds adapter) (commands : List Command) :
    holds (Reversal.redoAll (Command.redo registry) commands adapter) := by
  induction commands generalizing adapter with
  | nil => exact kept
  | cons command rest ih => exact ih (invariant.redo kept command)

/-!
## Recorded actions
-/

theorem addOne {adapter : WorkflowAdapter} (kept : holds adapter) (type : String)
    (position : Position) : holds (RecordedAction.addOne registry adapter type position).1 := by
  have added := invariant.addNode adapter type position kept
  unfold RecordedAction.addOne
  cases result : adapter.addNode registry type position with
  | mk after nodeId =>
      rw [result] at added
      cases nodeId <;> exact added

theorem connectOne {adapter : WorkflowAdapter} (kept : holds adapter)
    (source sourceHandle target targetHandle : String) :
    holds (RecordedAction.connectOne registry adapter source sourceHandle target
      targetHandle).1 := by
  have added := invariant.addConnection adapter source sourceHandle target targetHandle kept
  unfold RecordedAction.connectOne
  cases result : adapter.addConnection registry source sourceHandle target targetHandle with
  | mk after conn =>
      rw [result] at added
      cases conn <;> exact added

theorem addNodeAction {adapter : WorkflowAdapter} (kept : holds adapter) (type : String)
    (position : Position) :
    holds (RecordedAction.addNodeAction registry adapter type position).1 := by
  have added := invariant.addOne kept type position
  unfold RecordedAction.addNodeAction
  cases first : RecordedAction.addOne registry adapter type position with
  | mk after recorded =>
      rw [first] at added
      cases recorded with
      | none => exact added
      | some node =>
          dsimp only
          split
          · have noop := invariant.addOne added "noop" ⟨position.x + 80, position.y + 160⟩
            cases second : RecordedAction.addOne registry after "noop"
                ⟨position.x + 80, position.y + 160⟩ with
            | mk further noopRecorded =>
                rw [second] at noop
                cases noopRecorded with
                | none => exact noop
                | some noopNode =>
                    exact invariant.connectOne (invariant.connectOne noop _ _ _ _) _ _ _ _
          · exact added

theorem collectMoves {adapter : WorkflowAdapter} (kept : holds adapter)
    (updates : List (String × Position)) :
    holds (RecordedAction.collectMoves updates adapter).1 := by
  induction updates generalizing adapter with
  | nil => exact kept
  | cons update rest ih =>
      unfold RecordedAction.collectMoves
      cases adapter.getNode update.1 with
      | none => exact ih kept
      | some node =>
          dsimp only
          split
          · exact ih kept
          · exact ih (invariant.updatePosition adapter update.1 update.2 kept)

theorem performed {adapter : WorkflowAdapter} (kept : holds adapter) (action : RecordedAction) :
    holds (action.run registry adapter).1 := by
  cases action with
  | addNode type position => exact invariant.addNodeAction kept type position
  | removeNode nodeId =>
      simp only [RecordedAction.run, RecordedAction.removeNodeAction]
      cases adapter.getNode nodeId with
      | none => exact kept
      | some node => exact invariant.removeNode _ _ kept
  | addConnection source sourceHandle target targetHandle =>
      exact invariant.connectOne kept _ _ _ _
  | removeConnection connectionId =>
      simp only [RecordedAction.run, RecordedAction.removeConnectionAction]
      cases adapter.getConnection connectionId with
      | none => exact kept
      | some conn => exact invariant.removeConnection _ _ kept
  | moveNode nodeId position =>
      simp only [RecordedAction.run, RecordedAction.moveNodeAction]
      cases adapter.getNode nodeId with
      | none => exact invariant.updatePosition _ _ _ kept
      | some node =>
          dsimp only
          split
          · exact kept
          · exact invariant.updatePosition _ _ _ kept
  | moveNodes updates =>
      have moved := invariant.collectMoves kept updates.entries
      simp only [RecordedAction.run, RecordedAction.moveNodesAction]
      cases result : RecordedAction.collectMoves updates.entries adapter with
      | mk after nodeMoves =>
          rw [result] at moved
          cases nodeMoves <;> exact moved

/-!
## Operations of the store
-/

theorem apply {store : Store} {operation : Operation} (kept : holds store.adapter)
    (replaced : operation.Replaces registry holds store) :
    holds (operation.apply registry store).adapter := by
  obtain ⟨loads, clears⟩ := replaced
  cases operation with
  | perform action => exact invariant.performed kept action
  | moveNodesTransient updates => exact invariant.collectMoves kept updates.entries
  | recordMoveNodes nodeMoves =>
      simp only [Operation.apply]
      split <;> exact kept
  | setNodeConfig nodeId config => exact invariant.configure _ _ _ kept
  | setNodeMeta nodeId metaPatch => exact invariant.setNodeMeta _ _ _ kept
  | renameNode nodeId label => exact invariant.setNodeLabel _ _ _ kept
  | setControlValue nodeId controlKey value => exact invariant.setControlValue _ _ _ _ kept
  | updatePosition nodeId position => exact invariant.updatePosition _ _ _ kept
  | adapterAddNode type position => exact invariant.addNode _ _ _ kept
  | adapterAddNodeWithId type position forcedId config =>
      simp only [Operation.apply]
      split
      · exact kept
      · exact invariant.addNodeWithId _ _ _ _ _ kept
  | adapterRemoveNode nodeId => exact invariant.removeNode _ _ kept
  | adapterAddConnection source sourceHandle target targetHandle =>
      exact invariant.addConnection _ _ _ _ _ kept
  | adapterRemoveConnection connectionId => exact invariant.removeConnection _ _ kept
  | clear => exact clears rfl
  | fromJSON snapshot => exact loads _ rfl
  | beginBatch => exact kept
  | endBatch description => exact kept
  | undo =>
      simp only [Operation.apply, Store.undo]
      cases store.history.undoStack with
      | nil => exact kept
      | cons entry rest => exact invariant.undoAll kept entry.commands
  | redo =>
      simp only [Operation.apply, Store.redo]
      cases store.history.redoStack with
      | nil => exact kept
      | cons entry rest => exact invariant.redoAll kept entry.commands
  | pinNodeData nodeId pinValue =>
      simp only [Operation.apply, Store.pinNodeData]
      split <;> exact kept
  | unpinNodeData nodeId => exact kept
  | startHistoryPreview revisionId snapshot => exact loads _ rfl
  | endHistoryPreview restoreOriginal =>
      simp only [Operation.apply, Store.endHistoryPreview]
      cases found : store.historyPreview.originalSnapshot with
      | none => exact kept
      | some original =>
          dsimp only
          split
          · next restores =>
              refine loads original ?_
              simp only [Operation.loaded, restores, and_self, ↓reduceIte, found]
          · exact kept
  | startExecutionView runId snapshot => exact loads _ rfl
  | endExecutionView restoreOriginal =>
      simp only [Operation.apply, Store.endExecutionView]
      cases found : store.executionView.originalSnapshot with
      | none => exact kept
      | some original =>
          dsimp only
          split
          · next restores =>
              refine loads original ?_
              simp only [Operation.loaded, restores, and_self, ↓reduceIte, found]
          · exact kept
  | loadWorkflow id draft versionHash =>
      have loaded := loads _ rfl
      simp only [Operation.apply, Store.loadWorkflow]
      cases result : WorkflowAdapter.fromJSON registry draft.snapshot with
      | mk fresh error =>
          rw [result] at loaded
          cases error <;> exact loaded
  | saveWorkflow answer =>
      simp only [Operation.apply, Store.saveWorkflow]
      cases answer <;> exact kept

end AdapterInvariant

end WorkflowStudio.Editor
