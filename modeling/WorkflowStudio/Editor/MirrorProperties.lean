import WorkflowStudio.Editor.Events
import WorkflowStudio.Editor.WellFormedProperties
import WorkflowStudio.Editor.UndoProperties

/-! The events that the core emits leave the adapter as its operations are
described, and the mirror equal to a full recomputation from the graph. -/

set_option autoImplicit false

namespace WorkflowStudio.Editor

open Lib

variable {registry : Registry} {adapter next : WorkflowAdapter}

/-!
## Events and operations
-/

namespace AdapterOperation

/-- The operation of the adapter, without its events. -/
def effect (registry : Registry) (adapter : WorkflowAdapter) : AdapterOperation → WorkflowAdapter
  | .addNode type position => (adapter.addNode registry type position).1
  | .addNodeWithId type position forcedId config =>
      adapter.addNodeWithId registry type position forcedId config
  | .removeNode nodeId => adapter.removeNode nodeId
  | .updatePosition nodeId position => adapter.updatePosition nodeId position
  | .setNodeConfig nodeId config => adapter.setNodeConfig nodeId config
  | .setControlValue nodeId controlKey value => adapter.setControlValue nodeId controlKey value
  | .setNodeMeta nodeId metaPatch => adapter.setNodeMeta nodeId metaPatch
  | .setNodeLabel nodeId label => adapter.setNodeLabel nodeId label
  | .addConnection sourceId sourceHandle targetId targetHandle =>
      (adapter.addConnection registry sourceId sourceHandle targetId targetHandle).1
  | .removeConnection connectionId => adapter.removeConnection connectionId
  | .fromJSON data => (WorkflowAdapter.fromJSON registry data).1
  | .clear => adapter.clear

end AdapterOperation

/-- The events before the last one do not matter, unless the last is a move. -/
theorem after_removeNode (nodeId : String) :
    adapter.after (adapter.editor.removeNodeEmitting nodeId) = adapter.removeNode nodeId := by
  unfold WorkflowEditor.removeNodeEmitting WorkflowAdapter.removeNode WorkflowEditor.removeNode
  cases adapter.editor.nodes.get? nodeId with
  | none => rfl
  | some node =>
      simp only [WorkflowAdapter.after, List.foldl_append, List.foldl_cons, List.foldl_nil]
      rfl

theorem after_modifyNode (nodeId : String) (change : Node → Node) {event : EditorEvent}
    (still : event ≠ .onNodeMove) :
    adapter.after (adapter.editor.modifyNodeEmitting nodeId change event) =
      match adapter.editor.nodes.get? nodeId with
      | none => adapter
      | some _ => .synced (adapter.editor.modifyNode nodeId change) := by
  unfold WorkflowEditor.modifyNodeEmitting
  cases adapter.editor.nodes.get? nodeId with
  | none => rfl
  | some node =>
      cases event with
      | onNodeMove => exact absurd rfl still
      | _ => rfl

theorem after_addConnection (sourceId sourceHandle targetId targetHandle : String) :
    adapter.after (adapter.editor.addConnectionEmitting registry sourceId sourceHandle targetId
      targetHandle) =
      (adapter.addConnection registry sourceId sourceHandle targetId targetHandle).1 := by
  unfold WorkflowEditor.addConnectionEmitting WorkflowAdapter.addConnection
    WorkflowEditor.addConnection
  by_cases accepted : adapter.editor.canConnect registry sourceId sourceHandle targetId targetHandle
  · simp only [accepted, ↓reduceIte]
    rfl
  · simp only [accepted, Bool.false_eq_true, ↓reduceIte]
    rfl

theorem after_removeConnection (connectionId : String) :
    adapter.after (adapter.editor.removeConnectionEmitting connectionId) =
      adapter.removeConnection connectionId := by
  unfold WorkflowEditor.removeConnectionEmitting WorkflowAdapter.removeConnection
  split <;> rfl

/-- An operation that returns leaves the adapter as the operation without its
events does, whatever the mirror showed before. -/
theorem AdapterOperation.apply_ok {operation : AdapterOperation}
    (returned : operation.apply registry adapter = .ok next) :
    next = operation.effect registry adapter := by
  cases operation with
  | addNode type position =>
      simp only [apply] at returned
      simp only [effect, WorkflowAdapter.addNode]
      cases registered : registry type with
      | none =>
          simp only [registered] at returned
          cases returned
          rfl
      | some nodeClass =>
          simp only [registered] at returned
          cases returned
          rfl
  | addNodeWithId type position forcedId config =>
      simp only [apply] at returned
      simp only [effect, WorkflowAdapter.addNodeWithId]
      cases registered : registry type with
      | none =>
          simp only [registered] at returned
          cases returned
          rfl
      | some nodeClass =>
          simp only [registered] at returned
          split at returned
          · cases returned
          · cases returned
            rfl
  | removeNode nodeId =>
      simp only [apply, after_removeNode] at returned
      cases returned
      rfl
  | updatePosition nodeId position =>
      simp only [apply] at returned
      simp only [effect, WorkflowAdapter.updatePosition]
      cases found : adapter.editor.nodes.get? nodeId with
      | none =>
          simp only [found] at returned
          cases returned
          rfl
      | some node =>
          simp only [found] at returned
          by_cases stays : node.position = position
          · simp only [stays, ↓reduceIte] at returned
            cases returned
            simp only [stays, ↓reduceIte]
          · simp only [stays, ↓reduceIte, WorkflowEditor.updateNodePositionEmitting,
              WorkflowEditor.modifyNodeEmitting, found] at returned
            cases returned
            simp only [stays, ↓reduceIte]
            rfl
  | setNodeConfig nodeId config =>
      simp only [apply] at returned
      simp only [effect, WorkflowAdapter.setNodeConfig]
      cases found : adapter.editor.nodes.get? nodeId with
      | none =>
          simp only [found] at returned
          cases returned
          rfl
      | some node =>
          simp only [found] at returned
          split at returned
          · cases returned
          · cases returned
            rfl
  | setControlValue nodeId controlKey value =>
      simp only [apply] at returned
      cases found : adapter.editor.nodes.get? nodeId with
      | none =>
          simp only [found] at returned
          cases returned
          simp only [effect, WorkflowAdapter.setControlValue, WorkflowEditor.modifyNode, found]
      | some node =>
          simp only [found] at returned
          split at returned
          · cases returned
          · cases returned
            rfl
  | setNodeMeta nodeId metaPatch =>
      simp only [apply, WorkflowEditor.setNodeMetaEmitting] at returned
      rw [after_modifyNode nodeId _ (by decide)] at returned
      cases returned
      rfl
  | setNodeLabel nodeId label =>
      simp only [apply, WorkflowEditor.setNodeLabelEmitting] at returned
      rw [after_modifyNode nodeId _ (by decide)] at returned
      simp only [effect, WorkflowAdapter.setNodeLabel]
      cases found : adapter.editor.nodes.get? nodeId with
      | none =>
          simp only [found] at returned
          cases returned
          rfl
      | some node =>
          simp only [found] at returned
          cases returned
          rfl
  | addConnection sourceId sourceHandle targetId targetHandle =>
      simp only [apply, after_addConnection] at returned
      cases returned
      rfl
  | removeConnection connectionId =>
      simp only [apply, after_removeConnection] at returned
      cases returned
      rfl
  | fromJSON data =>
      simp only [apply, WorkflowEditor.fromJSONEmitting] at returned
      simp only [effect, WorkflowAdapter.fromJSON]
      cases loaded : WorkflowEditor.fromJSON registry data with
      | mk editor error =>
          simp only [loaded] at returned
          cases error with
          | some error => cases returned
          | none =>
              cases returned
              rfl
  | clear =>
      cases returned
      rfl

/-!
## The mirror
-/

/-- The mirror is what recomputing it would give. The nodes are stored under
their own identifiers, by which a move finds the mirrored node. -/
structure WorkflowAdapter.Mirrored (registry : Registry) (adapter : WorkflowAdapter) : Prop where
  formed : adapter.WellFormed registry
  shown : adapter.ui = adapter.editor.mirror

namespace WorkflowAdapter.Mirrored

theorem empty : WorkflowAdapter.empty.Mirrored registry := ⟨.empty, rfl⟩

theorem addNode_shown (mirrored : adapter.Mirrored registry) (type : String)
    (position : Position) :
    (adapter.addNode registry type position).1.ui =
      (adapter.addNode registry type position).1.editor.mirror := by
  unfold WorkflowAdapter.addNode
  cases registry type with
  | none => exact mirrored.shown
  | some nodeClass => rfl

theorem addNodeWithId_shown (mirrored : adapter.Mirrored registry) (type : String)
    (position : Position) (forcedId : String) (config : Config) :
    (adapter.addNodeWithId registry type position forcedId config).ui =
      (adapter.addNodeWithId registry type position forcedId config).editor.mirror := by
  unfold WorkflowAdapter.addNodeWithId
  cases registry type with
  | none => exact mirrored.shown
  | some nodeClass => rfl

/-- The operations that rebuild the mirror whenever they find the node. -/
theorem found_shown (mirrored : adapter.Mirrored registry) (nodeId : String)
    (after : WorkflowEditor) :
    (match adapter.editor.nodes.get? nodeId with
      | none => adapter
      | some _ => synced after).ui =
    (match adapter.editor.nodes.get? nodeId with
      | none => adapter
      | some _ => synced after).editor.mirror := by
  cases adapter.editor.nodes.get? nodeId with
  | none => exact mirrored.shown
  | some node => rfl

theorem addConnection_shown (mirrored : adapter.Mirrored registry)
    (sourceId sourceHandle targetId targetHandle : String) :
    (adapter.addConnection registry sourceId sourceHandle targetId targetHandle).1.ui =
      (adapter.addConnection registry sourceId sourceHandle targetId
        targetHandle).1.editor.mirror := by
  unfold WorkflowAdapter.addConnection
  split
  · exact mirrored.shown
  · rfl

theorem removeConnection_shown (mirrored : adapter.Mirrored registry) (connectionId : String) :
    (adapter.removeConnection connectionId).ui =
      (adapter.removeConnection connectionId).editor.mirror := by
  unfold WorkflowAdapter.removeConnection
  split
  · rfl
  · exact mirrored.shown

theorem fromJSON_shown {data : Snapshot}
    (loads : (WorkflowAdapter.fromJSON registry data).2 = none) :
    (WorkflowAdapter.fromJSON registry data).1.ui =
      (WorkflowAdapter.fromJSON registry data).1.editor.mirror := by
  unfold WorkflowAdapter.fromJSON at loads ⊢
  cases loaded : WorkflowEditor.fromJSON registry data with
  | mk editor error =>
      cases error with
      | none => rfl
      | some error =>
          simp only [loaded] at loads
          cases loads

theorem apply (mirrored : adapter.Mirrored registry) {operation : AdapterOperation}
    (returned : operation.apply registry adapter = .ok next) : next.Mirrored registry := by
  have effected := AdapterOperation.apply_ok returned
  have formed := mirrored.formed
  subst next
  cases operation with
  | addNode type position => exact ⟨formed.addNode _ _, mirrored.addNode_shown _ _⟩
  | addNodeWithId type position forcedId config =>
      exact ⟨formed.addNodeWithId _ _ _ _, mirrored.addNodeWithId_shown _ _ _ _⟩
  | removeNode nodeId => exact ⟨formed.removeNode _, mirrored.found_shown _ _⟩
  | updatePosition nodeId position =>
      exact ⟨formed.updatePosition _ _, formed.mirror_updatePosition mirrored.shown _ _⟩
  | setNodeConfig nodeId config => exact ⟨formed.setNodeConfig _ _, mirrored.found_shown _ _⟩
  | setControlValue nodeId controlKey value =>
      exact ⟨formed.setControlValue _ _ _, formed.mirror_setControlValue mirrored.shown _ _ _⟩
  | setNodeMeta nodeId metaPatch => exact ⟨formed.setNodeMeta _ _, mirrored.found_shown _ _⟩
  | setNodeLabel nodeId label => exact ⟨formed.setNodeLabel _ _, mirrored.found_shown _ _⟩
  | addConnection sourceId sourceHandle targetId targetHandle =>
      exact ⟨formed.addConnection _ _ _ _, mirrored.addConnection_shown _ _ _ _⟩
  | removeConnection connectionId =>
      exact ⟨formed.removeConnection _, mirrored.removeConnection_shown _⟩
  | fromJSON data =>
      refine ⟨.fromJSON registry data, fromJSON_shown ?_⟩
      simp only [AdapterOperation.apply, WorkflowEditor.fromJSONEmitting] at returned
      unfold WorkflowAdapter.fromJSON
      cases loaded : WorkflowEditor.fromJSON registry data with
      | mk editor error =>
          simp only [loaded] at returned
          cases error with
          | none => rfl
          | some error => cases returned
  | clear => exact .empty

theorem foldlM (mirrored : adapter.Mirrored registry) (operations : List AdapterOperation)
    (returned : operations.foldlM (AdapterOperation.apply registry) adapter = .ok next) :
    next.Mirrored registry := by
  induction operations generalizing adapter with
  | nil =>
      cases returned
      exact mirrored
  | cons operation rest ih =>
      rw [List.foldlM_cons] at returned
      cases first : operation.apply registry adapter with
      | error error =>
          rw [first] at returned
          cases returned
      | ok middle =>
          rw [first] at returned
          exact ih (mirrored.apply first) returned

end WorkflowAdapter.Mirrored

/-- After any operations that return, the mirrored nodes and connections are
those that a full recomputation gives. -/
theorem mirror_refines_graph (registry : Registry) (operations : List AdapterOperation)
    (adapter : WorkflowAdapter) (returned : AdapterOperation.run registry operations = .ok adapter) :
    adapter.ui.nodes = adapter.editor.nodes.values.map Node.toUi ∧
      adapter.ui.connections = adapter.editor.connections.map Connection.toUi := by
  have mirrored := WorkflowAdapter.Mirrored.empty.foldlM operations returned
  rw [mirrored.shown]
  exact ⟨rfl, rfl⟩

def draggedNodes : List AdapterOperation := [
  .addNode "noop" ⟨0, 0⟩,
  .addNode "noop" ⟨200, 0⟩,
  .addConnection "n_1" "result" "n_2" "data",
  .updatePosition "n_2" ⟨240, 40⟩,
  .setControlValue "n_2" "url" (.str ""),
  .removeNode "n_1"]

theorem mirror_refines_graph_draggedNodes :
    ∃ adapter, AdapterOperation.run noopRegistry draggedNodes = .ok adapter ∧
      adapter.ui.nodes = adapter.editor.nodes.values.map Node.toUi ∧
      adapter.ui.connections = adapter.editor.connections.map Connection.toUi :=
  ⟨_, rfl, mirror_refines_graph noopRegistry draggedNodes _ rfl⟩

end WorkflowStudio.Editor
