import WorkflowStudio.Editor.RedoProperties
import WorkflowStudio.Editor.MirrorProperties

/-! Undo of the whole history. A node that the history has added is discarded on
the way back, so graphs that differ in the contents of such nodes lead to the
same graph. -/

set_option autoImplicit false

namespace WorkflowStudio.Editor

open Lib Reversal

/-- The node that a command adds. -/
def Command.added : Command → Option String
  | .addNode id _ _ _ => some id
  | _ => none

/-- Equality of graphs up to the order of their lists and up to what the given
nodes hold besides their type. -/
structure WorkflowEditor.SameExcept (ids : List String) (left right : WorkflowEditor) : Prop where
  nodes : ∀ nodeId, nodeId ∉ ids → left.nodes.get? nodeId = right.nodes.get? nodeId
  types : ∀ nodeId, (left.nodes.get? nodeId).map Node.type = (right.nodes.get? nodeId).map Node.type
  connections : left.connections.Perm right.connections

/-- The same with one list of connections and one counter. -/
structure WorkflowEditor.Alike (ids : List String) (left right : WorkflowEditor) : Prop where
  nodes : ∀ nodeId, nodeId ∉ ids → left.nodes.get? nodeId = right.nodes.get? nodeId
  types : ∀ nodeId, (left.nodes.get? nodeId).map Node.type = (right.nodes.get? nodeId).map Node.type
  connections : left.connections = right.connections
  idCounter : left.idCounter = right.idCounter

namespace WorkflowEditor.SameExcept

variable {ids : List String} {first second third : WorkflowEditor}

theorem trans (left : first.SameExcept ids second) (right : second.SameExcept ids third) :
    first.SameExcept ids third where
  nodes nodeId outside := (left.nodes nodeId outside).trans (right.nodes nodeId outside)
  types nodeId := (left.types nodeId).trans (right.types nodeId)
  connections := left.connections.trans right.connections

theorem of_same (same : first.Same second) : first.SameExcept ids second where
  nodes nodeId _ := same.nodes nodeId
  types nodeId := congrArg (Option.map Node.type) (same.nodes nodeId)
  connections := same.connections

theorem same (close : first.SameExcept [] second) : first.Same second where
  nodes nodeId := close.nodes nodeId List.not_mem_nil
  connections := close.connections

theorem of_alike (alike : first.Alike ids second) : first.SameExcept ids second where
  nodes := alike.nodes
  types := alike.types
  connections := by rw [alike.connections]

end WorkflowEditor.SameExcept

/-!
## Commands on graphs that differ in some nodes
-/

section Alike

variable {registry : Registry} {ids : List String} {left right : WorkflowAdapter}

theorem WorkflowEditor.Alike.none_iff {left right : WorkflowEditor} (alike : left.Alike ids right)
    (nodeId : String) : left.nodes.get? nodeId = none ↔ right.nodes.get? nodeId = none := by
  have types := alike.types nodeId
  rw [← Option.map_eq_none_iff (f := Node.type), types, Option.map_eq_none_iff]

theorem removeNode_alike {nodeId : String} (alike : left.editor.Alike (nodeId :: ids) right.editor) :
    (left.removeNode nodeId).editor.Alike ids (right.removeNode nodeId).editor := by
  refine ⟨fun other outside => ?_, fun other => ?_, ?_, ?_⟩
  · rw [WorkflowAdapter.removeNode_nodes, WorkflowAdapter.removeNode_nodes]
    split
    · rfl
    · next different =>
        exact alike.nodes other fun member => by
          rcases List.mem_cons.mp member with here | later
          · exact different here
          · exact outside later
  · rw [WorkflowAdapter.removeNode_nodes, WorkflowAdapter.removeNode_nodes]
    split
    · rfl
    · exact alike.types other
  · cases found : left.editor.nodes.get? nodeId with
    | none =>
        have missing := (alike.none_iff nodeId).mp found
        simp only [WorkflowAdapter.removeNode, found, missing]
        exact alike.connections
    | some node =>
        cases other : right.editor.nodes.get? nodeId with
        | none =>
            rw [(alike.none_iff nodeId).mpr other] at found
            cases found
        | some shown =>
            rw [WorkflowAdapter.removeNode_connections found,
              WorkflowAdapter.removeNode_connections other, alike.connections]
  · have counter : ∀ adapter : WorkflowAdapter,
        (adapter.removeNode nodeId).editor.idCounter = adapter.editor.idCounter := by
      intro adapter
      unfold WorkflowAdapter.removeNode WorkflowEditor.removeNode
      cases adapter.editor.nodes.get? nodeId <;> rfl
    rw [counter, counter, alike.idCounter]

theorem set_alike (alike : left.editor.Alike ids right.editor) (nodeId : String) (node : Node)
    (counter : Nat) :
    WorkflowEditor.Alike ids
      { left.editor with nodes := left.editor.nodes.set nodeId node, idCounter := counter }
      { right.editor with nodes := right.editor.nodes.set nodeId node, idCounter := counter } := by
  refine ⟨fun other outside => ?_, fun other => ?_, alike.connections, rfl⟩
  · rw [OrderedMap.get?_set, OrderedMap.get?_set, alike.nodes other outside]
  · rw [OrderedMap.get?_set, OrderedMap.get?_set]
    split
    · rfl
    · exact alike.types other

theorem addNodeWithId_alike (alike : left.editor.Alike ids right.editor) (type : String)
    (position : Position) (nodeId : String) (config : Config) :
    (left.addNodeWithId registry type position nodeId config).editor.Alike ids
      (right.addNodeWithId registry type position nodeId config).editor := by
  unfold WorkflowAdapter.addNodeWithId
  cases registry type with
  | none => exact alike
  | some nodeClass =>
      dsimp only
      unfold WorkflowEditor.addNode
      split
      · rw [WorkflowEditor.nextId, alike.idCounter]
        exact set_alike alike _ _ _
      · rw [alike.idCounter]
        exact set_alike alike _ _ _

theorem updatePosition_alike (alike : left.editor.Alike ids right.editor) (nodeId : String)
    (position : Position) :
    (left.updatePosition nodeId position).editor.Alike ids
      (right.updatePosition nodeId position).editor := by
  have counter : ∀ adapter : WorkflowAdapter,
      (adapter.updatePosition nodeId position).editor.idCounter = adapter.editor.idCounter := by
    intro adapter
    unfold WorkflowAdapter.updatePosition WorkflowEditor.updateNodePosition
      WorkflowEditor.modifyNode
    cases adapter.editor.nodes.get? nodeId with
    | none => rfl
    | some node =>
        dsimp only
        split <;> rfl
  refine ⟨fun other outside => ?_, fun other => ?_, ?_, ?_⟩
  · rw [WorkflowAdapter.updatePosition_nodes, WorkflowAdapter.updatePosition_nodes]
    split
    · next here => rw [alike.nodes nodeId (here ▸ outside)]
    · exact alike.nodes other outside
  · rw [WorkflowAdapter.updatePosition_nodes, WorkflowAdapter.updatePosition_nodes]
    split
    · rw [Option.map_map, Option.map_map]
      exact alike.types nodeId
    · exact alike.types other
  · rw [WorkflowAdapter.updatePosition_connections, WorkflowAdapter.updatePosition_connections,
      alike.connections]
  · rw [counter, counter, alike.idCounter]

theorem canConnect_alike {left right : WorkflowEditor} (alike : left.Alike ids right)
    (source sourceHandle target targetHandle : String) :
    left.canConnect registry source sourceHandle target targetHandle =
      right.canConnect registry source sourceHandle target targetHandle := by
  have sourceType := alike.types source
  have targetType := alike.types target
  unfold WorkflowEditor.canConnect
  rw [alike.connections]
  cases sourceFound : left.nodes.get? source with
  | none => rw [(alike.none_iff source).mp sourceFound]
  | some sourceNode =>
      cases otherSource : right.nodes.get? source with
      | none =>
          rw [(alike.none_iff source).mpr otherSource] at sourceFound
          cases sourceFound
      | some rightSource =>
          cases targetFound : left.nodes.get? target with
          | none => rw [(alike.none_iff target).mp targetFound]
          | some targetNode =>
              cases otherTarget : right.nodes.get? target with
              | none =>
                  rw [(alike.none_iff target).mpr otherTarget] at targetFound
                  cases targetFound
              | some rightTarget =>
                  rw [sourceFound, otherSource, Option.map_some, Option.map_some,
                    Option.some.injEq] at sourceType
                  rw [targetFound, otherTarget, Option.map_some, Option.map_some,
                    Option.some.injEq] at targetType
                  simp only [WorkflowEditor.socketsMatch, sourceType, targetType]

theorem addConnection_alike (alike : left.editor.Alike ids right.editor)
    (source sourceHandle target targetHandle : String) :
    (left.addConnection registry source sourceHandle target targetHandle).1.editor.Alike ids
      (right.addConnection registry source sourceHandle target targetHandle).1.editor := by
  have counter : ∀ adapter : WorkflowAdapter,
      (adapter.addConnection registry source sourceHandle target
        targetHandle).1.editor.idCounter = adapter.editor.idCounter := by
    intro adapter
    unfold WorkflowAdapter.addConnection WorkflowEditor.addConnection
    by_cases accepted :
      adapter.editor.canConnect registry source sourceHandle target targetHandle
    · simp only [accepted, ↓reduceIte, WorkflowAdapter.synced]
    · simp only [accepted, Bool.false_eq_true, ↓reduceIte]
  refine ⟨?_, ?_, ?_, ?_⟩
  · rw [WorkflowAdapter.addConnection_nodes, WorkflowAdapter.addConnection_nodes]
    exact alike.nodes
  · rw [WorkflowAdapter.addConnection_nodes, WorkflowAdapter.addConnection_nodes]
    exact alike.types
  · rw [WorkflowAdapter.addConnection_connections, WorkflowAdapter.addConnection_connections,
      canConnect_alike alike, alike.connections]
  · rw [counter, counter, alike.idCounter]

theorem removeConnection_alike (alike : left.editor.Alike ids right.editor)
    (connectionId : String) :
    (left.removeConnection connectionId).editor.Alike ids
      (right.removeConnection connectionId).editor := by
  have counter : ∀ adapter : WorkflowAdapter,
      (adapter.removeConnection connectionId).editor.idCounter = adapter.editor.idCounter := by
    intro adapter
    unfold WorkflowAdapter.removeConnection WorkflowEditor.removeConnection
    split <;> rfl
  refine ⟨?_, ?_, ?_, ?_⟩
  · rw [WorkflowAdapter.removeConnection_nodes, WorkflowAdapter.removeConnection_nodes]
    exact alike.nodes
  · rw [WorkflowAdapter.removeConnection_nodes, WorkflowAdapter.removeConnection_nodes]
    exact alike.types
  · rw [WorkflowAdapter.removeConnection_connections,
      WorkflowAdapter.removeConnection_connections, alike.connections]
  · rw [counter, counter, alike.idCounter]

/-- What the steps of a fold keep, the fold keeps. -/
theorem foldl_alike {Item : Type} {step : WorkflowAdapter → Item → WorkflowAdapter}
    (keeps : ∀ {left right : WorkflowAdapter} (item : Item), left.editor.Alike ids right.editor →
      (step left item).editor.Alike ids (step right item).editor)
    (items : List Item) (alike : left.editor.Alike ids right.editor) :
    (items.foldl step left).editor.Alike ids (items.foldl step right).editor := by
  induction items generalizing left right with
  | nil => exact alike
  | cons item rest ih => exact ih (keeps item alike)

theorem Command.undo_alike (command : Command) (pending : List Command)
    (alike : left.editor.Alike ((command :: pending).filterMap Command.added) right.editor) :
    (command.undo registry left).editor.Alike (pending.filterMap Command.added)
      (command.undo registry right).editor := by
  cases command with
  | addNode id type position config => exact removeNode_alike alike
  | removeNode id type position config relatedConnections related =>
      have reconnects : ∀ {left right : WorkflowAdapter} (conn : UiConnection),
          left.editor.Alike (pending.filterMap Command.added) right.editor →
          (left.reconnect registry conn).editor.Alike (pending.filterMap Command.added)
            (right.reconnect registry conn).editor :=
        fun conn alike => addConnection_alike alike _ _ _ _
      exact foldl_alike reconnects relatedConnections
        (addNodeWithId_alike alike type position id config)
  | moveNode nodeId oldPosition newPosition => exact updatePosition_alike alike nodeId oldPosition
  | moveNodes nodeMoves =>
      exact foldl_alike (fun move alike => updatePosition_alike alike move.nodeId move.oldPosition)
        nodeMoves alike
  | addConnection source sourceHandle target targetHandle =>
      exact removeConnection_alike alike _
  | removeConnection conn => exact addConnection_alike alike _ _ _ _

end Alike

/-!
## Rewinding
-/

/-- Graphs that may differ in what the pending commands have added. -/
def NearFor (pending : List Command) (left right : WorkflowAdapter) : Prop :=
  left.editor.SameExcept (pending.filterMap Command.added) right.editor

theorem NearFor.of_same {pending : List Command} {left right : WorkflowAdapter}
    (same : left.editor.Same right.editor) : NearFor pending left right :=
  WorkflowEditor.SameExcept.of_same same

variable {registry : Registry}

theorem undo_nearness (registry : Registry) : Nearness (Command.undo registry) NearFor where
  refl _ adapter := .of_same (.refl adapter.editor)
  trans := WorkflowEditor.SameExcept.trans
  leads := by
    intro pending command after before leads reached close
    -- the graph reached, with the nodes as they are in the state to which it is near
    have ideal : ∃ middle : WorkflowAdapter, middle ≈ after ∧ reached.editor.Alike
        ((command :: pending).filterMap Command.added) middle.editor :=
      ⟨{ after with editor := { reached.editor with nodes := after.editor.nodes } },
        ⟨fun _ => rfl, close.connections⟩, ⟨close.nodes, close.types, rfl, rfl⟩⟩
    obtain ⟨middle, same, alike⟩ := ideal
    exact (WorkflowEditor.SameExcept.of_alike (command.undo_alike pending alike)).trans
      (.of_same (leads middle same))

/-- A change of a node that the pending commands have added. -/
theorem NearFor.edited {pending : List Command} {before after : WorkflowAdapter} {nodeId : String}
    (added : nodeId ∈ pending.filterMap Command.added)
    (others : ∀ other, other ≠ nodeId →
      after.editor.nodes.get? other = before.editor.nodes.get? other)
    (type : (after.editor.nodes.get? nodeId).map Node.type =
      (before.editor.nodes.get? nodeId).map Node.type)
    (connections : after.editor.connections = before.editor.connections) :
    NearFor pending after before where
  nodes other outside := others other fun same => outside (same ▸ added)
  types other := by
    by_cases same : other = nodeId
    · rw [same, type]
    · rw [others other same]
  connections := by rw [connections]

end WorkflowStudio.Editor
