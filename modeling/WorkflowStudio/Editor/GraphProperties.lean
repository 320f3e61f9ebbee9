import WorkflowStudio.Editor.Store

/-! What each operation of the adapter does to the graph, and that the
operations respect equality of graphs up to the order of their lists. -/

set_option autoImplicit false

namespace WorkflowStudio.Editor

open Lib

structure WorkflowEditor.Same (left right : WorkflowEditor) : Prop where
  nodes : ∀ nodeId, left.nodes.get? nodeId = right.nodes.get? nodeId
  connections : left.connections.Perm right.connections

namespace WorkflowEditor.Same

theorem refl (editor : WorkflowEditor) : editor.Same editor := ⟨fun _ => rfl, .refl _⟩

theorem symm {left right : WorkflowEditor} (same : left.Same right) : right.Same left :=
  ⟨fun nodeId => (same.nodes nodeId).symm, same.connections.symm⟩

theorem trans {first second third : WorkflowEditor} (left : first.Same second)
    (right : second.Same third) : first.Same third :=
  ⟨fun nodeId => (left.nodes nodeId).trans (right.nodes nodeId),
    left.connections.trans right.connections⟩

end WorkflowEditor.Same

@[simp] theorem Node.configured_id (node : Node) (config : Config) :
    (node.configured config).id = node.id := by
  unfold Node.configured
  split <;> rfl

@[simp] theorem Node.configured_type (node : Node) (config : Config) :
    (node.configured config).type = node.type := by
  unfold Node.configured
  split <;> rfl

/-- Adapters are compared by their graphs. -/
instance : Setoid WorkflowAdapter where
  r left right := left.editor.Same right.editor
  iseqv := {
    refl := fun adapter => .refl adapter.editor
    symm := .symm
    trans := .trans }

/-- Equality of snapshots up to the order of the two lists. -/
structure Snapshot.SameUpToOrder (left right : Snapshot) : Prop where
  nodes : left.nodes.Perm right.nodes
  connections : left.connections.Perm right.connections

theorem WorkflowEditor.Same.toJSON {left right : WorkflowEditor} (same : left.Same right) :
    left.toJSON.SameUpToOrder right.toJSON where
  nodes := ((OrderedMap.entries_perm_iff.mpr same.nodes).map Prod.snd).map Node.toJSON
  connections := same.connections.map Connection.toJSON

namespace WorkflowAdapter

/-!
## The operations
-/

section Operations

variable {registry : Registry} {adapter : WorkflowAdapter} {nodeId : String}

theorem removeNode_nodes (other : String) :
    (adapter.removeNode nodeId).editor.nodes.get? other =
      if other = nodeId then none else adapter.editor.nodes.get? other := by
  unfold removeNode WorkflowEditor.removeNode synced
  cases found : adapter.editor.nodes.get? nodeId with
  | none =>
      by_cases same : other = nodeId
      · simp only [same, ↓reduceIte, found]
      · simp only [same, ↓reduceIte]
  | some node => exact OrderedMap.get?_erase _ _ _

theorem removeNode_connections {node : Node}
    (found : adapter.editor.nodes.get? nodeId = some node) :
    (adapter.removeNode nodeId).editor.connections =
      adapter.editor.connections.filter fun conn => !conn.involvesNode nodeId := by
  simp only [removeNode, WorkflowEditor.removeNode, found, synced]

theorem updatePosition_nodes (position : Position) (other : String) :
    (adapter.updatePosition nodeId position).editor.nodes.get? other =
      if other = nodeId then
        (adapter.editor.nodes.get? nodeId).map fun node => { node with position := position }
      else adapter.editor.nodes.get? other := by
  unfold updatePosition
  cases found : adapter.editor.nodes.get? nodeId with
  | none =>
      by_cases same : other = nodeId
      · simp only [same, ↓reduceIte, found, Option.map_none]
      · simp only [same, ↓reduceIte]
  | some node =>
      by_cases stays : node.position = position
      · subst position
        by_cases same : other = nodeId
        · simp only [same, ↓reduceIte, found, Option.map_some]
        · simp only [same, ↓reduceIte]
      · simp only [stays, ↓reduceIte, WorkflowEditor.updateNodePosition,
          WorkflowEditor.modifyNode, found, OrderedMap.get?_set, Option.map_some]

theorem updatePosition_connections (position : Position) :
    (adapter.updatePosition nodeId position).editor.connections =
      adapter.editor.connections := by
  unfold updatePosition WorkflowEditor.updateNodePosition WorkflowEditor.modifyNode
  cases adapter.editor.nodes.get? nodeId with
  | none => rfl
  | some node =>
      dsimp only
      split <;> rfl

theorem addNode_of_registered {type : String} {nodeClass : NodeClass}
    (registered : registry type = some nodeClass) (position : Position) :
    adapter.addNode registry type position =
      (synced { adapter.editor with
        idCounter := adapter.editor.idCounter + 1
        nodes := adapter.editor.nodes.set adapter.editor.nextId
          { nodeClass.new type with id := adapter.editor.nextId, position := position } },
        some adapter.editor.nextId) := by
  simp only [addNode, registered, WorkflowEditor.addNode, NodeClass.new, ↓reduceIte]

theorem configure_editor (config : Config) : (adapter.configure nodeId config).1.editor =
    adapter.editor.modifyNode nodeId fun node => node.configured config := by
  unfold configure setNodeConfig WorkflowEditor.modifyNode Node.configured
  cases adapter.editor.nodes.get? nodeId with
  | none => rfl
  | some node =>
      dsimp only
      split <;> rfl

section Restored

variable {type : String} {nodeClass : NodeClass} {position : Position} {config : Config}

theorem addNodeWithId_nodes (registered : registry type = some nodeClass) (named : nodeId ≠ "")
    (other : String) :
    (adapter.addNodeWithId registry type position nodeId config).editor.nodes.get? other =
      if other = nodeId then some (Node.restored nodeClass type position nodeId config)
      else adapter.editor.nodes.get? other := by
  simp only [addNodeWithId, registered, WorkflowEditor.addNode, Node.setConfig, named, ↓reduceIte,
    synced, OrderedMap.get?_set, Node.restored]

theorem addNodeWithId_connections :
    (adapter.addNodeWithId registry type position nodeId config).editor.connections =
      adapter.editor.connections := by
  unfold addNodeWithId WorkflowEditor.addNode synced
  cases registry type with
  | none => rfl
  | some nodeClass =>
      dsimp only
      split <;> rfl

end Restored

section Connections

variable {source sourceHandle target targetHandle : String}

theorem addConnection_nodes :
    (adapter.addConnection registry source sourceHandle target targetHandle).1.editor.nodes =
      adapter.editor.nodes := by
  unfold addConnection WorkflowEditor.addConnection
  split
  · rfl
  · next editor connection added =>
      split at added
      · cases added
        rfl
      · cases added

theorem addConnection_connections :
    (adapter.addConnection registry source sourceHandle target targetHandle).1.editor.connections =
      if adapter.editor.canConnect registry source sourceHandle target targetHandle then
        adapter.editor.connections ++ [Connection.new source sourceHandle target targetHandle]
      else adapter.editor.connections := by
  unfold addConnection WorkflowEditor.addConnection
  by_cases accepted : adapter.editor.canConnect registry source sourceHandle target targetHandle
  · simp only [accepted, ↓reduceIte, synced]
  · simp only [accepted, Bool.false_eq_true, ↓reduceIte]

theorem removeConnection_nodes (connectionId : String) :
    (adapter.removeConnection connectionId).editor.nodes = adapter.editor.nodes := by
  unfold removeConnection WorkflowEditor.removeConnection synced
  split <;> rfl

theorem removeConnection_connections (connectionId : String) :
    (adapter.removeConnection connectionId).editor.connections =
      adapter.editor.connections.eraseP fun conn => conn.id == connectionId := by
  unfold removeConnection WorkflowEditor.removeConnection synced
  split
  · rfl
  · next absent =>
      symm
      apply List.eraseP_of_forall_not
      intro conn member matched
      exact absent (List.any_eq_true.mpr ⟨conn, member, matched⟩)

end Connections

end Operations

/-!
## Congruence
-/

section Congruence

variable {registry : Registry} {left right : WorkflowAdapter}

theorem canConnect_congr (same : left ≈ right) (source sourceHandle target targetHandle : String) :
    left.editor.canConnect registry source sourceHandle target targetHandle =
      right.editor.canConnect registry source sourceHandle target targetHandle := by
  have sameAny : ∀ test : Connection → Bool,
      left.editor.connections.any test = right.editor.connections.any test := by
    intro test
    rw [Bool.eq_iff_iff, List.any_eq_true, List.any_eq_true]
    constructor
    · rintro ⟨conn, member, passes⟩
      exact ⟨conn, same.connections.mem_iff.mp member, passes⟩
    · rintro ⟨conn, member, passes⟩
      exact ⟨conn, same.connections.mem_iff.mpr member, passes⟩
  simp only [WorkflowEditor.canConnect, same.nodes, sameAny]

end Congruence

end WorkflowAdapter

/-!
## Connections with one identifier
-/

theorem filter_untouched {connections : List Connection} {nodeId : String}
    (apart : ∀ conn ∈ connections, conn.involvesNode nodeId = false) :
    (connections.filter fun conn => !conn.involvesNode nodeId) = connections := by
  rw [List.filter_eq_self]
  intro conn member
  rw [apart conn member]
  rfl

def IdentifiedBy (connections : List Connection) (conn : Connection) : Prop :=
  ∀ other ∈ connections, other.id = conn.id → other = conn

theorem eraseP_eq_erase {connections : List Connection} {conn : Connection}
    (identified : IdentifiedBy connections conn) :
    (connections.eraseP fun other => other.id == conn.id) = connections.erase conn := by
  induction connections with
  | nil => rfl
  | cons first rest ih =>
      have restIdentified : IdentifiedBy rest conn := fun other member =>
        identified other (List.mem_cons_of_mem _ member)
      by_cases same : first = conn
      · subst first
        rw [List.eraseP_cons_of_pos (by simp), List.erase_cons_head]
      · have different : first.id ≠ conn.id := fun equal =>
          same (identified first List.mem_cons_self equal)
        rw [List.eraseP_cons_of_neg (by simpa using different),
          List.erase_cons_tail (by simpa using same), ih restIdentified]

end WorkflowStudio.Editor
