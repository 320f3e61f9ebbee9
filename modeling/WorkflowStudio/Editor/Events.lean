import WorkflowStudio.Editor.WorkflowEditor

/-!
# Events of the editor core

Every change of the core emits events, and the adapter subscribes to them all.
Here the operations are written with the graph that each event sees, so that
the mirror is what the subscription makes of the events.
-/

set_option autoImplicit false

namespace WorkflowStudio.Editor

open Lib

inductive EditorEvent where
  | onNodeAdd
  | onNodeRemove
  | onNodeMove
  | onConnectionAdd
  | onConnectionRemove
  | metaChange
  | labelChange
  | load
  | clear
  deriving DecidableEq

/-- An event with the graph at the moment it is emitted. -/
structure Emission where
  event : EditorEvent
  editor : WorkflowEditor

/-- What an operation of the core leaves and what it emitted on the way. -/
structure Emitting where
  editor : WorkflowEditor
  emitted : List Emission

namespace WorkflowEditor

def quietly (editor : WorkflowEditor) : Emitting where
  editor := editor
  emitted := []

def emitting (editor : WorkflowEditor) (event : EditorEvent) : Emitting where
  editor := editor
  emitted := [⟨event, editor⟩]

def addNodeEmitting (editor : WorkflowEditor) (node : Node) (position : Position) : Emitting :=
  (editor.addNode node position).emitting .onNodeAdd

/-- The connections go first, each with an event that still sees the node. -/
def removeNodeEmitting (editor : WorkflowEditor) (nodeId : String) : Emitting :=
  match editor.nodes.get? nodeId with
  | none => editor.quietly
  | some _ =>
      let removedConnections := editor.connections.filter fun conn => conn.involvesNode nodeId
      let unlinked := { editor with
        connections := editor.connections.filter fun conn => !conn.involvesNode nodeId }
      let removed := { unlinked with nodes := unlinked.nodes.erase nodeId }
      { editor := removed
        emitted := (removedConnections.map fun _ => ⟨.onConnectionRemove, unlinked⟩) ++
          [⟨.onNodeRemove, removed⟩] }

/-- The operations that look the node up, change it and emit one event. -/
def modifyNodeEmitting (editor : WorkflowEditor) (nodeId : String) (change : Node → Node)
    (event : EditorEvent) : Emitting :=
  match editor.nodes.get? nodeId with
  | none => editor.quietly
  | some _ => (editor.modifyNode nodeId change).emitting event

def updateNodePositionEmitting (editor : WorkflowEditor) (nodeId : String) (position : Position) :
    Emitting :=
  editor.modifyNodeEmitting nodeId (fun node => { node with position := position }) .onNodeMove

def setNodeMetaEmitting (editor : WorkflowEditor) (nodeId : String) (metaPatch : Config) :
    Emitting :=
  editor.modifyNodeEmitting nodeId
    (fun node => { node with metaFields := patchedMeta node.metaFields metaPatch }) .metaChange

def setNodeLabelEmitting (editor : WorkflowEditor) (nodeId label : String) : Emitting :=
  editor.modifyNodeEmitting nodeId (fun node => { node with label := label }) .labelChange

def addConnectionEmitting (registry : Registry) (editor : WorkflowEditor)
    (sourceId sourceHandle targetId targetHandle : String) : Emitting :=
  match editor.addConnection registry sourceId sourceHandle targetId targetHandle with
  | (unchanged, none) => unchanged.quietly
  | (connected, some _) => connected.emitting .onConnectionAdd

def removeConnectionEmitting (editor : WorkflowEditor) (connectionId : String) : Emitting :=
  if editor.connections.any fun conn => conn.id == connectionId then
    (editor.removeConnection connectionId).emitting .onConnectionRemove
  else editor.quietly

def clearEmitting (_editor : WorkflowEditor) : Emitting := empty.emitting .clear

/-- The graph is cleared first, with an event of its own. A node of an unknown
type throws before the graph is announced. -/
def fromJSONEmitting (registry : Registry) (editor : WorkflowEditor) (data : Snapshot) :
    Emitting × Option String :=
  let cleared := editor.clearEmitting
  match fromJSON registry data with
  | (partly, some error) => ({ editor := partly, emitted := cleared.emitted }, some error)
  | (loaded, none) =>
      ({ editor := loaded, emitted := cleared.emitted ++ (loaded.emitting .load).emitted }, none)

end WorkflowEditor

/-!
## The subscription
-/

/-- The adapter rebuilds the mirror at every event but a move. -/
def onChange (ui : UiState) (emission : Emission) : UiState :=
  match emission.event with
  | .onNodeMove => ui
  | _ => emission.editor.mirror

/-- The adapter after an operation of the core and the events it emitted. -/
def WorkflowAdapter.after (adapter : WorkflowAdapter) (result : Emitting) : WorkflowAdapter where
  editor := result.editor
  ui := result.emitted.foldl onChange adapter.ui

/-- The operations that the adapter offers. -/
inductive AdapterOperation where
  | addNode (type : String) (position : Position)
  | addNodeWithId (type : String) (position : Position) (forcedId : String) (config : Config)
  | removeNode (nodeId : String)
  | updatePosition (nodeId : String) (position : Position)
  | setNodeConfig (nodeId : String) (config : Config)
  | setControlValue (nodeId controlKey : String) (value : Value)
  | setNodeMeta (nodeId : String) (metaPatch : Config)
  | setNodeLabel (nodeId label : String)
  | addConnection (sourceId sourceHandle targetId targetHandle : String)
  | removeConnection (connectionId : String)
  | fromJSON (data : Snapshot)
  | clear

namespace AdapterOperation

/-- What an operation leaves when it returns, or the error that it throws. -/
def apply (registry : Registry) (adapter : WorkflowAdapter) :
    AdapterOperation → Except String WorkflowAdapter
  | .addNode type position =>
      match registry type with
      | none => .ok adapter
      | some nodeClass =>
          .ok (adapter.after (adapter.editor.addNodeEmitting (nodeClass.new type) position))
  | .addNodeWithId type position forcedId config =>
      match registry type with
      | none => .ok adapter
      | some nodeClass =>
          let node : Node := { nodeClass.new type with id := forcedId }
          if node.setConfigThrows config then .error noSetValue
          else
            let added := adapter.after
              (adapter.editor.addNodeEmitting (node.setConfig config) position)
            .ok { added with editor := { added.editor with
              idCounter := max added.editor.idCounter ((idNumber forcedId).getD 0) } }
  | .removeNode nodeId => .ok (adapter.after (adapter.editor.removeNodeEmitting nodeId))
  | .updatePosition nodeId position =>
      match adapter.editor.nodes.get? nodeId with
      | none => .ok adapter
      | some node =>
          if node.position = position then .ok adapter
          else
            let moved := adapter.after (adapter.editor.updateNodePositionEmitting nodeId position)
            .ok { moved with ui := { moved.ui with
              nodes := moved.ui.nodes.modify (moved.ui.nodes.findIdx fun shown => shown.id == nodeId)
                fun shown => { shown with position := position } } }
  | .setNodeConfig nodeId config =>
      match adapter.editor.nodes.get? nodeId with
      | none => .ok adapter
      | some node =>
          if node.setConfigThrows config then .error noSetValue
          else .ok (.synced (adapter.editor.modifyNode nodeId fun node => node.setConfig config))
  | .setControlValue nodeId controlKey value =>
      match adapter.editor.nodes.get? nodeId with
      | none => .ok adapter
      | some node =>
          if node.inherits controlKey then .error noSetValue
          else .ok (adapter.setControlValue nodeId controlKey value)
  | .setNodeMeta nodeId metaPatch =>
      .ok (adapter.after (adapter.editor.setNodeMetaEmitting nodeId metaPatch))
  | .setNodeLabel nodeId label =>
      let renamed := adapter.after (adapter.editor.setNodeLabelEmitting nodeId label)
      match adapter.editor.nodes.get? nodeId with
      | none => .ok renamed
      | some _ => .ok (.synced renamed.editor)
  | .addConnection sourceId sourceHandle targetId targetHandle =>
      .ok (adapter.after
        (adapter.editor.addConnectionEmitting registry sourceId sourceHandle targetId targetHandle))
  | .removeConnection connectionId =>
      .ok (adapter.after (adapter.editor.removeConnectionEmitting connectionId))
  | .fromJSON data =>
      match adapter.editor.fromJSONEmitting registry data with
      | (_, some error) => .error error
      | (result, none) => .ok (adapter.after result)
  | .clear => .ok (adapter.after adapter.editor.clearEmitting)

/-- A session with a new adapter, up to the first operation that throws. -/
def run (registry : Registry) (operations : List AdapterOperation) :
    Except String WorkflowAdapter :=
  operations.foldlM (apply registry) WorkflowAdapter.empty

end AdapterOperation

end WorkflowStudio.Editor
