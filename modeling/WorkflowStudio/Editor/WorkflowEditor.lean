import WorkflowStudio.Editor.Node

/-!
# The editor core and its adapter

`WorkflowEditor` owns the graph. `WorkflowAdapter` wraps it, looks up the node
classes and keeps a mirror of the graph for the user interface, which every
change event but a move rebuilds.
-/

set_option autoImplicit false

namespace WorkflowStudio.Editor

open Lib

/-!
## The editor core
-/

structure WorkflowEditor where
  nodes : OrderedMap String Node
  connections : List Connection
  idCounter : Nat
  deriving DecidableEq

structure Snapshot where
  nodes : List NodeData
  connections : List ConnectionData
  deriving DecidableEq

/-- `parseInt(id.replace(/\D/g, ""), 10)`, `none` for `NaN`. -/
def idNumber (id : String) : Option Nat :=
  match id.toList.filter Char.isDigit with
  | [] => none
  | digits => some (digits.foldl (fun value digit => 10 * value + (digit.toNat - '0'.toNat)) 0)

namespace WorkflowEditor

def empty : WorkflowEditor where
  nodes := OrderedMap.empty
  connections := []
  idCounter := 0

def nextId (editor : WorkflowEditor) : String := "n_" ++ toString (editor.idCounter + 1)

/-- `addNode` with an instance; an empty identifier is replaced by a new one. -/
def addNode (editor : WorkflowEditor) (node : Node) (position : Position) : WorkflowEditor :=
  if node.id = "" then
    { editor with
      idCounter := editor.idCounter + 1
      nodes := editor.nodes.set editor.nextId
        { node with id := editor.nextId, position := position } }
  else
    { editor with nodes := editor.nodes.set node.id { node with position := position } }

def removeNode (editor : WorkflowEditor) (nodeId : String) : WorkflowEditor :=
  match editor.nodes.get? nodeId with
  | none => editor
  | some _ =>
      { editor with
        connections := editor.connections.filter fun conn => !conn.involvesNode nodeId
        nodes := editor.nodes.erase nodeId }

def modifyNode (editor : WorkflowEditor) (nodeId : String) (change : Node → Node) :
    WorkflowEditor :=
  match editor.nodes.get? nodeId with
  | none => editor
  | some node => { editor with nodes := editor.nodes.set nodeId (change node) }

def updateNodePosition (editor : WorkflowEditor) (nodeId : String) (position : Position) :
    WorkflowEditor :=
  editor.modifyNode nodeId fun node => { node with position := position }

def setNodeLabel (editor : WorkflowEditor) (nodeId label : String) : WorkflowEditor :=
  editor.modifyNode nodeId fun node => { node with label := label }

/-- The entries that spreading a value into an object literal yields. -/
def spreadEntries : Value → List (String × Value)
  | .dict entries => entries.filterMap fun entry =>
      match entry.1 with
      | .str key => some (key, entry.2)
      | _ => none
  | .list items => items.mapIdx fun index item => (toString index, item)
  | .str text => text.toList.mapIdx fun index char => (toString index, .str (String.singleton char))
  | _ => []

def spread (left right : Value) : Config :=
  OrderedMap.ofList (spreadEntries left ++ spreadEntries right)

def objectOf (config : Config) : Value :=
  .dict (config.entries.map fun entry => (.str entry.1, entry.2))

/-- One of the two mode tables of `meta.ui`, merged when the patch has it. -/
def mergeModes (key : String) (prevUi patchUi nextUi : Config) : Config :=
  match patchUi.get? key with
  | some modes =>
      if modes.scriptTruthy then
        nextUi.set key (objectOf (spread (((prevUi.get? key).getD .none).scriptOr (.dict [])) modes))
      else nextUi
  | none => nextUi

def patchedMeta (prev patch : Config) : Config :=
  let merged := prev.merge patch
  match patch.get? "ui" with
  | some patchUi =>
      if patchUi.scriptTruthy then
        let prevUi := OrderedMap.ofList (spreadEntries (((prev.get? "ui").getD .none).scriptOr (.dict [])))
        let patchUi := OrderedMap.ofList (spreadEntries patchUi)
        let nextUi := mergeModes "pairModes" prevUi patchUi
          (mergeModes "controlModes" prevUi patchUi (prevUi.merge patchUi))
        merged.set "ui" (objectOf nextUi)
      else merged
  | none => merged

def setNodeMeta (editor : WorkflowEditor) (nodeId : String) (metaPatch : Config) :
    WorkflowEditor :=
  editor.modifyNode nodeId fun node =>
    { node with metaFields := patchedMeta node.metaFields metaPatch }

def socketsMatch (registry : Registry) (source target : Node)
    (sourceHandle targetHandle : String) : Bool :=
  match (registry source.type).bind fun nodeClass => nodeClass.outputs.lookup sourceHandle,
    (registry target.type).bind fun nodeClass => nodeClass.inputs.lookup targetHandle with
  | some outSocket, some inSocket => outSocket.isCompatible inSocket
  | _, _ => false

/-- The checks that `addConnection` makes, in any order. -/
def canConnect (registry : Registry) (editor : WorkflowEditor)
    (sourceId sourceHandle targetId targetHandle : String) : Bool :=
  match editor.nodes.get? sourceId, editor.nodes.get? targetId with
  | some source, some target =>
      socketsMatch registry source target sourceHandle targetHandle &&
        !(editor.connections.any fun conn =>
          conn.id == Connection.generateId sourceId sourceHandle targetId targetHandle) &&
        sourceId != targetId
  | _, _ => false

def addConnection (registry : Registry) (editor : WorkflowEditor)
    (sourceId sourceHandle targetId targetHandle : String) : WorkflowEditor × Option Connection :=
  if editor.canConnect registry sourceId sourceHandle targetId targetHandle then
    let connection := Connection.new sourceId sourceHandle targetId targetHandle
    ({ editor with connections := editor.connections ++ [connection] }, some connection)
  else (editor, none)

/-- The first connection with the identifier goes. -/
def removeConnection (editor : WorkflowEditor) (connectionId : String) : WorkflowEditor :=
  { editor with connections := editor.connections.eraseP fun conn => conn.id == connectionId }

def toJSON (editor : WorkflowEditor) : Snapshot where
  nodes := editor.nodes.values.map Node.toJSON
  connections := editor.connections.map Connection.toJSON

/-- The node loop of `fromJSON`: the nodes, the largest identifier number and
the error at which it stopped. -/
def loadNodes (registry : Registry) :
    List NodeData → OrderedMap String Node → Nat → OrderedMap String Node × Nat × Option String
  | [], nodes, maxId => (nodes, maxId, none)
  | data :: rest, nodes, maxId =>
      match Node.fromJSON registry data with
      | .error error => (nodes, maxId, some error)
      | .ok node => loadNodes registry rest (nodes.set node.id node)
          (max maxId ((idNumber node.id).getD 0))

/-- `fromJSON`, with the error it throws. A node of an unknown type leaves the
nodes before it in a graph without connections, whose counter is zero. -/
def fromJSON (registry : Registry) (data : Snapshot) : WorkflowEditor × Option String :=
  match loadNodes registry data.nodes OrderedMap.empty 0 with
  | (nodes, _, some error) => ({ empty with nodes := nodes }, some error)
  | (nodes, maxId, none) =>
      ({ nodes := nodes
         connections := data.connections.map Connection.fromJSON
         idCounter := maxId }, none)

end WorkflowEditor

/-!
## The adapter
-/

structure UiNode where
  id : String
  type : String
  title : String
  titleIsCustom : Bool
  position : Position
  disabled : Bool
  deriving DecidableEq

structure UiConnection where
  id : String
  source : String
  sourceHandle : String
  target : String
  targetHandle : String
  deriving DecidableEq

structure UiState where
  nodes : List UiNode
  connections : List UiConnection
  deriving DecidableEq

/-- `node.meta.ui.titleIsCustom`, as a truth value. -/
def titleIsCustom (metaFields : Config) : Bool :=
  match metaFields.get? "ui" with
  | some (.dict fields) => ((fields.lookup (.str "titleIsCustom")).getD .none).scriptTruthy
  | _ => false

def Node.toUi (node : Node) : UiNode where
  id := node.id
  type := node.type
  title := node.label
  titleIsCustom := titleIsCustom node.metaFields
  position := node.position
  disabled := decide (node.metaFields.get? "disabled" = some (.bool true))

def Connection.toUi (conn : Connection) : UiConnection where
  id := conn.id
  source := conn.source
  sourceHandle := conn.sourceHandle
  target := conn.target
  targetHandle := conn.targetHandle

def WorkflowEditor.mirror (editor : WorkflowEditor) : UiState where
  nodes := editor.nodes.values.map Node.toUi
  connections := editor.connections.map Connection.toUi

structure WorkflowAdapter where
  editor : WorkflowEditor
  ui : UiState
  deriving DecidableEq

namespace WorkflowAdapter

def empty : WorkflowAdapter where
  editor := WorkflowEditor.empty
  ui := WorkflowEditor.empty.mirror

def synced (editor : WorkflowEditor) : WorkflowAdapter where
  editor := editor
  ui := editor.mirror

/-- `addNode`, with the identifier of the new node. -/
def addNode (registry : Registry) (adapter : WorkflowAdapter) (type : String)
    (position : Position) : WorkflowAdapter × Option String :=
  match registry type with
  | none => (adapter, none)
  | some nodeClass =>
      (synced (adapter.editor.addNode (nodeClass.new type) position), some adapter.editor.nextId)

def addNodeWithId (registry : Registry) (adapter : WorkflowAdapter) (type : String)
    (position : Position) (forcedId : String) (config : Config) : WorkflowAdapter :=
  match registry type with
  | none => adapter
  | some nodeClass =>
      let node := ({ nodeClass.new type with id := forcedId } : Node).setConfig config
      let added := adapter.editor.addNode node position
      { synced added with
        editor := { added with
          idCounter := max added.idCounter ((idNumber forcedId).getD 0) } }

/-- A missing node emits no event. -/
def removeNode (adapter : WorkflowAdapter) (nodeId : String) : WorkflowAdapter :=
  match adapter.editor.nodes.get? nodeId with
  | none => adapter
  | some _ => synced (adapter.editor.removeNode nodeId)

/-- A move updates the mirrored node in place instead of rebuilding the mirror. -/
def updatePosition (adapter : WorkflowAdapter) (nodeId : String) (position : Position) :
    WorkflowAdapter :=
  match adapter.editor.nodes.get? nodeId with
  | none => adapter
  | some node =>
      if node.position = position then adapter
      else {
        editor := adapter.editor.updateNodePosition nodeId position
        ui := { adapter.ui with
          nodes := adapter.ui.nodes.modify
            (adapter.ui.nodes.findIdx fun shown => shown.id == nodeId)
            fun shown => { shown with position := position } } }

def getNodeConfig (adapter : WorkflowAdapter) (nodeId : String) : Config :=
  match adapter.editor.nodes.get? nodeId with
  | none => OrderedMap.empty
  | some node => node.getConfig

/-- `setNodeConfig` of a configuration at which the node does not throw. -/
def setNodeConfig (adapter : WorkflowAdapter) (nodeId : String) (config : Config) :
    WorkflowAdapter :=
  match adapter.editor.nodes.get? nodeId with
  | none => adapter
  | some _ => synced (adapter.editor.modifyNode nodeId fun node => node.setConfig config)

/-- `setNodeConfig`, and whether it throws. The mirror is not rebuilt when it does. -/
def configure (adapter : WorkflowAdapter) (nodeId : String) (config : Config) :
    WorkflowAdapter × Bool :=
  match adapter.editor.nodes.get? nodeId with
  | none => (adapter, false)
  | some node =>
      if node.setConfigThrows config then
        ({ adapter with
          editor := adapter.editor.modifyNode nodeId fun node => node.setConfigUntil config }, true)
      else (adapter.setNodeConfig nodeId config, false)

def setNodeMeta (adapter : WorkflowAdapter) (nodeId : String) (metaPatch : Config) :
    WorkflowAdapter :=
  match adapter.editor.nodes.get? nodeId with
  | none => adapter
  | some _ => synced (adapter.editor.setNodeMeta nodeId metaPatch)

def setNodeLabel (adapter : WorkflowAdapter) (nodeId label : String) : WorkflowAdapter :=
  match adapter.editor.nodes.get? nodeId with
  | none => adapter
  | some _ => synced (adapter.editor.setNodeLabel nodeId label)

/-- No event is emitted, and no mirrored field depends on a control. -/
def setControlValue (adapter : WorkflowAdapter) (nodeId controlKey : String) (value : Value) :
    WorkflowAdapter :=
  { adapter with
    editor := adapter.editor.modifyNode nodeId fun node =>
      { node with
        controls := if (node.controls.get? controlKey).isSome then
          node.controls.set controlKey value else node.controls } }

def addConnection (registry : Registry) (adapter : WorkflowAdapter)
    (sourceId sourceHandle targetId targetHandle : String) : WorkflowAdapter × Option Connection :=
  match adapter.editor.addConnection registry sourceId sourceHandle targetId targetHandle with
  | (_, none) => (adapter, none)
  | (editor, some connection) => (synced editor, some connection)

def removeConnection (adapter : WorkflowAdapter) (connectionId : String) : WorkflowAdapter :=
  if adapter.editor.connections.any fun conn => conn.id == connectionId then
    synced (adapter.editor.removeConnection connectionId)
  else adapter

def clear (_adapter : WorkflowAdapter) : WorkflowAdapter := empty

def toJSON (adapter : WorkflowAdapter) : Snapshot := adapter.editor.toJSON

/-- `fromJSON`, with the error it throws: the mirror then still shows the
cleared graph. -/
def fromJSON (registry : Registry) (data : Snapshot) : WorkflowAdapter × Option String :=
  match WorkflowEditor.fromJSON registry data with
  | (editor, some error) => ({ editor := editor, ui := WorkflowEditor.empty.mirror }, some error)
  | (editor, none) => (synced editor, none)

end WorkflowAdapter

end WorkflowStudio.Editor
