import WorkflowStudio.Lib.Reversal
import WorkflowStudio.Editor.ConnectorRequest

/-!
# History and editor store

The undo history with its commands, and the store on top of the adapter: the
recorded actions, the edits that bypass the history, the read-only previews,
and loading and saving a workflow.
-/

set_option autoImplicit false

namespace WorkflowStudio.Editor

open Lib

/-!
## Commands
-/

structure NodeMove where
  nodeId : String
  oldPosition : Position
  newPosition : Position
  deriving DecidableEq

def UiConnection.involvesNode (conn : UiConnection) (nodeId : String) : Bool :=
  conn.source == nodeId || conn.target == nodeId

/-- The data a history action captures. The connections of a removed node all
touch it, and an added connection has the identifier of its end points. -/
inductive Command where
  | addNode (id type : String) (position : Position) (config : Config)
  | removeNode (id type : String) (position : Position) (config : Config)
      (relatedConnections : List UiConnection)
      (related : ∀ conn ∈ relatedConnections, conn.involvesNode id = true)
  | moveNode (nodeId : String) (oldPosition newPosition : Position)
  | moveNodes (nodeMoves : List NodeMove)
  | addConnection (source sourceHandle target targetHandle : String)
  | removeConnection (connection : UiConnection)

/-- `adapter.addConnection` for the end points of a captured connection. -/
def WorkflowAdapter.reconnect (registry : Registry) (adapter : WorkflowAdapter)
    (conn : UiConnection) : WorkflowAdapter :=
  (adapter.addConnection registry conn.source conn.sourceHandle conn.target conn.targetHandle).1

namespace Command

def description : Command → String
  | .addNode _ type _ _ => "Add " ++ type ++ " node"
  | .removeNode _ type _ _ _ _ => "Remove " ++ type ++ " node"
  | .moveNode _ _ _ => "Move node"
  | .moveNodes _ => "Move nodes"
  | .addConnection _ _ _ _ => "Add connection"
  | .removeConnection _ => "Remove connection"

def undo (registry : Registry) : Command → WorkflowAdapter → WorkflowAdapter
  | .addNode id _ _ _, adapter => adapter.removeNode id
  | .removeNode id type position config relatedConnections _, adapter =>
      relatedConnections.foldl (WorkflowAdapter.reconnect registry)
        (adapter.addNodeWithId registry type position id config)
  | .moveNode nodeId oldPosition _, adapter => adapter.updatePosition nodeId oldPosition
  | .moveNodes nodeMoves, adapter =>
      nodeMoves.foldl (fun moved move => moved.updatePosition move.nodeId move.oldPosition) adapter
  | .addConnection source sourceHandle target targetHandle, adapter =>
      adapter.removeConnection (Connection.generateId source sourceHandle target targetHandle)
  | .removeConnection conn, adapter => adapter.reconnect registry conn

def redo (registry : Registry) : Command → WorkflowAdapter → WorkflowAdapter
  | .addNode id type position config, adapter =>
      adapter.addNodeWithId registry type position id config
  | .removeNode id _ _ _ _ _, adapter => adapter.removeNode id
  | .moveNode nodeId _ newPosition, adapter => adapter.updatePosition nodeId newPosition
  | .moveNodes nodeMoves, adapter =>
      nodeMoves.foldl (fun moved move => moved.updatePosition move.nodeId move.newPosition) adapter
  | .addConnection source sourceHandle target targetHandle, adapter =>
      (adapter.addConnection registry source sourceHandle target targetHandle).1
  | .removeConnection conn, adapter => adapter.removeConnection conn.id

end Command

/-!
## The history manager
-/

/-- An action of the history: one command, or the commands of a batch. -/
structure HistoryEntry where
  description : String
  commands : List Command

/-- The stacks with their tops first. -/
structure HistoryManager where
  undoStack : List HistoryEntry
  redoStack : List HistoryEntry
  currentBatch : Option (List Command)

namespace HistoryManager

def maxSize : Nat := 50

def empty : HistoryManager where
  undoStack := []
  redoStack := []
  currentBatch := none

/-- `push` outside a batch: the oldest entry is dropped beyond the limit. -/
def pushEntry (history : HistoryManager) (entry : HistoryEntry) : HistoryManager :=
  let undoStack := entry :: history.undoStack
  { history with
    undoStack := if maxSize < undoStack.length then undoStack.dropLast else undoStack
    redoStack := [] }

def push (history : HistoryManager) (command : Command) : HistoryManager :=
  match history.currentBatch with
  | some batch => { history with currentBatch := some (batch ++ [command]) }
  | none => history.pushEntry { description := command.description, commands := [command] }

def startBatch (history : HistoryManager) : HistoryManager :=
  { history with currentBatch := some [] }

def commitBatch (history : HistoryManager) (description : String) : HistoryManager :=
  match history.currentBatch with
  | none | some [] => { history with currentBatch := none }
  | some batch =>
      { history with currentBatch := none }.pushEntry
        { description := description, commands := batch }

/-- `clear` keeps the open batch. -/
def clear (history : HistoryManager) : HistoryManager :=
  { history with undoStack := [], redoStack := [] }

end HistoryManager

/-!
## The store
-/

structure HistoryPreview where
  active : Bool := false
  revisionId : Option Nat := none
  originalSnapshot : Option Snapshot := none
  deriving DecidableEq

structure ExecutionView where
  active : Bool := false
  runId : Option Nat := none
  originalSnapshot : Option Snapshot := none
  deriving DecidableEq

structure UiFlags where
  readonly : Bool := false
  historyPreviewActive : Bool := false
  executionViewActive : Bool := false
  deriving DecidableEq

/-- A draft as the backend sends and receives it. -/
structure Draft where
  snapshot : Snapshot
  metadata : Config
  deriving DecidableEq

structure SaveRequest where
  workflowId : Option Nat
  draft : Draft
  versionHash : Option String
  deriving DecidableEq

structure Store where
  adapter : WorkflowAdapter
  history : HistoryManager
  historyPreview : HistoryPreview
  executionView : ExecutionView
  flags : UiFlags
  pinData : Config
  workflowMetadata : Config
  workflowId : Option Nat
  versionHash : Option String
  sent : List SaveRequest

namespace Store

def initial : Store where
  adapter := WorkflowAdapter.empty
  history := HistoryManager.empty
  historyPreview := {}
  executionView := {}
  flags := {}
  pinData := OrderedMap.empty
  workflowMetadata := OrderedMap.empty
  workflowId := none
  versionHash := none
  sent := []

end Store

/-!
### Recorded actions
-/

def WorkflowAdapter.getNode (adapter : WorkflowAdapter) (nodeId : String) : Option UiNode :=
  adapter.ui.nodes.find? fun node => node.id == nodeId

def WorkflowAdapter.getConnection (adapter : WorkflowAdapter) (connectionId : String) :
    Option UiConnection :=
  adapter.ui.connections.find? fun conn => conn.id == connectionId

/-- The actions of the store that push history entries. `moveNodes` takes a
script object, so its keys are distinct. -/
inductive RecordedAction where
  | addNode (type : String) (position : Position)
  | removeNode (nodeId : String)
  | addConnection (source sourceHandle target targetHandle : String)
  | removeConnection (connectionId : String)
  | moveNode (nodeId : String) (position : Position)
  | moveNodes (updates : OrderedMap String Position)

namespace RecordedAction

def addOne (registry : Registry) (adapter : WorkflowAdapter) (type : String)
    (position : Position) : WorkflowAdapter × Option (String × Command) :=
  match adapter.addNode registry type position with
  | (adapter, none) => (adapter, none)
  | (adapter, some nodeId) =>
      (adapter, some (nodeId, .addNode nodeId type position (adapter.getNodeConfig nodeId)))

def connectOne (registry : Registry) (adapter : WorkflowAdapter)
    (source sourceHandle target targetHandle : String) : WorkflowAdapter × List Command :=
  match adapter.addConnection registry source sourceHandle target targetHandle with
  | (adapter, none) => (adapter, [])
  | (adapter, some _) => (adapter, [.addConnection source sourceHandle target targetHandle])

/-- A loop node comes with a placeholder node and the two connections of the
cycle, each with a history entry of its own. -/
def addNodeAction (registry : Registry) (adapter : WorkflowAdapter) (type : String)
    (position : Position) : WorkflowAdapter × List Command :=
  match addOne registry adapter type position with
  | (adapter, none) => (adapter, [])
  | (adapter, some (nodeId, added)) =>
      if type = "loop" then
        match addOne registry adapter "noop" ⟨position.x + 80, position.y + 160⟩ with
        | (adapter, none) => (adapter, [added])
        | (adapter, some (noopId, noopAdded)) =>
            let (adapter, forth) := connectOne registry adapter nodeId "loop" noopId "data"
            let (adapter, back) := connectOne registry adapter noopId "result" nodeId "data"
            (adapter, [added, noopAdded] ++ forth ++ back)
      else (adapter, [added])

def removeNodeAction (adapter : WorkflowAdapter) (nodeId : String) :
    WorkflowAdapter × List Command :=
  match adapter.getNode nodeId with
  | none => (adapter, [])
  | some node =>
      (adapter.removeNode nodeId, [.removeNode node.id node.type node.position
        (adapter.getNodeConfig nodeId)
        (adapter.ui.connections.filter fun conn => conn.involvesNode node.id)
        (fun _ member => (List.mem_filter.mp member).2)])

def removeConnectionAction (adapter : WorkflowAdapter) (connectionId : String) :
    WorkflowAdapter × List Command :=
  match adapter.getConnection connectionId with
  | none => (adapter, [])
  | some conn => (adapter.removeConnection connectionId, [.removeConnection conn])

def moveNodeAction (adapter : WorkflowAdapter) (nodeId : String) (position : Position) :
    WorkflowAdapter × List Command :=
  match adapter.getNode nodeId with
  | none => (adapter.updatePosition nodeId position, [])
  | some node =>
      if node.position = position then (adapter, [])
      else (adapter.updatePosition nodeId position, [.moveNode nodeId node.position position])

def collectMoves : List (String × Position) → WorkflowAdapter → WorkflowAdapter × List NodeMove
  | [], adapter => (adapter, [])
  | (nodeId, position) :: rest, adapter =>
      match adapter.getNode nodeId with
      | none => collectMoves rest adapter
      | some node =>
          if node.position = position then collectMoves rest adapter
          else
            let collected := collectMoves rest (adapter.updatePosition nodeId position)
            (collected.1, ⟨nodeId, node.position, position⟩ :: collected.2)

def moveNodesAction (adapter : WorkflowAdapter) (updates : OrderedMap String Position) :
    WorkflowAdapter × List Command :=
  match collectMoves updates.entries adapter with
  | (adapter, []) => (adapter, [])
  | (adapter, nodeMoves) => (adapter, [.moveNodes nodeMoves])

/-- The adapter after an action and the commands it pushes, in order. -/
def run (registry : Registry) (adapter : WorkflowAdapter) :
    RecordedAction → WorkflowAdapter × List Command
  | .addNode type position => addNodeAction registry adapter type position
  | .removeNode nodeId => removeNodeAction adapter nodeId
  | .addConnection source sourceHandle target targetHandle =>
      connectOne registry adapter source sourceHandle target targetHandle
  | .removeConnection connectionId => removeConnectionAction adapter connectionId
  | .moveNode nodeId position => moveNodeAction adapter nodeId position
  | .moveNodes updates => moveNodesAction adapter updates

end RecordedAction

namespace Store

/-- Perform a recorded action. Removing a node also drops its pinned data. -/
def perform (registry : Registry) (store : Store) (action : RecordedAction) : Store :=
  let performed := action.run registry store.adapter
  { store with
    adapter := performed.1
    history := performed.2.foldl HistoryManager.push store.history
    pinData := match action with
      | .removeNode nodeId =>
          if (store.adapter.getNode nodeId).isSome then store.pinData.erase nodeId
          else store.pinData
      | _ => store.pinData }

def undo (registry : Registry) (store : Store) : Store :=
  match store.history.undoStack with
  | [] => store
  | entry :: rest =>
      { store with
        adapter := Reversal.undoAll (Command.undo registry) entry.commands store.adapter
        history := { store.history with
          undoStack := rest
          redoStack := entry :: store.history.redoStack } }

def redo (registry : Registry) (store : Store) : Store :=
  match store.history.redoStack with
  | [] => store
  | entry :: rest =>
      { store with
        adapter := Reversal.redoAll (Command.redo registry) entry.commands store.adapter
        history := { store.history with
          undoStack := entry :: store.history.undoStack
          redoStack := rest } }

/-!
### Previews, loads and saves
-/

def endHistoryPreview (registry : Registry) (store : Store) (restoreOriginal : Bool) : Store :=
  { store with
    adapter := match store.historyPreview.originalSnapshot with
      | some original =>
          if store.historyPreview.active ∧ restoreOriginal then
            (WorkflowAdapter.fromJSON registry original).1
          else store.adapter
      | none => store.adapter
    historyPreview := {}
    flags := { store.flags with historyPreviewActive := false, readonly := false } }

def endExecutionView (registry : Registry) (store : Store) (restoreOriginal : Bool) : Store :=
  { store with
    adapter := match store.executionView.originalSnapshot with
      | some original =>
          if store.executionView.active ∧ restoreOriginal then
            (WorkflowAdapter.fromJSON registry original).1
          else store.adapter
      | none => store.adapter
    executionView := {}
    flags := { store.flags with executionViewActive := false, readonly := false } }

/-- A snapshot that does not load leaves the preview active. -/
def startHistoryPreview (registry : Registry) (store : Store) (revisionId : Option Nat)
    (snapshot : Snapshot) : Store :=
  let store := if store.executionView.active then store.endExecutionView registry true else store
  { store with
    historyPreview := {
      active := true
      revisionId := revisionId
      originalSnapshot := if store.historyPreview.active then
        store.historyPreview.originalSnapshot else some store.adapter.toJSON }
    flags := { store.flags with historyPreviewActive := true, readonly := true }
    adapter := (WorkflowAdapter.fromJSON registry snapshot).1 }

def startExecutionView (registry : Registry) (store : Store) (runId : Option Nat)
    (snapshot : Snapshot) : Store :=
  let store := if store.historyPreview.active then store.endHistoryPreview registry true else store
  { store with
    executionView := {
      active := true
      runId := runId
      originalSnapshot := if store.executionView.active then
        store.executionView.originalSnapshot else some store.adapter.toJSON }
    flags := { store.flags with executionViewActive := true, readonly := true }
    adapter := (WorkflowAdapter.fromJSON registry snapshot).1 }

/-- The pinned data of loaded metadata, under its current or its old key. -/
def loadedPinData (metadata : Config) : Config :=
  OrderedMap.ofList (WorkflowEditor.spreadEntries
    (((metadata.get? "pin_data").getD .none).scriptOr ((metadata.get? "pinData").getD .none)))

/-- The answer of `load_workflow` arrives. A draft that does not load throws
before the workflow identifier and the version hash change. -/
def loadWorkflow (registry : Registry) (store : Store) (id : Nat) (draft : Draft)
    (versionHash : Option String) : Store :=
  let store := { store with flags := { store.flags with executionViewActive := false } }
  match WorkflowAdapter.fromJSON registry draft.snapshot with
  | (adapter, some _) => { store with adapter := adapter }
  | (adapter, none) =>
      { store with
        adapter := adapter
        versionHash := versionHash
        workflowId := some id
        workflowMetadata := draft.metadata
        pinData := loadedPinData draft.metadata }

def buildFullSnapshot (store : Store) : Draft where
  snapshot := sanitizeConnectorRequestSnapshot store.adapter.toJSON
  metadata :=
    let metadata := store.workflowMetadata.erase "pinData"
    if store.pinData.entries = [] then metadata.erase "pin_data"
    else metadata.set "pin_data" (WorkflowEditor.objectOf store.pinData)

/-- Send the snapshot; the answer, if the backend accepts it, is the new hash. -/
def saveWorkflow (store : Store) (answer : Option (Option String)) : Store :=
  let request : SaveRequest := {
    workflowId := store.workflowId
    draft := store.buildFullSnapshot
    versionHash := store.versionHash }
  match answer with
  | none => { store with sent := store.sent ++ [request] }
  | some versionHash =>
      { store with
        sent := store.sent ++ [request]
        versionHash := versionHash
        history := store.history.clear }

/-!
### Pinned data
-/

/-- What `pinNodeData` accepts: a positive node run, or the fields of an inline pin. -/
inductive PinValue where
  | reference (nodeRunId : Nat) (positive : 0 < nodeRunId)
  | inline (fields : Config)

def PinValue.stored : PinValue → Value
  | .reference nodeRunId _ => .int nodeRunId
  | .inline fields => WorkflowEditor.objectOf fields

def pinNodeData (store : Store) (nodeId : String) (pinValue : PinValue) : Store :=
  if nodeId = "" then store
  else
    let pinned := (OrderedMap.ofList (WorkflowEditor.spreadEntries
      (((store.workflowMetadata.get? "pin_data").getD .none).scriptOr (.dict [])))).set
        nodeId pinValue.stored
    { store with
      pinData := store.pinData.set nodeId pinValue.stored
      workflowMetadata := store.workflowMetadata.set "pin_data" (WorkflowEditor.objectOf pinned) }

def unpinNodeData (store : Store) (nodeId : String) : Store :=
  let pinned := (OrderedMap.ofList (WorkflowEditor.spreadEntries
    (((store.workflowMetadata.get? "pin_data").getD .none).scriptOr (.dict [])))).erase nodeId
  let metadata := if pinned.entries = [] then store.workflowMetadata.erase "pin_data"
    else store.workflowMetadata.set "pin_data" (WorkflowEditor.objectOf pinned)
  { store with
    pinData := store.pinData.erase nodeId
    workflowMetadata := metadata.erase "pinData" }

end Store

/-!
## Operations
-/

/-- Everything the service lets its callers do to the graph: the recorded
actions, the edits that bypass the history, and the session operations. -/
inductive Operation where
  | perform (action : RecordedAction)
  | moveNodesTransient (updates : OrderedMap String Position)
  | recordMoveNodes (nodeMoves : List NodeMove)
  | setNodeConfig (nodeId : String) (config : Config)
  | setNodeMeta (nodeId : String) (metaPatch : Config)
  | renameNode (nodeId label : String)
  | setControlValue (nodeId controlKey : String) (value : Value)
  | updatePosition (nodeId : String) (position : Position)
  | adapterAddNode (type : String) (position : Position)
  | adapterAddNodeWithId (type : String) (position : Position) (forcedId : String)
      (config : Config)
  | adapterRemoveNode (nodeId : String)
  | adapterAddConnection (source sourceHandle target targetHandle : String)
  | adapterRemoveConnection (connectionId : String)
  | clear
  | fromJSON (snapshot : Snapshot)
  | beginBatch
  | endBatch (description : String)
  | undo
  | redo
  | pinNodeData (nodeId : String) (pinValue : Store.PinValue)
  | unpinNodeData (nodeId : String)
  | startHistoryPreview (revisionId : Option Nat) (snapshot : Snapshot)
  | endHistoryPreview (restoreOriginal : Bool)
  | startExecutionView (runId : Option Nat) (snapshot : Snapshot)
  | endExecutionView (restoreOriginal : Bool)
  | loadWorkflow (id : Nat) (draft : Draft) (versionHash : Option String)
  | saveWorkflow (answer : Option (Option String))

def Operation.apply (registry : Registry) (store : Store) : Operation → Store
  | .perform action => store.perform registry action
  | .moveNodesTransient updates =>
      { store with adapter := (RecordedAction.collectMoves updates.entries store.adapter).1 }
  | .recordMoveNodes nodeMoves =>
      if nodeMoves = [] then store
      else { store with history := store.history.push (.moveNodes nodeMoves) }
  | .setNodeConfig nodeId config =>
      { store with adapter := (store.adapter.configure nodeId config).1 }
  | .setNodeMeta nodeId metaPatch =>
      { store with adapter := store.adapter.setNodeMeta nodeId metaPatch }
  | .renameNode nodeId label => { store with adapter := store.adapter.setNodeLabel nodeId label }
  | .setControlValue nodeId controlKey value =>
      { store with adapter := store.adapter.setControlValue nodeId controlKey value }
  | .updatePosition nodeId position =>
      { store with adapter := store.adapter.updatePosition nodeId position }
  | .adapterAddNode type position =>
      { store with adapter := (store.adapter.addNode registry type position).1 }
  | .adapterAddNodeWithId type position forcedId config =>
      -- `setConfig` throws before the node is placed.
      if (registry type).any fun nodeClass => (nodeClass.new type).setConfigThrows config then store
      else { store with
        adapter := store.adapter.addNodeWithId registry type position forcedId config }
  | .adapterRemoveNode nodeId => { store with adapter := store.adapter.removeNode nodeId }
  | .adapterAddConnection source sourceHandle target targetHandle =>
      { store with adapter :=
          (store.adapter.addConnection registry source sourceHandle target targetHandle).1 }
  | .adapterRemoveConnection connectionId =>
      { store with adapter := store.adapter.removeConnection connectionId }
  | .clear => { store with adapter := store.adapter.clear }
  | .fromJSON snapshot =>
      { store with adapter := (WorkflowAdapter.fromJSON registry snapshot).1 }
  | .beginBatch => { store with history := store.history.startBatch }
  | .endBatch description => { store with history := store.history.commitBatch description }
  | .undo => store.undo registry
  | .redo => store.redo registry
  | .pinNodeData nodeId pinValue => store.pinNodeData nodeId pinValue
  | .unpinNodeData nodeId => store.unpinNodeData nodeId
  | .startHistoryPreview revisionId snapshot =>
      store.startHistoryPreview registry revisionId snapshot
  | .endHistoryPreview restoreOriginal => store.endHistoryPreview registry restoreOriginal
  | .startExecutionView runId snapshot => store.startExecutionView registry runId snapshot
  | .endExecutionView restoreOriginal => store.endExecutionView registry restoreOriginal
  | .loadWorkflow id draft versionHash => store.loadWorkflow registry id draft versionHash
  | .saveWorkflow answer => store.saveWorkflow answer

def Store.run (registry : Registry) (operations : List Operation) : Store :=
  operations.foldl (Operation.apply registry) Store.initial

end WorkflowStudio.Editor
