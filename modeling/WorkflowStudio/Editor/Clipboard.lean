import WorkflowStudio.Editor.Store

/-!
# Copy and paste

The canvas copies the selected nodes and the connections between them to the
clipboard, and pastes what it finds there through the recorded actions of the
store, inside one batch of the history.
-/

set_option autoImplicit false

namespace WorkflowStudio.Editor

open Lib

structure CopiedNode where
  id : String
  type : String
  position : Position
  title : String
  config : Config
  deriving DecidableEq

structure ClipboardData where
  nodes : List CopiedNode
  connections : List UiConnection
  deriving DecidableEq

/-- What `pasteNodes` makes of the text in the clipboard: it cannot be read or
parsed, it has no list of nodes, or it is copied data. -/
inductive Clipboard where
  | unreadable
  | other
  | data (data : ClipboardData)
  deriving DecidableEq

namespace Store

def selectedNodes (store : Store) (nodeIds : List String) : List UiNode :=
  store.adapter.ui.nodes.filter fun node => nodeIds.contains node.id

def clipboardData (store : Store) (nodeIds : List String) : ClipboardData where
  nodes := (store.selectedNodes nodeIds).map fun node => {
    id := node.id
    type := node.type
    position := node.position
    title := node.title
    config := store.adapter.getNodeConfig node.id }
  connections := store.adapter.ui.connections.filter fun conn =>
    nodeIds.contains conn.source && nodeIds.contains conn.target

/-- The clipboard afterwards. -/
def copySelectedNodes (store : Store) (nodeIds : List String) (clipboard : Clipboard) :
    Clipboard :=
  if store.flags.readonly then clipboard
  else if nodeIds = [] then clipboard
  else .data (store.clipboardData nodeIds)

end Store

def pastePosition (position : Position) : Position := ⟨position.x + 50, position.y + 50⟩

/-- Paste under way: the identifiers of the new nodes by those of the copied
ones, and whether an exception has ended it. -/
structure Pasting where
  store : Store
  idMap : OrderedMap String String
  thrown : Bool

namespace Pasting

/-- An assignment to `__proto__` leaves a script object without such an entry. -/
def mapId (idMap : OrderedMap String String) (id newId : String) : OrderedMap String String :=
  if id = "__proto__" then idMap else idMap.set id newId

def addNode (registry : Registry) (pasting : Pasting) (node : CopiedNode) : Pasting :=
  if pasting.thrown then pasting
  else
    let added := pasting.store.perform registry (.addNode node.type (pastePosition node.position))
    match (pasting.store.adapter.addNode registry node.type (pastePosition node.position)).2 with
    | none => { pasting with store := added }
    | some newId =>
        let configured := added.adapter.configure newId node.config
        { store := { added with adapter := configured.1 }
          idMap := mapId pasting.idMap node.id newId
          thrown := configured.2 }

def addConnection (registry : Registry) (pasting : Pasting) (conn : UiConnection) : Pasting :=
  match pasting.idMap.get? conn.source, pasting.idMap.get? conn.target with
  | some source, some target =>
      { pasting with
        store := pasting.store.perform registry
          (.addConnection source conn.sourceHandle target conn.targetHandle) }
  | _, _ => pasting

end Pasting

namespace Store

def pasting (registry : Registry) (store : Store) (data : ClipboardData) : Pasting :=
  let placed := data.nodes.foldl (Pasting.addNode registry) {
    store := { store with history := store.history.startBatch }
    idMap := OrderedMap.empty
    thrown := false }
  if placed.thrown then placed
  else data.connections.foldl (Pasting.addConnection registry) placed

def pasteNodes (registry : Registry) (store : Store) (clipboard : Clipboard) : Store :=
  if store.flags.readonly then store
  else
    match clipboard with
    | .other => store
    | .unreadable => { store with history := store.history.commitBatch "" }
    | .data data =>
        let pasted := store.pasting registry data
        { pasted.store with
          history := pasted.store.history.commitBatch
            (if pasted.thrown then "" else "Paste nodes") }

def copyPaste (registry : Registry) (store : Store) (nodeIds : List String)
    (clipboard : Clipboard) : Store :=
  store.pasteNodes registry (store.copySelectedNodes nodeIds clipboard)

end Store

end WorkflowStudio.Editor
