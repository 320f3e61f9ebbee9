import Mathlib.Data.Rat.Defs
import WorkflowStudio.Lib.OrderedMap
import WorkflowStudio.Data.Value

/-!
# Nodes and connections of the editor

The core data of the browser editor: sockets, node classes and their
registry, nodes with their controls, connections, and the JSON forms from and
to which nodes and connections are converted.
-/

set_option autoImplicit false

namespace WorkflowStudio.Editor

open Lib

structure Position where
  x : Rat
  y : Rat
  deriving DecidableEq

/-- A script object with plain keys. -/
abbrev Config := OrderedMap String Value

/-- The members of `Object.prototype`, which every script object inherits. -/
def inheritedKeys : List String := [
  "constructor", "hasOwnProperty", "isPrototypeOf", "propertyIsEnumerable", "toLocaleString",
  "toString", "valueOf", "__proto__", "__defineGetter__", "__defineSetter__",
  "__lookupGetter__", "__lookupSetter__"]

/-!
## Sockets and node classes
-/

structure Socket where
  name : String
  compatibleWith : List String := []
  deriving DecidableEq

def Socket.isCompatible (socket other : Socket) : Bool :=
  socket.name == other.name || socket.compatibleWith.contains other.name

def dataSocket : Socket := { name := "data" }

/-- The error of `setConfig` at a control that is an inherited function. -/
def noSetValue : String := "setValue is not a function"

/-- What `new NodeClass()` sets up. A key of the configuration schema becomes a
control or, when it is hidden, a hidden default, never both. Hidden defaults with
an inherited key are left out: `getConfig` finds every such key in the values of
the controls already, and never shows the default. -/
structure NodeClass where
  label : String
  inputs : List (String × Socket)
  outputs : List (String × Socket)
  controls : Config
  hiddenDefaults : Config
  separate : ∀ key ∈ hiddenDefaults.keys, key ∉ controls.keys
  ownHidden : ∀ key ∈ hiddenDefaults.keys, key ∉ inheritedKeys

abbrev Registry := String → Option NodeClass

/-!
## Nodes
-/

structure Node where
  id : String
  type : String
  label : String
  position : Position
  controls : Config
  hiddenDefaults : Config
  metaFields : Config
  deriving DecidableEq

def defaultNodeMeta : Config := OrderedMap.ofList [("disabled", .bool false), ("notes", .str "")]

def NodeClass.new (nodeClass : NodeClass) (type : String) : Node where
  id := ""
  type := type
  label := nodeClass.label
  position := ⟨0, 0⟩
  controls := nodeClass.controls
  hiddenDefaults := nodeClass.hiddenDefaults
  metaFields := defaultNodeMeta

namespace Node

/-- The values of the controls, then the hidden defaults. -/
def getConfig (node : Node) : Config := node.controls.union node.hiddenDefaults

/-- Keys that name neither a control nor a hidden default are dropped. -/
def setConfig (node : Node) (config : Config) : Node :=
  { node with
    controls := node.controls.assign config
    hiddenDefaults := node.hiddenDefaults.assign config }

/-- `controls[key]` is an inherited function, which has no `setValue`. -/
def inherits (node : Node) (key : String) : Bool :=
  inheritedKeys.contains key && !node.controls.keys.contains key

/-- `setConfig` throws at a key that is inherited and no control. -/
def setConfigThrows (node : Node) (config : Config) : Bool := config.keys.any node.inherits

/-- `setConfig` up to the inherited key at which it throws: the controls before
that key are set, the hidden defaults are not reached. -/
def setConfigUntil (node : Node) (config : Config) : Node :=
  { node with
    controls := node.controls.assign
      (OrderedMap.ofList (config.entries.takeWhile fun entry => !node.inherits entry.1)) }

/-- The node after a call of `setConfig`, which returns or throws. -/
def configured (node : Node) (config : Config) : Node :=
  if node.setConfigThrows config then node.setConfigUntil config else node.setConfig config

end Node

/-- The JSON form of a node. Every key but `id` and `type` may be missing. -/
structure NodeData where
  id : String
  type : String
  label : Option String
  position : Option Position
  config : Option Config
  metaFields : Option Config
  deriving DecidableEq

namespace Node

def toJSON (node : Node) : NodeData where
  id := node.id
  type := node.type
  label := some node.label
  position := some node.position
  config := some node.getConfig
  metaFields := some node.metaFields

def labelFrom (data : NodeData) (fallback : String) : String :=
  match data.label with
  | none => fallback
  | some label => if label = "" then fallback else label

/-- The node of the data, before its configuration is set. -/
def read (nodeClass : NodeClass) (data : NodeData) : Node :=
  let fresh := nodeClass.new data.type
  { fresh with
    id := data.id
    label := labelFrom data fresh.label
    position := data.position.getD ⟨0, 0⟩
    metaFields := match data.metaFields with
      | none => fresh.metaFields
      | some metaFields => fresh.metaFields.merge metaFields }

def fromJSON (registry : Registry) (data : NodeData) : Except String Node :=
  match registry data.type with
  | none => .error ("Unknown node type: " ++ data.type)
  | some nodeClass =>
      let node := read nodeClass data
      match data.config with
      | none => .ok node
      | some config =>
          if node.setConfigThrows config then .error noSetValue else .ok (node.setConfig config)

/-- The node that a class makes for a fixed identifier and configuration, as
`addNodeWithId` does before it places the node. -/
def restored (nodeClass : NodeClass) (type : String) (position : Position) (id : String)
    (config : Config) : Node :=
  { ({ nodeClass.new type with id := id }.setConfig config) with position := position }

end Node

/-!
## Connections
-/

structure Connection where
  id : String
  source : String
  sourceHandle : String
  target : String
  targetHandle : String
  metaFields : Config
  deriving DecidableEq

def defaultConnectionMeta : Config :=
  OrderedMap.ofList [("label", .str ""), ("animated", .bool false)]

structure ConnectionData where
  id : Option String
  source : String
  sourceHandle : String
  target : String
  targetHandle : String
  metaFields : Option Config
  deriving DecidableEq

namespace Connection

def generateId (sourceId sourceHandle targetId targetHandle : String) : String :=
  sourceId ++ ":" ++ sourceHandle ++ "=>" ++ targetId ++ ":" ++ targetHandle

def new (sourceId sourceHandle targetId targetHandle : String) : Connection where
  id := generateId sourceId sourceHandle targetId targetHandle
  source := sourceId
  sourceHandle := sourceHandle
  target := targetId
  targetHandle := targetHandle
  metaFields := defaultConnectionMeta

def involvesNode (conn : Connection) (nodeId : String) : Bool :=
  conn.source == nodeId || conn.target == nodeId

def toJSON (conn : Connection) : ConnectionData where
  id := some conn.id
  source := conn.source
  sourceHandle := conn.sourceHandle
  target := conn.target
  targetHandle := conn.targetHandle
  metaFields := some conn.metaFields

def fromJSON (data : ConnectionData) : Connection :=
  let fresh := new data.source data.sourceHandle data.target data.targetHandle
  { fresh with
    id := match data.id with
      | none => fresh.id
      | some id => if id = "" then fresh.id else id
    metaFields := match data.metaFields with
      | none => fresh.metaFields
      | some metaFields => fresh.metaFields.merge metaFields }

end Connection

end WorkflowStudio.Editor
