import WorkflowStudio.Data.Value
import WorkflowStudio.Lib.OrderedMap

/-! The bridge records of a workflow's connector requests, and how they are brought in line
with a snapshot: one record for each request node, whose bindings are filled in but never
replaced. -/

set_option autoImplicit false

namespace WorkflowStudio.Connector.BridgeSync

open Lib

/-- The configuration of a node. -/
abbrev Config := OrderedMap String Value

/-- `config.get(key) or False`. -/
def Config.setting (config : Config) (key : String) : Option Value :=
  (config.get? key).filter Value.truthy

structure Node where
  id : Option String
  type : Option String
  config : Config

@[ext] structure Bindings where
  connectorId : Option Nat
  endpointId : Option Nat
  authProfileId : Option Nat
  deriving DecidableEq

/-- What a bridge keeps of the snapshot. -/
structure Cached where
  operationCode : Option String
  configHash : Option String
  snapshotConfigJson : Option String
  deriving DecidableEq

/-- A record of `workflow.http.request`. -/
structure Bridge where
  id : Nat
  bindings : Bindings
  cached : Cached
  active : Bool
  deriving DecidableEq

/-- The bridges of the workflow, one for a node id, and the id of the next record. -/
@[ext] structure Bridges where
  records : OrderedMap String Bridge
  nextId : Nat

/-- What the code takes from elsewhere: what a many2one field and a text field keep of a value,
the connectors of endpoints and authentication profiles, which fail to load for a record that
is missing, and the printed configuration with its hash. -/
structure Environment where
  toId : Value → Option Nat
  toText : Value → Option String
  endpointConnector : Value → Except String (Option Nat)
  authProfileConnector : Value → Except String (Option Nat)
  dumps : Config → String
  md5 : String → String

section Sync

variable (env : Environment)

/-- `_resolve_connector_binding_id`. -/
def resolveConnectorBindingId (config : Config) : Except String (Option Value) :=
  match (config.setting "connector_id").or (config.setting "workspace_id") with
  | some connector => .ok (some connector)
  | none => do
      let viaEndpoint ← match config.setting "endpoint_id" with
        | some endpoint => env.endpointConnector endpoint
        | none => pure none
      let viaProfile ← match viaEndpoint, config.setting "auth_profile_id" with
        | none, some profile => env.authProfileConnector profile
        | _, _ => pure none
      return (viaEndpoint.or viaProfile).map fun id => .int id

/-- A record's connector is none or the bridge's. -/
def belongs (connector : Option Nat) (bindings : Bindings) : Bool :=
  connector == none || connector == bindings.connectorId

def idValue (id : Nat) : Value := .int id

/-- `_check_connector_alignment`. -/
def checkConnectorAlignment (bindings : Bindings) : Except String Unit := do
  if let some endpoint := bindings.endpointId then
    if !belongs (← env.endpointConnector (idValue endpoint)) bindings then
      throw "Endpoint preset must belong to the selected connector or be global."
  if let some profile := bindings.authProfileId then
    if !belongs (← env.authProfileConnector (idValue profile)) bindings then
      throw "Auth profile must belong to the selected connector or be global."

/-- The values of the bindings that are written. -/
structure BindingVals where
  connectorId : Option Value
  endpointId : Option Value
  authProfileId : Option Value

/-- The bindings of `_prepare_http_request_bridge_create_vals`. -/
def prepareCreateVals (config : Config) : Except String BindingVals := do
  let connectorId ← resolveConnectorBindingId env config
  return ⟨connectorId, config.setting "endpoint_id", config.setting "auth_profile_id"⟩

/-- The bindings of `_prepare_http_request_bridge_sync_vals`. -/
def prepareSyncVals (bindings : Bindings) (config : Config) : Except String BindingVals := do
  let connectorId ←
    if bindings.connectorId = none then resolveConnectorBindingId env config else pure none
  let endpointId := if bindings.endpointId = none then config.setting "endpoint_id" else none
  let authProfileId :=
    if bindings.authProfileId = none then config.setting "auth_profile_id" else none
  return ⟨connectorId, endpointId, authProfileId⟩

/-- What a field holds after a value was written to it, or not. -/
def writeField (current : Option Nat) : Option Value → Option Nat
  | some value => env.toId value
  | none => current

def writeVals (bindings : Bindings) (vals : BindingVals) : Bindings where
  connectorId := writeField env bindings.connectorId vals.connectorId
  endpointId := writeField env bindings.endpointId vals.endpointId
  authProfileId := writeField env bindings.authProfileId vals.authProfileId

def BindingVals.any (vals : BindingVals) : Bool :=
  vals.connectorId.isSome || vals.endpointId.isSome || vals.authProfileId.isSome

/-- `create`, whose values are all checked. -/
def createBindings (vals : BindingVals) : Except String Bindings := do
  let bindings := writeVals env ⟨none, none, none⟩ vals
  checkConnectorAlignment env bindings
  return bindings

/-- `write`, which checks the bindings if one of them is written. -/
def writeBindings (bindings : Bindings) (vals : BindingVals) : Except String Bindings := do
  let updated := writeVals env bindings vals
  if vals.any then checkConnectorAlignment env updated
  return updated

/-- The operation code, and what `update_from_snapshot_config` writes. -/
def cachedOf (config : Config) : Cached :=
  let raw := env.dumps config
  { operationCode := (config.setting "operation_code").bind env.toText
    configHash := some (env.md5 raw)
    snapshotConfigJson := some raw }

/-- `_extract_connector_request_nodes`, native or derived from an endpoint. -/
def Node.isConnectorRequest (node : Node) : Bool :=
  node.type == some "connector_request" ||
    node.config.get? "_runtime_node_type" == some (.str "connector_request")

/-- The request nodes of a snapshot that have an id. -/
def requests (snapshot : List Node) : List (String × Config) :=
  (snapshot.filter Node.isConnectorRequest).filterMap fun node =>
    (node.id.filter (· != "")).map fun id => (id, node.config)

/-- One round of the loop of `_sync_http_request_records`. The values of a new record are
made for every node, also where there is one already. -/
def syncRequest (bridges : Bridges) (request : String × Config) : Except String Bridges := do
  let createVals ← prepareCreateVals env request.2
  let cached := cachedOf env request.2
  match bridges.records.get? request.1 with
  | some bridge =>
      let vals ← prepareSyncVals env bridge.bindings request.2
      let bindings ← writeBindings env bridge.bindings vals
      let updated : Bridge := { bridge with bindings, cached, active := true }
      return { bridges with records := bridges.records.set request.1 updated }
  | none =>
      let bindings ← createBindings env createVals
      let created : Bridge := { id := bridges.nextId, bindings, cached, active := true }
      return { records := bridges.records.set request.1 created, nextId := bridges.nextId + 1 }

/-- `active` is cleared for the nodes that were not seen. -/
def deactivateOthers (seen : List String) (bridges : Bridges) : Bridges :=
  { bridges with
    records := bridges.records.mapValues fun nodeId bridge =>
      if nodeId ∈ seen then bridge else { bridge with active := false } }

/-- `_sync_http_request_records`. -/
def syncHttpRequestRecords (bridges : Bridges) (snapshot : List Node) : Except String Bridges := do
  let requests := requests snapshot
  let synced ← requests.foldlM (syncRequest env) bridges
  return deactivateOthers (requests.map Prod.fst) synced

end Sync

end WorkflowStudio.Connector.BridgeSync
