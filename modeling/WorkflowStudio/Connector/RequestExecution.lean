import WorkflowStudio.Connector.AuthProfile
import WorkflowStudio.Data.Heap

/-! The execution of a connector request on the objects themselves. The configuration of the
request is an object of its own, but it takes over the objects of the node's configuration, and the
rows of the authentication are added to the list that it finds there. -/

set_option autoImplicit false

namespace WorkflowStudio.Connector

open Lib Heap

/-!
## Merging
-/

/-- `_deep_merge` of the entries of a dictionary into another one; `fuel` bounds the depth. -/
def deepMergeAt : Nat → Address → Entries → Heap → Heap
  | 0, _, _, heap => heap
  | fuel + 1, base, entries, heap =>
      entries.foldl (fun heap entry =>
        if entry.2 = .leaf .none then heap
        else
          match heap.dictAt entry.2, heap.dictAt (heap.getAt base entry.1) with
          | some (_, fields), some (inner, _) => deepMergeAt fuel inner fields heap
          | _, _ => heap.setAt base entry.1 entry.2) heap

section Execution

variable (python : Python)

/-- The preset of the endpoint; `none` where a template is read that is not a dictionary. -/
def presetOf (bridge : Option Bridge) : Option Fields :=
  match bridge with
  | none => some []
  | some bridge =>
      match bridge.endpoint with
      | none => some []
      | some endpoint => endpointPreset python endpoint bridge.connector

def backendOf (bridge : Option Bridge) : Value :=
  match bridge with
  | none => .dict []
  | some bridge => bridge.getBackendConfig python

/-- The entries of the node's configuration that are merged; their objects are not copied. -/
def snapshotOverridesAt (heap : Heap) (nodeConfig : Ref) (bridge : Option Bridge) : Entries :=
  match heap.dictAt nodeConfig with
  | none => []
  | some (_, entries) => entries.filter fun entry =>
      decide (entry.1 ∉ relationKeys.map Value.str) &&
        shouldApplySnapshotOverride python entry.1 (heap.read entry.2) bridge

/-- The objects after the configuration was built, and its address unless this raised. -/
def effectiveConfigAt (heap : Heap) (nodeConfig : Ref) (bridge : Option Bridge) :
    Heap × Option Address :=
  match presetOf python bridge with
  | none => (heap, none)
  | some preset =>
      let effective := build (.dict preset) heap
      let backend := build (backendOf python bridge) effective.2
      match backend.2.dictAt effective.1, backend.2.dictAt backend.1 with
      | some (config, _), some (_, fields) =>
          let heap := deepMergeAt (backend.2.length + 1) config fields backend.2
          let overrides := snapshotOverridesAt python heap nodeConfig bridge
          let heap := deepMergeAt (heap.length + 1) config overrides heap
          (heap.changeAt config fun entries =>
            entries.filter fun entry => entry.1 ∉ relationKeys.map Value.str, some config)
      | _, _ => (backend.2, none)

/-!
## Authentication
-/

/-- Append rows to the list of a key, or to a new one where it is missing or empty; `none` where
something else than a list is there. -/
def appendRowsAt (key : String) (fields : Fields) (config : Address) (heap : Heap) : Option Heap :=
  if fields = [] then some heap
  else
    let existing := heap.getAt config (.str key)
    let list := if heap.truthyAt existing then (existing, heap) else heap.allocate (.list [])
    match list.2.listAt list.1 with
    | none => none
    | some (address, items) =>
        let rows := buildItems (authRows fields) list.2
        some (setAt (rows.2.set address (.list (items ++ rows.1))) config (.str key) (.at address))

/-- The objects after one execution, and the configuration that the HTTP runner got. -/
def execute (auth : Fields × Fields) (nodeConfig : Ref) (bridge : Option Bridge) (heap : Heap) :
    Heap × Option Address :=
  match effectiveConfigAt python heap nodeConfig bridge with
  | (heap, none) => (heap, none)
  | (heap, some config) =>
      match appendRowsAt "headers" auth.1 config heap with
      | none => (heap, none)
      | some heap =>
          match appendRowsAt "query_params" auth.2 config heap with
          | none => (heap, none)
          | some heap => (heap, some config)

/-- The objects after some executions of the node. -/
def executions (auth : Fields × Fields) (nodeConfig : Ref) (bridge : Option Bridge) :
    Nat → Heap → Heap
  | 0, heap => heap
  | count + 1, heap => (execute python auth nodeConfig bridge
      (executions auth nodeConfig bridge count heap)).1

/-- The configuration that the HTTP runner gets from an execution, as it reads it. -/
def requestConfig (auth : Fields × Fields) (nodeConfig : Ref) (bridge : Option Bridge)
    (heap : Heap) : Option Value :=
  let executed := execute python auth nodeConfig bridge heap
  executed.2.map fun config => executed.1.read (.at config)

end Execution

/-- Without a bridge record there is no authentication. -/
def authOf (python : Expression.Python) (base64 : String → String)
    (broker : Value → Option Value) (bridge : Option Bridge) (profile : Option AuthProfile) :
    Fields × Fields :=
  if bridge.isNone then ([], []) else resolveAuth python base64 broker profile

end WorkflowStudio.Connector
