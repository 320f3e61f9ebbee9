import WorkflowStudio.Expression.Resolver
import WorkflowStudio.Lib.OrderedMap

/-! The configuration that a connector request runs with: the preset of its
endpoint, the backend configuration of its bridge record and the configuration
of the node, merged in this order. -/

set_option autoImplicit false

namespace WorkflowStudio.Connector

open Lib

/-- The Python functions that read numbers and read and print documents; `none`
is for a value or text that they do not accept. -/
structure Python where
  int : Value → Option Int
  loads : String → Option Value
  dumps : Value → String

/-- A dictionary, as its entries. -/
abbrev Fields := List (Value × Value)

def getField (fields : Fields) (key : String) : Option Value := fields.lookup (.str key)

def setField (fields : Fields) (key : String) (value : Value) : Fields :=
  OrderedMap.setEntries (.str key) value fields

/-- A text that a record leaves empty is the empty text. -/
structure WorkflowConnector where
  baseUrl : String
  deriving DecidableEq

structure Endpoint where
  method : Value
  connector : Option WorkflowConnector
  path : String
  timeoutSeconds : Int
  headersTemplate : String
  queryTemplate : String
  bodyTemplate : String
  deriving DecidableEq

structure Bridge where
  endpoint : Option Endpoint
  connector : Option WorkflowConnector
  backendConfigJson : String
  deriving DecidableEq

/-!
## Records
-/

def getEffectiveBaseUrl (connector : WorkflowConnector) : String :=
  String.ofList ((connector.baseUrl.toList.reverse.dropWhile (· == '/')).reverse)

def Endpoint.getEffectiveUrl (endpoint : Endpoint) (connector : Option WorkflowConnector) :
    String :=
  let base := ((connector.or endpoint.connector).map getEffectiveBaseUrl).getD ""
  let path := String.ofList (endpoint.path.toList.dropWhile (· == '/'))
  if base ≠ "" ∧ path ≠ "" then base ++ "/" ++ path else if base ≠ "" then base else path

section Merge

variable (python : Python)

def getParsedTemplate (template : String) : Value :=
  if template = "" then .none else (python.loads template).getD .none

def Bridge.getBackendConfig (bridge : Bridge) : Value :=
  if bridge.backendConfigJson = "" then .dict []
  else (python.loads bridge.backendConfigJson).getD (.dict [])

/-!
## The configuration of the node
-/

def relationKeys : List String := ["connector_id", "workspace_id", "endpoint_id", "auth_profile_id"]

def defaultTimeout : Int := 30

/-- `str(value).strip()` is not empty; only a text can be blank. -/
def isSolid : Value → Bool
  | .str text => !text.toList.all Expression.isSpace
  | _ => true

def isEnabledPair (pair : Value) : Bool :=
  match pair with
  | .dict fields =>
      ((getField fields "enabled").getD (.bool true)).truthy &&
        isSolid ((getField fields "key").getD (.str ""))
  | _ => false

def hasEnabledPairs (pairs : Value) : Bool :=
  match pairs with
  | .list pairs => pairs.any isEnabledPair
  | _ => false

def isBlankBodyConfig (bodyConfig : Value) : Bool :=
  match bodyConfig with
  | .dict fields =>
      match ((getField fields "content_type").getD .none).orElse (.str "none") with
      | .str text =>
          let contentType := (Expression.strip text).toLower
          if contentType = "" ∨ contentType = "none" then true
          else if contentType = "form_data" ∨ contentType = "urlencoded" then
            !hasEnabledPairs ((getField fields "form_data").getD .none)
          else false
      -- no other value prints as one of these texts
      | _ => false
  | _ => true

def endpointTimeout (bridge : Option Bridge) : Int :=
  ((bridge.bind Bridge.endpoint).map Endpoint.timeoutSeconds).getD 0

def appliesTimeout (value : Value) (bridge : Option Bridge) : Bool :=
  -- `value in (None, "", False)`, and `0 == False`
  if value ∈ [.none, .str "", .bool false, .int 0] then false
  else
    match python.int value with
    | none => false
    | some timeout => !decide (endpointTimeout bridge ≠ 0 ∧ timeout = defaultTimeout)

def shouldApplySnapshotOverride (key : Value) (value : Value) (bridge : Option Bridge) : Bool :=
  match key with
  | .str "url" | .str "method" => isSolid (value.orElse (.str ""))
  | .str "headers" | .str "query_params" | .str "path_params" => hasEnabledPairs value
  | .str "body_config" => !isBlankBodyConfig value
  | .str "timeout" => appliesTimeout python value bridge
  | _ => decide (value ≠ .none)

def buildSnapshotOverrides (nodeConfig : Fields) (bridge : Option Bridge) : Fields :=
  nodeConfig.filter fun field =>
    decide (field.1 ∉ relationKeys.map Value.str) &&
      shouldApplySnapshotOverride python field.1 field.2 bridge

/-!
## Merging
-/

mutual

/-- Lists are replaced and dictionaries are merged. -/
def mergeValue : Option Value → Value → Value
  | some (.dict inner), .dict fields => .dict (deepMerge inner fields)
  | _, value => value

/-- `_deep_merge`, where `None` overrides nothing. -/
def deepMerge : Fields → Fields → Fields
  | base, [] => base
  | base, (key, value) :: rest =>
      if value = .none then deepMerge base rest
      else deepMerge (OrderedMap.setEntries key (mergeValue (base.lookup key) value) base) rest

end

/-- The rows of a template; `none` where it is not a dictionary. -/
def templateRows (template : Value) : Option Value :=
  match template with
  | .dict fields => some (.list (fields.map fun field =>
      .dict [(.str "key", field.1), (.str "value", field.2), (.str "enabled", .bool true)]))
  | _ => none

/-- Set the rows of a template unless it is empty. -/
def setTemplate (effective : Fields) (key : String) (template : Value) : Option Fields :=
  if template.truthy then
    match templateRows template with
    | none => none
    | some rows => some (setField effective key rows)
  else some effective

def endpointPreset (endpoint : Endpoint) (connector : Option WorkflowConnector) : Option Fields :=
  let effective := setField [] "method" endpoint.method
  let url := endpoint.getEffectiveUrl connector
  let effective := if url ≠ "" then setField effective "url" (.str url) else effective
  let effective := if endpoint.timeoutSeconds ≠ 0 then
    setField effective "timeout" (.int endpoint.timeoutSeconds) else effective
  match setTemplate effective "headers" (getParsedTemplate python endpoint.headersTemplate) with
  | none => none
  | some effective =>
      match setTemplate effective "query_params"
          (getParsedTemplate python endpoint.queryTemplate) with
      | none => none
      | some effective =>
          let body := getParsedTemplate python endpoint.bodyTemplate
          some (if body.truthy then
            setField effective "body_config" (.dict [(.str "content_type", .str "json"),
              (.str "body", .str (python.dumps body))])
          else effective)

/-- The first two layers. -/
def bridgeConfig (bridge : Option Bridge) : Option Fields :=
  match bridge with
  | none => some []
  | some bridge =>
      let preset := match bridge.endpoint with
        | none => some []
        | some endpoint => endpointPreset python endpoint bridge.connector
      match preset, bridge.getBackendConfig python with
      | some effective, .dict backend => some (deepMerge effective backend)
      | _, _ => none

/-- `none` where a template or the backend configuration is read and not a dictionary. -/
def buildEffectiveConfig (nodeConfig : Fields) (bridge : Option Bridge) : Option Fields :=
  match bridgeConfig python bridge with
  | none => none
  | some effective =>
      some ((deepMerge effective (buildSnapshotOverrides python nodeConfig bridge)).filter
        fun field => field.1 ∉ relationKeys.map Value.str)

end Merge

end WorkflowStudio.Connector
