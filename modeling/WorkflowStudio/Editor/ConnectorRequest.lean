import WorkflowStudio.Lib.Trim
import WorkflowStudio.Editor.WorkflowEditor

/-! The clean-up of connector requests before a snapshot is sent: empty
relations, blank texts and tables without an enabled row are left out. -/

set_option autoImplicit false

namespace WorkflowStudio.Editor

open Lib

def connectorRelationKeys : List String :=
  ["connector_id", "workspace_id", "endpoint_id", "auth_profile_id"]

def isScriptSpace (char : Char) : Bool :=
  let code := char.toNat
  (9 ≤ code && code ≤ 13) || (0x2000 ≤ code && code ≤ 0x200A) ||
    [0x20, 0xA0, 0x1680, 0x2028, 0x2029, 0x202F, 0x205F, 0x3000, 0xFEFF].contains code

def scriptTrim (text : String) : String := String.ofList (trim isScriptSpace text.toList)

/-- `String(value)` consists of spaces; a list of two or more items contains a
comma, and a missing item is the empty text. -/
def isBlankString : Value → Bool
  | .none => true
  | .str text => text.toList.all isScriptSpace
  | .list [] => true
  | .list [item] => isBlankString item
  | _ => false

/-- `!String(value || "").trim()`. -/
def isBlankText (value : Option Value) : Bool :=
  match value with
  | none => true
  | some value => !value.scriptTruthy || isBlankString value

def isEnabledRow (row : Value) : Bool :=
  match row with
  | .dict entries =>
      (match entries.lookup (.str "key") with
        | some (.str key) => !(key.toList.all isScriptSpace)
        | _ => false) &&
        decide (entries.lookup (.str "enabled") ≠ some (.bool false))
  | _ => false

def hasEnabledKeyValueEntries (rows : Option Value) : Bool :=
  match rows with
  | some (.list rows) => rows.any isEnabledRow
  | _ => false

def isBlankBodyConfig (bodyConfig : Option Value) : Bool :=
  match bodyConfig with
  | some (.dict entries) =>
      let contentType := match entries.lookup (.str "content_type") with
        | some (.str text) => (scriptTrim text).toLower
        | _ => "none"
      if contentType = "" ∨ contentType = "none" then true
      else if contentType = "form_data" ∨ contentType = "urlencoded" then
        !hasEnabledKeyValueEntries (entries.lookup (.str "form_data"))
      else false
  | _ => true

def isEmptyRelation (value : Option Value) : Bool :=
  match value with
  | none | some .none | some (.str "") | some (.int 0) => true
  | _ => false

def eraseIf (config : Config) (key : String) (test : Option Value → Bool) : Config :=
  if test (config.get? key) then config.erase key else config

def sanitizeConnectorRequestConfig (rawConfig : Option Config) : Config :=
  match rawConfig with
  | none => OrderedMap.empty
  | some config =>
      let config := connectorRelationKeys.foldl
        (fun config key => eraseIf config key isEmptyRelation) config
      let config := eraseIf config "url" isBlankText
      let config := eraseIf config "method" isBlankText
      let config := eraseIf config "headers" fun rows => !hasEnabledKeyValueEntries rows
      let config := eraseIf config "query_params" fun rows => !hasEnabledKeyValueEntries rows
      let config := eraseIf config "body_config" isBlankBodyConfig
      eraseIf config "timeout" fun timeout =>
        match timeout with
        | none | some .none | some (.str "") => true
        | _ => false

def sanitizeConnectorRequestSnapshot (snapshot : Snapshot) : Snapshot :=
  { snapshot with
    nodes := snapshot.nodes.map fun node =>
      if node.type = "connector_request" then
        { node with config := some (sanitizeConnectorRequestConfig node.config) }
      else node }

end WorkflowStudio.Editor
