import WorkflowStudio.Connector.EffectiveConfig
import WorkflowStudio.Lib.Replacing

/-! The authentication profile of a connector: the secrets of its slots, the headers and query
parameters that it writes them into, and the way of these to the request. -/

set_option autoImplicit false

namespace WorkflowStudio.Connector

open Lib Lib.Replacing Expression

inductive AuthType where
  | apiKey
  | bearer
  | basic
  | oauth2ClientCredentials
  | oauth2RefreshToken
  | hmac
  | jwtAssertion
  | custom
  | none
  deriving DecidableEq

structure AuthProfile where
  authType : AuthType
  secretRefsJson : String
  headerTemplateJson : String
  queryTemplateJson : String

/-- The value of each slot, in the order of the references. -/
abbrev Secrets := List (String × Value)

section Profile

variable (python : Expression.Python)

/-- `get_secret_refs`, `get_header_template` and `get_query_template`. -/
def parsedJson (text : String) : Value :=
  if text = "" then .dict [] else (python.jsonLoads text).getD (.dict [])

/-- `value.items()`, which only a dictionary has. -/
def itemsOf : Value → Option Fields
  | .dict fields => some fields
  | _ => none

/-- The secrets of the references; a reference that the broker refuses is empty. -/
def resolveSecrets (broker : Value → Option Value) (refs : Fields) : Secrets :=
  refs.map fun ref => (python.str ref.1, (broker ref.2).getD (.str ""))

def getSecret (secrets : Secrets) (slot : String) : Value :=
  (secrets.lookup slot).getD (.str "")

def placeholder (slot : String) : List Char :=
  ['\x7b', '\x7b'] ++ slot.toList ++ ['\x7d', '\x7d']

/-- `text.replace(placeholder, value)`; only texts can be replaced, and only by texts. -/
def replaceSlot : Value → String × Value → Option Value
  | .str text, (slot, .str value) =>
      some (.str (String.ofList (replaceAll (placeholder slot) value.toList text.toList)))
  | _, _ => none

def headerText (secrets : Secrets) (text : Value) : Option Value :=
  secrets.foldlM replaceSlot text

def queryText (secrets : Secrets) (text : Value) : Option Value :=
  secrets.foldlM (fun text secret => replaceSlot (.str (python.str text)) secret) text

def templateHeaders (secrets : Secrets) (template : Value) : Option Fields :=
  (itemsOf template).bind fun fields =>
    fields.mapM fun field => (headerText secrets field.2).map fun text => (field.1, text)

def bearerHeader (token : Value) : Fields :=
  if token.truthy then [(.str "Authorization", .str ("Bearer " ++ python.str token))] else []

/-- The headers of a profile once its secrets are known; `base64` encodes the credentials. -/
def authHeaders (base64 : String → String) (authType : AuthType) (secrets : Secrets)
    (headerTemplate : Value) : Option Fields :=
  match authType with
  | .none => some []
  | .bearer => some (bearerHeader python (getSecret secrets "token"))
  | .basic =>
      let username := getSecret secrets "username"
      let password := getSecret secrets "password"
      some (if username.truthy then
        [(.str "Authorization",
          .str ("Basic " ++ base64 (python.str username ++ ":" ++ python.str password)))]
      else [])
  | .oauth2ClientCredentials | .oauth2RefreshToken =>
      some (bearerHeader python (getSecret secrets "access_token"))
  | .apiKey | .hmac | .jwtAssertion | .custom => templateHeaders secrets headerTemplate

def authQueryParams (authType : AuthType) (secrets : Secrets) (queryTemplate : Value) :
    Option Fields :=
  if authType = .none then some []
  else (itemsOf queryTemplate).bind fun fields =>
    fields.mapM fun field => (queryText python secrets field.2).map fun text => (field.1, text)

def buildAuthHeaders (base64 : String → String) (broker : Value → Option Value)
    (profile : AuthProfile) : Option Fields :=
  if profile.authType = .none then some []
  else (itemsOf (parsedJson python profile.secretRefsJson)).bind fun refs =>
    authHeaders python base64 profile.authType (resolveSecrets python broker refs)
      (parsedJson python profile.headerTemplateJson)

def buildAuthQueryParams (broker : Value → Option Value) (profile : AuthProfile) :
    Option Fields :=
  if profile.authType = .none then some []
  else (itemsOf (parsedJson python profile.secretRefsJson)).bind fun refs =>
    authQueryParams python profile.authType (resolveSecrets python broker refs)
      (parsedJson python profile.queryTemplateJson)

/-- `_resolve_auth`: without a profile, or where it raises, there are none. -/
def resolveAuth (base64 : String → String) (broker : Value → Option Value)
    (profile : Option AuthProfile) : Fields × Fields :=
  match profile with
  | none => ([], [])
  | some profile =>
      match buildAuthHeaders python base64 broker profile,
          buildAuthQueryParams python broker profile with
      | some headers, some queryParams => (headers, queryParams)
      | _, _ => ([], [])

/-- The rows that are added to the configuration of the request. -/
def authRows (fields : Fields) : List Value :=
  fields.map fun field =>
    .dict [(.str "key", field.1), (.str "value", field.2), (.str "enabled", .bool true)]

/-!
## The request
-/

variable (evaluator : Evaluator)

def resolveStr (value : Value) : Resolution String :=
  (resolve python evaluator value).bind fun result =>
    .done (if result = .none then "" else python.str result)

def isHashable : Value → Bool
  | .list _ | .dict _ => false
  | _ => true

/-- The field that a row adds, if it is enabled and has a key. -/
def buildPair (row : Value) : Resolution Fields :=
  match row with
  | .dict fields =>
      let key := (getField fields "key").getD (.str "")
      if ((getField fields "enabled").getD (.bool true)).truthy && key.truthy then
        (resolveStr python evaluator ((getField fields "value").getD (.str ""))).bind fun text =>
          if isHashable key then .done [(key, .str text)] else .fail "unhashable type"
      else .done []
  | _ => .done []

/-- `_build_headers` and `_build_query_params`. -/
def buildPairs (rows : Value) : Resolution Fields :=
  match rows with
  | .list rows =>
      (Logged.each (buildPair python evaluator) rows).bind fun found =>
        .done (found.flatten.foldl (fun fields pair => OrderedMap.setEntries pair.1 pair.2 fields) [])
  | _ => .done []

end Profile

end WorkflowStudio.Connector
