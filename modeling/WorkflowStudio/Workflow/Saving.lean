import WorkflowStudio.Workflow.History

/-! Loading and saving a workflow: the server side with its conflict detection,
and the editors that keep the version hash of their last load or save. -/

set_option autoImplicit false

namespace WorkflowStudio.Workflow

open Lib

structure IrWorkflow extends HistoryRecord where
  name : String
  version : Nat
  publishedSnapshot : Value
  publishedVersion : Nat

inductive SaveError where
  | conflict
  | invalidFormat
  | tooManyNodes (name : String) (count : Nat)
  /-- A later part of the request raises, and its writes are rolled back. -/
  | rolledBack (message : String)
  deriving DecidableEq

def maxNodes : Nat := 200

def SaveError.message : SaveError → String
  | .conflict => "Workflow was modified by another user. Please reload to see changes."
  | .invalidFormat => "Invalid snapshot format."
  | .tooManyNodes name count =>
      s!"Workflow '{name}' has {count} nodes. Maximum allowed is {maxNodes}."
  | .rolledBack message => message

structure SaveResponse where
  version : Nat
  versionHash : Option String
  nodeCount : Nat
  isPublished : Bool

/-!
## Snapshots
-/

def isList : Value → Bool
  | .list _ => true
  | _ => false

def isDict : Value → Bool
  | .dict _ => true
  | _ => false

def lookupField (entries : List (Value × Value)) (key : String) : Option Value :=
  entries.lookup (.str key)

def ensureField (key : String) (fits : Value → Bool) (fallback : Value)
    (entries : List (Value × Value)) : List (Value × Value) :=
  match (lookupField entries key).filter fits with
  | some _ => entries
  | none => OrderedMap.setEntries (.str key) fallback entries

def ensureRequiredKeys (entries : List (Value × Value)) : List (Value × Value) :=
  ensureField "metadata" isDict (.dict [])
    (ensureField "connections" isList (.list [])
      (ensureField "nodes" isList (.list []) entries))

def nodesOf (entries : List (Value × Value)) : List Value :=
  match lookupField entries "nodes" with
  | some (.list nodes) => nodes
  | _ => []

/-- The published copy of a snapshot, without pinned data. -/
def withoutPinData (entries : List (Value × Value)) : Value :=
  match lookupField entries "metadata" with
  | some (.dict fields) =>
      .dict (OrderedMap.setEntries (.str "metadata")
        (.dict (fields.filter fun field =>
          field.1 ≠ .str "pin_data" ∧ field.1 ≠ .str "pinData")) entries)
  | _ => .dict entries

/-!
## The server
-/

namespace IrWorkflow

/-- `version_hash`; `none` is `False`, the hash of an empty draft. -/
def hashOf (digests : Digests) (draft : Value) : Option String :=
  if draft.truthy then some (digests.version draft) else none

def versionHash (digests : Digests) (workflow : IrWorkflow) : Option String :=
  hashOf digests workflow.draftSnapshot

def loadedDraft (workflow : IrWorkflow) : Value := workflow.draftSnapshot.orElse (.dict [])

def writeDraft (digests : Digests) (author : Author) (workflow : IrWorkflow) (snapshot : Value) :
    IrWorkflow :=
  { workflow with
    toHistoryRecord := (workflow.toHistoryRecord.write digests author none snapshot).1
    version := workflow.version + 1 }

def publish (workflow : IrWorkflow) (entries : List (Value × Value)) : IrWorkflow :=
  if nodesOf entries = [] then workflow
  else
    { workflow with
      publishedSnapshot := withoutPinData entries
      publishedVersion := workflow.version }

/-- `failure` is an error that the synchronisation of the requests raises. -/
def saveWorkflow (digests : Digests) (author : Author) (workflow : IrWorkflow) (snapshot : Value)
    (expectedHash failure : Option String) : Except SaveError (IrWorkflow × SaveResponse) :=
  if expectedHash ≠ none ∧ workflow.versionHash digests ≠ none ∧
      expectedHash ≠ workflow.versionHash digests then
    .error .conflict
  else
    match snapshot with
    | .dict fields =>
        let entries := ensureRequiredKeys fields
        if maxNodes < (nodesOf entries).length then
          .error (.tooManyNodes workflow.name (nodesOf entries).length)
        else
          match failure with
          | some message => .error (.rolledBack message)
          | none =>
              let saved := (workflow.writeDraft digests author (.dict entries)).publish entries
              .ok (saved, {
                version := saved.version
                versionHash := saved.versionHash digests
                nodeCount := (nodesOf entries).length
                isPublished := saved.publishedSnapshot.truthy })
    | _ => .error .invalidFormat

end IrWorkflow

/-!
## The editors
-/

/-- An editor that loaded the workflow: the hash it sends, and the draft it last
loaded or saved. -/
structure EditorClient where
  versionHash : Option String
  seen : Value

structure Site where
  workflow : IrWorkflow
  clients : Nat → Option EditorClient

inductive Request where
  | load (client : Nat)
  | save (client : Nat) (author : Author) (snapshot : Value) (failure : Option String)

namespace Site

def unopened (workflow : IrWorkflow) : Site where
  workflow := workflow
  clients := fun _ => none

def withClient (site : Site) (client : Nat) (editor : EditorClient) : Site :=
  { site with clients := fun other => if other = client then some editor else site.clients other }

def answer (digests : Digests) (site : Site) (editor : EditorClient) (author : Author)
    (snapshot : Value) (failure : Option String) : Except SaveError (IrWorkflow × SaveResponse) :=
  site.workflow.saveWorkflow digests author snapshot editor.versionHash failure

end Site

def Request.serve (digests : Digests) (site : Site) : Request → Site
  | .load client =>
      site.withClient client {
        versionHash := site.workflow.versionHash digests
        seen := site.workflow.loadedDraft }
  | .save client author snapshot failure =>
      match site.clients client with
      | none => site
      | some editor =>
          match site.answer digests editor author snapshot failure with
          | .error _ => site
          | .ok (workflow, response) =>
              { site with workflow := workflow }.withClient client {
                versionHash := response.versionHash
                seen := workflow.loadedDraft }

end WorkflowStudio.Workflow
