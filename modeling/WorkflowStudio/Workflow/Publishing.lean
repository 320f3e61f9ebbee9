import WorkflowStudio.Workflow.Saving

/-! The draft of a workflow and its published copy: creating, publishing,
unpublishing, restoring and copying a workflow, and the snapshot that an
execution takes. -/

set_option autoImplicit false

namespace WorkflowStudio.Workflow

open Lib

inductive WorkflowError where
  | emptyWorkflow
  | notPublished
  | noNodes
  | tooManyNodes (name : String) (count : Nat)
  | revision (message : String)
  /-- A stored value has not the shape that the code reads. -/
  | malformed
  /-- A later part of the request raises, and its writes are rolled back. -/
  | rolledBack (message : String)
  deriving DecidableEq

def WorkflowError.message : WorkflowError → String
  | .emptyWorkflow => "Cannot publish an empty workflow."
  | .notPublished => "Workflow must be published before execution."
  | .noNodes => "Published workflow has no nodes."
  | .tooManyNodes name count => (SaveError.tooManyNodes name count).message
  | .revision message => message
  | .malformed => "Malformed snapshot."
  | .rolledBack message => message

/-- `value.get(key)`, where a missing key gives `None`. -/
def getKey (value : Value) (key : String) : Except WorkflowError Value :=
  match value with
  | .dict entries => .ok ((lookupField entries key).getD .none)
  | _ => .error .malformed

def len : Value → Except WorkflowError Nat
  | .str text => .ok text.length
  | .list items | .tuple items => .ok items.length
  | .dict entries => .ok entries.length
  | _ => .error .malformed

def nodeCount (draft : Value) : Except WorkflowError Nat :=
  if draft.truthy then
    match draft with
    | .dict entries => len ((lookupField entries "nodes").getD (.list []))
    | _ => .error .malformed
  else .ok 0

def checkNodeLimit (name : String) (draft : Value) : Except WorkflowError Unit :=
  match nodeCount draft with
  | .error error => .error error
  | .ok count => if maxNodes < count then .error (.tooManyNodes name count) else .ok ()

/-- The values that `create` is given; a missing one takes its default. -/
structure CreateValues where
  name : String
  draftSnapshot : Option Value := none
  publishedSnapshot : Option Value := none
  publishedVersion : Option Nat := none

def emptyDraft : Value :=
  .dict [(.str "nodes", .list []), (.str "connections", .list []), (.str "metadata", .dict [])]

/-- An empty JSON value is stored as `False`. -/
def stored (value : Value) : Value := value.orElse (.bool false)

namespace IrWorkflow

/-- `blobs` are the snapshots that the records before it have stored. -/
def create (values : CreateValues) (blobs : OrderedMap String Value) :
    Except WorkflowError IrWorkflow :=
  let draft := stored (values.draftSnapshot.getD emptyDraft)
  match checkNodeLimit values.name draft with
  | .error error => .error error
  | .ok _ => .ok {
      toHistoryRecord := HistoryRecord.fresh draft blobs
      name := values.name
      version := 1
      publishedSnapshot := stored (values.publishedSnapshot.getD (.dict []))
      publishedVersion := values.publishedVersion.getD 0 }

/-- The copy, with the draft that the caller may give for it. -/
def copy (workflow : IrWorkflow) (draftSnapshot : Option Value) : Except WorkflowError IrWorkflow :=
  create {
    name := workflow.name ++ " (Copy)"
    draftSnapshot := some (draftSnapshot.getD workflow.draftSnapshot)
    publishedSnapshot := some (.dict [])
    publishedVersion := some 0 } workflow.blobs

def actionPublish (workflow : IrWorkflow) (failure : Option String) :
    Except WorkflowError IrWorkflow :=
  if workflow.draftSnapshot.truthy = false then .error .emptyWorkflow
  else
    match workflow.draftSnapshot with
    | .dict entries =>
        if ((lookupField entries "nodes").getD .none).truthy = false then .error .emptyWorkflow
        else
          match failure with
          | some message => .error (.rolledBack message)
          | none => .ok { workflow with
              publishedSnapshot := withoutPinData entries
              publishedVersion := workflow.version }
    | _ => .error .malformed

def actionUnpublish (workflow : IrWorkflow) : IrWorkflow :=
  { workflow with
    publishedSnapshot := stored (.dict [])
    publishedVersion := 0 }

def restoreVersion (digests : Digests) (author : Author) (workflow : IrWorkflow)
    (revisionId : Nat) : Except WorkflowError IrWorkflow :=
  match workflow.toHistoryRecord.restore digests author revisionId with
  | .error message => .error (.revision message)
  | .ok (record, _) =>
      match checkNodeLimit workflow.name record.draftSnapshot with
      | .error error => .error error
      | .ok _ => .ok { workflow with
          toHistoryRecord := record
          version := workflow.version + 1 }

def createMilestone (digests : Digests) (author : Author) (workflow : IrWorkflow)
    (name : Option String) : IrWorkflow :=
  { workflow with
    toHistoryRecord := (workflow.toHistoryRecord.createMilestone digests author name).1 }

def markMilestone (workflow : IrWorkflow) (revisionId : Nat) (name : Option String) :
    Except WorkflowError IrWorkflow :=
  match workflow.toHistoryRecord.markMilestone revisionId name with
  | .error message => .error (.revision message)
  | .ok record => .ok { workflow with toHistoryRecord := record }

def unmarkMilestone (workflow : IrWorkflow) (revisionId : Nat) : IrWorkflow :=
  { workflow with toHistoryRecord := workflow.toHistoryRecord.unmarkMilestone revisionId }

/-!
## Executions
-/

/-- The pinned data of the draft, under its current or its old key. -/
def draftPinData (workflow : IrWorkflow) : Except WorkflowError Value :=
  match getKey (workflow.draftSnapshot.orElse (.dict [])) "metadata" with
  | .error error => .error error
  | .ok metadata =>
      match getKey (metadata.orElse (.dict [])) "pin_data",
        getKey (metadata.orElse (.dict [])) "pinData" with
      | .ok pinData, .ok legacy => .ok (pinData.orElse legacy)
      | .error error, _ | _, .error error => .error error

/-- The snapshot with pinned data in its metadata. -/
def withPinData (entries : List (Value × Value)) (pinData : Value) : Value :=
  let metadata := match lookupField entries "metadata" with
    | some (.dict fields) => fields
    | _ => []
  .dict (OrderedMap.setEntries (.str "metadata")
    (.dict ((OrderedMap.setEntries (.str "pin_data") pinData metadata).filter fun field =>
      field.1 ≠ .str "pinData")) entries)

def prepareExecutionSnapshot (workflow : IrWorkflow) (includePinData : Bool) :
    Except WorkflowError Value :=
  if workflow.publishedSnapshot.truthy = false then .error .notPublished
  else
    match workflow.publishedSnapshot with
    | .dict entries =>
        if ((lookupField entries "nodes").getD .none).truthy = false then .error .noNodes
        else if includePinData then
          match workflow.draftPinData with
          | .error error => .error error
          | .ok pinData =>
              .ok (if pinData.truthy then withPinData entries pinData else .dict entries)
        else .ok (.dict entries)
    | _ => .error .malformed

end IrWorkflow

/-- What the executor finds pinned for a node in the snapshot it runs. -/
def getPinReference (snapshot : Value) (nodeId : String) : Except WorkflowError Value :=
  match getKey snapshot "metadata" with
  | .error error => .error error
  | .ok metadata =>
      match getKey (metadata.orElse (.dict [])) "pin_data" with
      | .error error => .error error
      | .ok pinStore =>
          if isDict pinStore then getKey pinStore nodeId
          else
            match getKey (metadata.orElse (.dict [])) "pinData" with
            | .error error => .error error
            | .ok legacy => getKey (legacy.orElse (.dict [])) nodeId

/-!
## Runs
-/

/-- What can happen to a workflow. A copy is followed in place of its original,
and other records may store snapshots of their own. -/
inductive WorkflowOperation where
  | saveWorkflow (author : Author) (snapshot : Value) (expectedHash failure : Option String)
  | actionPublish (failure : Option String)
  | actionUnpublish
  | restoreVersion (author : Author) (revisionId : Nat)
  | createMilestone (author : Author) (name : Option String)
  | markMilestone (revisionId : Nat) (name : Option String)
  | unmarkMilestone (revisionId : Nat)
  | copy (draftSnapshot : Option Value)
  | storeElsewhere (snapshot : Value)

/-- The workflow that an answer leaves; an error leaves it as it was. -/
def settled (workflow : IrWorkflow) : Except WorkflowError IrWorkflow → IrWorkflow
  | .ok changed => changed
  | .error _ => workflow

def WorkflowOperation.apply (digests : Digests) (workflow : IrWorkflow) :
    WorkflowOperation → IrWorkflow
  | .saveWorkflow author snapshot expectedHash failure =>
      match workflow.saveWorkflow digests author snapshot expectedHash failure with
      | .ok (saved, _) => saved
      | .error _ => workflow
  | .actionPublish failure => settled workflow (workflow.actionPublish failure)
  | .actionUnpublish => workflow.actionUnpublish
  | .restoreVersion author revisionId =>
      settled workflow (workflow.restoreVersion digests author revisionId)
  | .createMilestone author name => workflow.createMilestone digests author name
  | .markMilestone revisionId name => settled workflow (workflow.markMilestone revisionId name)
  | .unmarkMilestone revisionId => workflow.unmarkMilestone revisionId
  | .copy draftSnapshot => settled workflow (workflow.copy draftSnapshot)
  | .storeElsewhere snapshot =>
      { workflow with
        blobs := (HistoryRecord.getOrCreateFromSnapshot digests workflow.blobs snapshot).1 }

def IrWorkflow.run (digests : Digests) (workflow : IrWorkflow)
    (operations : List WorkflowOperation) : IrWorkflow :=
  operations.foldl (WorkflowOperation.apply digests) workflow

end WorkflowStudio.Workflow
