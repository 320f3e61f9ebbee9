import WorkflowStudio.Expression.Resolver
import WorkflowStudio.Workflow.Publishing

/-! The triggers of a workflow: their records with the cron job or automation
rule linked to each, and the operations that arm and disarm them. -/

set_option autoImplicit false

namespace WorkflowStudio.Workflow

open Lib

/-- What the triggers find installed: the node types of the trigger category,
the automation module, the models, and what an automation rule raises. -/
structure TriggerEnv where
  triggerTypes : List String
  baseAutomation : Bool
  knowsModel : String → Bool
  automationError : Value → Option String

inductive TriggerType where
  | manual
  | schedule
  | webhook
  | recordEvent
  deriving DecidableEq

/-- A trigger record. A linked cron job or automation rule is known by whether it is active. -/
structure Trigger where
  triggerType : TriggerType
  active : Bool
  cron : Option Bool
  automation : Option Bool
  webhookUuid : Bool
  deriving DecidableEq

/-- The records by their node, of which each has at most one. -/
structure TriggeredWorkflow extends IrWorkflow where
  triggers : OrderedMap String Trigger
  isActivated : Bool

/-!
## Nodes of a snapshot
-/

def snapshotNodes (snapshot : Value) : Except WorkflowError (List Value) :=
  match snapshot with
  | .dict entries =>
      match lookupField entries "nodes" with
      | none => .ok []
      | some (.list nodes) => .ok nodes
      | some other =>
          match len other with
          | .ok 0 => .ok []
          | _ => .error .malformed
  | _ => .error .malformed

def findNode (nodeId : String) : List Value → Except WorkflowError (Option Value)
  | [] => .ok none
  | node :: rest =>
      match getKey node "id" with
      | .error error => .error error
      | .ok id => if id = .str nodeId then .ok (some node) else findNode nodeId rest

def resolveTriggerType (node : Value) : TriggerType :=
  match getKey node "type" with
  | .ok (.str "schedule_trigger") => .schedule
  | .ok (.str "webhook_trigger") => .webhook
  | .ok (.str "record_event_trigger") => .recordEvent
  | _ => .manual

def isTriggerNode (env : TriggerEnv) (node : Value) : Except WorkflowError Bool :=
  match getKey node "type" with
  | .error error => .error error
  | .ok (.str type) => .ok (env.triggerTypes.contains type)
  | .ok (.list _) | .ok (.dict _) => .error .malformed
  | .ok _ => .ok false

def extractTriggerNodes (env : TriggerEnv) : List Value → Except WorkflowError (List Value)
  | [] => .ok []
  | node :: rest =>
      match isTriggerNode env node, extractTriggerNodes env rest with
      | .ok isTrigger, .ok others => .ok (if isTrigger then node :: others else others)
      | .error error, _ | _, .error error => .error error

/-!
## One trigger
-/

namespace Trigger

def new (triggerType : TriggerType) : Trigger where
  triggerType := triggerType
  active := false
  cron := none
  automation := none
  webhookUuid := false

/-- What `_activate_schedule` raises. -/
def scheduleError (config : Except WorkflowError Value) : Option WorkflowError :=
  match config with
  | .error error => some error
  | .ok config =>
      match getKey config "interval_type" with
      | .error error => some error
      | .ok given =>
          match given.orElse (.str "hours") with
          | .list _ | .dict _ => some .malformed
          | _ => none

/-- What `_activate_record_event` raises. -/
def recordEventError (env : TriggerEnv) (config : Except WorkflowError Value) :
    Option WorkflowError :=
  if env.baseAutomation = false then
    some (.rolledBack ("The 'Automated Actions' module (base_automation) must be " ++
      "installed to use record-event triggers."))
  else
    match config with
    | .error error => some error
    | .ok config =>
        match getKey config "model_name" with
        | .error error => some error
        | .ok given =>
            match given.orElse (.str "") with
            | .str modelName =>
                let modelName := Expression.strip modelName
                if modelName = "" then
                  some (.rolledBack "Record event trigger requires a target model.")
                else if env.knowsModel modelName then
                  (env.automationError config).map .rolledBack
                else some (.rolledBack ("Model '" ++ modelName ++ "' was not found."))
            | _ => some .malformed

/-- The `_activate_` method of the type of the trigger. -/
def link (env : TriggerEnv) (config : Except WorkflowError Value) (trigger : Trigger) :
    Except WorkflowError Trigger :=
  match trigger.triggerType with
  | .manual => .ok trigger
  | .webhook => .ok { trigger with webhookUuid := true }
  | .schedule =>
      match scheduleError config with
      | some error => .error error
      | none => .ok { trigger with cron := some true }
  | .recordEvent =>
      match recordEventError env config with
      | some error => .error error
      | none => .ok { trigger with automation := some true }

def actionActivate (env : TriggerEnv) (config : Except WorkflowError Value) (trigger : Trigger) :
    Except WorkflowError Trigger :=
  match trigger.link env config with
  | .error error => .error error
  | .ok linked => .ok { linked with active := true }

def actionDeactivate (trigger : Trigger) : Trigger :=
  match trigger.triggerType with
  | .schedule => { trigger with cron := trigger.cron.map fun _ => false, active := false }
  | .recordEvent =>
      { trigger with automation := trigger.automation.map fun _ => false, active := false }
  | .manual | .webhook => { trigger with active := false }

/-- A backend record that is missing is linked, and left as active as the trigger. -/
def ensureLinkedBackendRecord (env : TriggerEnv) (config : Except WorkflowError Value)
    (trigger : Trigger) : Except WorkflowError Trigger :=
  match trigger.triggerType with
  | .manual => .ok trigger
  | .webhook => .ok { trigger with webhookUuid := true }
  | .schedule =>
      if trigger.cron = none then
        match trigger.link env config with
        | .error error => .error error
        | .ok linked => .ok { linked with cron := some trigger.active }
      else .ok trigger
  | .recordEvent =>
      if trigger.automation = none then
        match trigger.link env config with
        | .error error => .error error
        | .ok linked => .ok { linked with automation := some trigger.active }
      else .ok trigger

/-- `get_trigger_panel_data`, which turns what the user did wrong into a warning. -/
def showPanel (env : TriggerEnv) (config : Except WorkflowError Value) (isPublished : Bool)
    (trigger : Trigger) : Except WorkflowError Trigger :=
  if trigger.triggerType = .webhook ∨ isPublished then
    match trigger.ensureLinkedBackendRecord env config with
    | .error (.rolledBack _) => .ok trigger
    | shown => shown
  else .ok trigger

end Trigger

/-!
## The triggers of a workflow
-/

namespace TriggeredWorkflow

/-- A workflow for which no trigger has been recorded. -/
def ofWorkflow (workflow : IrWorkflow) : TriggeredWorkflow where
  toIrWorkflow := workflow
  triggers := OrderedMap.empty
  isActivated := false

def isPublished (workflow : TriggeredWorkflow) : Bool := workflow.publishedSnapshot.truthy

/-- The configuration of a node in the published snapshot. -/
def getNodeConfig (workflow : TriggeredWorkflow) (nodeId : String) : Except WorkflowError Value :=
  match snapshotNodes (workflow.publishedSnapshot.orElse (.dict [])) with
  | .error error => .error error
  | .ok nodes =>
      match findNode nodeId nodes with
      | .error error => .error error
      | .ok none => .ok (.dict [])
      | .ok (some (.dict entries)) => .ok ((lookupField entries "config").getD (.dict []))
      | .ok (some _) => .error .malformed

/-- The node in the draft, or else in the published snapshot. -/
def getGraphNode (workflow : TriggeredWorkflow) (nodeId : String) :
    Except WorkflowError (Option Value) :=
  match snapshotNodes (workflow.draftSnapshot.orElse (.dict [])) with
  | .error error => .error error
  | .ok drafted =>
      match findNode nodeId drafted with
      | .error error => .error error
      | .ok (some node) => .ok (some node)
      | .ok none =>
          match snapshotNodes (workflow.publishedSnapshot.orElse (.dict [])) with
          | .error error => .error error
          | .ok published => findNode nodeId published

def activate (env : TriggerEnv) (workflow : TriggeredWorkflow) (nodeId : String)
    (trigger : Trigger) : Except WorkflowError Trigger :=
  trigger.actionActivate env (workflow.getNodeConfig nodeId)

/-- The record that a node of the published snapshot is activated with. -/
def recordFor (existing : List String) (triggers : OrderedMap String Trigger) (nodeId : String)
    (triggerType : TriggerType) : Except WorkflowError Trigger :=
  match triggers.get? nodeId with
  | none => .ok (Trigger.new triggerType)
  | some trigger =>
      if nodeId ∈ existing then
        if trigger.triggerType = triggerType then .ok trigger
        else .ok { trigger.actionDeactivate with triggerType := triggerType }
      else .error (.rolledBack "A trigger already exists for this node in this workflow.")

/-- The loop over the trigger nodes, with the identifiers it has seen. -/
def activateNodes (env : TriggerEnv) (workflow : TriggeredWorkflow) :
    List Value → OrderedMap String Trigger → List String →
      Except WorkflowError (OrderedMap String Trigger × List String)
  | [], triggers, seen => .ok (triggers, seen)
  | node :: rest, triggers, seen =>
      match getKey node "id" with
      | .ok (.str nodeId) =>
          match recordFor workflow.triggers.keys triggers nodeId (resolveTriggerType node) with
          | .error error => .error error
          | .ok trigger =>
              match workflow.activate env nodeId trigger with
              | .error error => .error error
              | .ok activated =>
                  activateNodes env workflow rest (triggers.set nodeId activated) (seen ++ [nodeId])
      | _ => .error .malformed

def deactivateOne (triggers : OrderedMap String Trigger) (nodeId : String) :
    OrderedMap String Trigger :=
  match triggers.get? nodeId with
  | none => triggers
  | some trigger => triggers.set nodeId trigger.actionDeactivate

def actionActivateTriggers (env : TriggerEnv) (workflow : TriggeredWorkflow) :
    Except WorkflowError TriggeredWorkflow :=
  if workflow.isPublished = false then
    .error (.rolledBack ("Workflow '" ++ workflow.name ++ "' must be published before activation."))
  else
    match (snapshotNodes workflow.publishedSnapshot).bind (extractTriggerNodes env) with
    | .error error => .error error
    | .ok [] => .error (.rolledBack ("Workflow '" ++ workflow.name ++ "' has no trigger nodes."))
    | .ok triggerNodes =>
        match activateNodes env workflow triggerNodes workflow.triggers [] with
        | .error error => .error error
        | .ok (triggers, seen) => .ok { workflow with
            triggers := (workflow.triggers.keys.filter fun nodeId => nodeId ∉ seen).foldl
              deactivateOne triggers
            isActivated := true }

def actionDeactivateTriggers (workflow : TriggeredWorkflow) : TriggeredWorkflow :=
  { workflow with
    triggers := workflow.triggers.keys.foldl deactivateOne workflow.triggers
    isActivated := false }

def ensureTriggerRecord (workflow : TriggeredWorkflow) (nodeId : String) :
    Except WorkflowError Trigger :=
  match workflow.getGraphNode nodeId with
  | .error error => .error error
  | .ok none => .error (.rolledBack ("Trigger node '" ++ nodeId ++ "' was not found."))
  | .ok (some node) =>
      match workflow.triggers.get? nodeId with
      | some trigger => .ok trigger
      | none => .ok (Trigger.new (resolveTriggerType node))

/-- Store a changed record, count the active ones, and show the panel. -/
def withTrigger (env : TriggerEnv) (workflow : TriggeredWorkflow) (nodeId : String)
    (trigger : Trigger) : Except WorkflowError TriggeredWorkflow :=
  match trigger.showPanel env (workflow.getNodeConfig nodeId) workflow.isPublished with
  | .error error => .error error
  | .ok shown => .ok { workflow with
      triggers := workflow.triggers.set nodeId shown
      isActivated :=
        (workflow.triggers.set nodeId trigger).values.any fun trigger => trigger.active }

def activateTriggerNode (env : TriggerEnv) (workflow : TriggeredWorkflow) (nodeId : String) :
    Except WorkflowError TriggeredWorkflow :=
  if workflow.isPublished = false then
    .error (.rolledBack "Workflow must be saved before activation.")
  else
    match workflow.ensureTriggerRecord nodeId with
    | .error error => .error error
    | .ok trigger =>
        match workflow.activate env nodeId trigger with
        | .error error => .error error
        | .ok activated => workflow.withTrigger env nodeId activated

def deactivateTriggerNode (env : TriggerEnv) (workflow : TriggeredWorkflow) (nodeId : String) :
    Except WorkflowError TriggeredWorkflow :=
  match workflow.ensureTriggerRecord nodeId with
  | .error error => .error error
  | .ok trigger => workflow.withTrigger env nodeId trigger.actionDeactivate

end TriggeredWorkflow

/-!
## Runs
-/

inductive TriggerOperation where
  | saveWorkflow (author : Author) (snapshot : Value) (expectedHash failure : Option String)
  | actionPublish (failure : Option String)
  | actionUnpublish
  | restoreVersion (author : Author) (revisionId : Nat)
  | actionActivateTriggers
  | actionDeactivateTriggers
  | activateTriggerNode (nodeId : String)
  | deactivateTriggerNode (nodeId : String)

namespace TriggerOperation

/-- An operation on the workflow alone leaves its triggers as they are. -/
def onWorkflow (digests : Digests) (workflow : TriggeredWorkflow) (operation : WorkflowOperation) :
    TriggeredWorkflow :=
  { workflow with toIrWorkflow := operation.apply digests workflow.toIrWorkflow }

/-- The workflow that an answer leaves; an error leaves it as it was. -/
def settled (workflow : TriggeredWorkflow) :
    Except WorkflowError TriggeredWorkflow → TriggeredWorkflow
  | .ok changed => changed
  | .error _ => workflow

def apply (digests : Digests) (env : TriggerEnv) (workflow : TriggeredWorkflow) :
    TriggerOperation → TriggeredWorkflow
  | .saveWorkflow author snapshot expectedHash failure =>
      onWorkflow digests workflow (.saveWorkflow author snapshot expectedHash failure)
  | .actionPublish failure => onWorkflow digests workflow (.actionPublish failure)
  | .actionUnpublish => onWorkflow digests workflow .actionUnpublish
  | .restoreVersion author revisionId =>
      onWorkflow digests workflow (.restoreVersion author revisionId)
  | .actionActivateTriggers => settled workflow (workflow.actionActivateTriggers env)
  | .actionDeactivateTriggers => workflow.actionDeactivateTriggers
  | .activateTriggerNode nodeId => settled workflow (workflow.activateTriggerNode env nodeId)
  | .deactivateTriggerNode nodeId => settled workflow (workflow.deactivateTriggerNode env nodeId)

end TriggerOperation

end WorkflowStudio.Workflow
