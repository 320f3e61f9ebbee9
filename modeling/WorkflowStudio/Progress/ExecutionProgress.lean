import WorkflowStudio.Executor.Machine

/-! The progress of an execution as the editor's store shows it, and the three
ways in which it is filled: the bus messages of a run, the result of the request
that started it, and a reset when an execution starts. -/

set_option autoImplicit false

namespace WorkflowStudio.Progress

open Lib Executor

inductive ShownStatus where
  | success
  | error
  | running
  deriving DecidableEq

/-- The status of a progress; a loaded run may have another one of its own. -/
inductive ProgressStatus where
  | running
  | completed
  | failed
  | other (text : String)
  deriving DecidableEq

structure ExecutionProgress where
  runId : Option Nat
  status : ProgressStatus
  nodeStatuses : OrderedMap String ShownStatus
  executedOrder : List String
  executedConnectionIds : List String
  executedConnections : List ConnectionEvent
  error : Option String
  deriving DecidableEq

def createFreshProgress (runId : Option Nat) : ExecutionProgress where
  runId := runId
  status := .running
  nodeStatuses := OrderedMap.empty
  executedOrder := []
  executedConnectionIds := []
  executedConnections := []
  error := none

/-- An assignment to a key of `nodeStatuses`. The setter of `__proto__` drops a
value that is no object. -/
def showStatus (statuses : OrderedMap String ShownStatus) (nodeId : String)
    (status : ShownStatus) : OrderedMap String ShownStatus :=
  if nodeId = "__proto__" then statuses else statuses.set nodeId status

/-!
## Bus messages
-/

def shownOf : NodeStatus → ShownStatus
  | .success => .success
  | .error => .error

namespace ExecutionProgress

def completeNode (progress : ExecutionProgress) (node : BusNode) : ExecutionProgress :=
  if node.nodeId = "" then progress
  else
    { progress with
      executedOrder :=
        if progress.executedOrder.getLast? = some node.nodeId then progress.executedOrder
        else progress.executedOrder ++ [node.nodeId]
      nodeStatuses := showStatus progress.nodeStatuses node.nodeId (shownOf node.status) }

def addConnection (progress : ExecutionProgress) (event : ConnectionEvent) : ExecutionProgress :=
  { progress with
    executedConnectionIds :=
      progress.executedConnectionIds ++ (present event.connectionId).toList
    executedConnections := progress.executedConnections ++ [event] }

def announce (progress : ExecutionProgress) (nextRunningNodeId : Option String) :
    ExecutionProgress :=
  match present nextRunningNodeId with
  | none => progress
  | some nodeId =>
      { progress with nodeStatuses := showStatus progress.nodeStatuses nodeId .running }

def finish (progress : ExecutionProgress) (report : Option FinalReport) : ExecutionProgress :=
  match report with
  | none => progress
  | some report =>
      { progress with
        status := match report.status with
          | .completed => .completed
          | .failed _ => .failed
        error := match report.status with
          | .completed => none
          | .failed error => present (some error)
        executedOrder := report.executedOrder
        executedConnectionIds := report.executedConnectionIds
        executedConnections := report.executedConnections }

/-- What a message that is not ignored does to the progress. -/
def merge (progress : ExecutionProgress) (message : BusMessage) : ExecutionProgress :=
  let progress := message.completedNodes.foldl completeNode progress
  let progress := message.connections.foldl addConnection progress
  (progress.announce message.nextRunningNodeId).finish message.report

end ExecutionProgress

/-- A run identifier that is there and is not zero. -/
def knownRun (runId : Option Nat) : Option Nat := runId.filter (fun run => run != 0)

def isOtherRun (shown received : Option Nat) : Bool :=
  match knownRun shown, knownRun received with
  | some shown, some received => shown != received
  | _, _ => false

/-- `onExecutionProgress`. -/
def onExecutionProgress (current : Option ExecutionProgress) (message : BusMessage) :
    Option ExecutionProgress :=
  let progress := current.getD (createFreshProgress message.runId)
  if isOtherRun progress.runId message.runId then some progress
  else some (progress.merge message)

/-- The messages of the bus, in the order in which they are delivered. -/
def receive (current : Option ExecutionProgress) (messages : List BusMessage) :
    Option ExecutionProgress :=
  messages.foldl onExecutionProgress current

/-!
## Results of requests
-/

structure NodeResult where
  nodeId : Option String
  errorMessage : Option String
  deriving DecidableEq

/-- The fields of a result, each absent or given. -/
structure ResultFields where
  runId : Option Nat := none
  status : Option ProgressStatus := none
  error : Option (Option String) := none
  executedOrder : Option (List String) := none
  executedConnectionIds : Option (List String) := none
  executedConnections : Option (List ConnectionEvent) := none
  nodeResults : List NodeResult := []
  deriving DecidableEq

def showResult (statuses : OrderedMap String ShownStatus) (result : NodeResult) :
    OrderedMap String ShownStatus :=
  match present result.nodeId with
  | none => statuses
  | some nodeId =>
      showStatus statuses nodeId
        (if (present result.errorMessage).isSome then .error else .success)

def buildNodeStatusesFromResults (results : List NodeResult) : OrderedMap String ShownStatus :=
  results.foldl showResult OrderedMap.empty

namespace ExecutionProgress

def assign (progress : ExecutionProgress) (fields : ResultFields) : ExecutionProgress where
  runId := fields.runId.or progress.runId
  status := fields.status.getD progress.status
  nodeStatuses :=
    progress.nodeStatuses.merge (buildNodeStatusesFromResults fields.nodeResults)
  executedOrder := fields.executedOrder.getD progress.executedOrder
  executedConnectionIds := fields.executedConnectionIds.getD progress.executedConnectionIds
  executedConnections := fields.executedConnections.getD progress.executedConnections
  error := fields.error.getD progress.error

/-- The connection identifiers are derived where none was given. -/
def deriveConnectionIds (progress : ExecutionProgress) : ExecutionProgress :=
  if progress.executedConnectionIds = [] ∧ progress.executedConnections ≠ [] then
    { progress with
      executedConnectionIds := getExecutedConnectionIds progress.executedConnections }
  else progress

end ExecutionProgress

def setExecutionResult (current : Option ExecutionProgress) (fields : ResultFields) :
    ExecutionProgress :=
  ((current.getD (createFreshProgress none)).assign fields).deriveConnectionIds

/-- The response of the request that executes a workflow. -/
structure ExecuteResponse where
  runId : Option Nat
  status : Option ProgressStatus
  error : Option String
  executedOrder : Option (List String)
  executedConnectionIds : Option (List String)
  executedConnections : Option (List ConnectionEvent)

/-- The response of the request that reads the run back. -/
structure RunDetails where
  runId : Option Nat
  id : Option Nat
  status : Option ProgressStatus
  error : Option String
  errorMessage : Option String
  executedOrder : Option (List String)
  executedConnectionIds : Option (List String)
  executedConnections : Option (List ConnectionEvent)
  nodeResults : List NodeResult

/-- What `executeWorkflow` passes to `setExecutionResult` once its requests have
been answered; `details` is `none` when the run could not be read back. -/
def executeWorkflowFields (result : ExecuteResponse) (details : Option RunDetails) :
    Option ResultFields :=
  match knownRun result.runId, details with
  | some runId, none =>
      some {
        runId := some runId
        status := some (result.status.getD .failed)
        error := some (some ((present result.error).getD "Failed to load run details")) }
  | some runId, some run =>
      some {
        runId := ((knownRun run.runId).or (knownRun run.id)).or (some runId)
        status := some ((run.status.or result.status).getD .completed)
        error := some ((present run.error).or ((present run.errorMessage).or
          (present result.error)))
        executedOrder := some ((run.executedOrder.or result.executedOrder).getD [])
        executedConnectionIds :=
          some ((run.executedConnectionIds.or result.executedConnectionIds).getD [])
        executedConnections :=
          some ((run.executedConnections.or result.executedConnections).getD [])
        nodeResults := run.nodeResults }
  | none, _ =>
      (present result.error).map fun error =>
        { status := some (result.status.getD .failed), error := some (some error) }

/-- `replaceExecutionResult`, for a run of the past that is looked at. -/
def replaceExecutionResult (fields : ResultFields) : ExecutionProgress :=
  setExecutionResult (some (createFreshProgress (knownRun fields.runId))) fields

end WorkflowStudio.Progress
