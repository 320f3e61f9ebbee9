import WorkflowStudio.Executor.Machine

/-! Launching a published workflow: the start nodes that a launch selects, and
the pipeline that prepares the run, executes it and settles its status. -/

set_option autoImplicit false

namespace WorkflowStudio.Executor

open Lib

structure LaunchRequest where
  inputData : Value
  executionMode : String
  startNodeIds : List String
  notifyUser : Bool
  deriving DecidableEq

/-- The values of a run that is created but not executed yet. -/
structure PendingRun where
  snapshot : Snapshot
  inputData : Value
  executionMode : String
  startNodeIds : List String
  deriving DecidableEq

inductive RunStatus where
  | completed
  | failed
  deriving DecidableEq

/-- A run after the pipeline, with the final state of its executor. What a
failed run leaves unwritten has its default. -/
structure LaunchedRun (World : Type) extends PendingRun where
  state : State World
  status : RunStatus
  outputData : Value
  executedConnections : List ConnectionEvent
  nodeCountExecuted : Nat
  executionCount : Nat
  errorMessage : Option String
  errorNodeId : Option String

/-!
## Start nodes
-/

def automatedTriggerTypes : List String :=
  ["schedule_trigger", "webhook_trigger", "record_event_trigger"]

/-- The nodes that the Run button starts from: the manual triggers without
incoming connections, or else such nodes that no automation fires. -/
def findManualStartNodes (snapshot : Snapshot) : List String :=
  let startIds := snapshot.nodesById.keys.filter fun nodeId => !snapshot.hasIncoming nodeId
  let typeOf := fun nodeId => (snapshot.nodesById.get? nodeId).map Node.type
  match startIds.filter fun nodeId => decide (typeOf nodeId = some "manual_trigger") with
  | [] =>
      match startIds.filter fun nodeId =>
          decide (∀ type, typeOf nodeId = some type → type ∉ automatedTriggerTypes) with
      | [] => startIds
      | nonAuto => nonAuto
  | manual => manual

def validateStartNodeIds (snapshot : Snapshot) (startNodeIds : List String) :
    Except String (List String) :=
  match startNodeIds.find? fun nodeId => decide (nodeId ∉ snapshot.nodes.map Node.id) with
  | some missing =>
      .error ("Node '" ++ missing ++ "' not found in the published workflow.")
  | none => .ok startNodeIds

/-!
## The pipeline
-/

/-- `_prepare_execution_snapshot`, where nothing may be published. -/
def prepareSnapshot (published : Option Snapshot) : Except String Snapshot :=
  match published with
  | none => .error "Workflow must be published before execution."
  | some snapshot =>
      if snapshot.nodes = [] then .error "Published workflow has no nodes."
      else .ok snapshot

def LaunchRequest.selectStartNodes (request : LaunchRequest) (snapshot : Snapshot) :
    Except String (List String) :=
  if request.startNodeIds ≠ [] then .ok request.startNodeIds
  else if request.executionMode = "manual" then .ok (findManualStartNodes snapshot)
  else .error "Start node is required for non-manual workflow launch."

def prepareLaunch (published : Option Snapshot) (request : LaunchRequest) :
    Except String PendingRun :=
  match prepareSnapshot published with
  | .error error => .error error
  | .ok snapshot =>
      match (request.selectStartNodes snapshot).bind (validateStartNodeIds snapshot) with
      | .error error => .error error
      | .ok startNodeIds => .ok {
          snapshot := snapshot
          inputData := request.inputData.orElse (.dict [])
          executionMode := request.executionMode
          startNodeIds := startNodeIds }

section Pipeline

variable {World : Type} (runtime : Runtime World) (sockets : String → List String)

def initExecution (runId : Nat) (notify : Bool) (pending : PendingRun) : WorkflowExecutor where
  snapshot := pending.snapshot
  persist := true
  run := some { id := runId, executionMode := pending.executionMode }
  notify := notify
  nodeOutputSockets := sockets

/-- Run the executor on the pending run and write what became of it. -/
def runPending (world : World) (runId : Nat) (notify : Bool) (pending : PendingRun) :
    LaunchedRun World :=
  match execute (initExecution sockets runId notify pending) runtime world pending.inputData
      pending.startNodeIds with
  | (state, .ok outputData) => {
      toPendingRun := pending
      state := state
      status := .completed
      outputData := outputData
      executedConnections := state.executedConnections
      nodeCountExecuted := state.nodeOutputs.keys.length
      executionCount := state.iteration
      errorMessage := none
      errorNodeId := none }
  | (state, .error error) => {
      toPendingRun := pending
      state := state
      status := .failed
      outputData := .none
      executedConnections := state.executedConnections
      nodeCountExecuted := 0
      executionCount := 0
      errorMessage := some error
      errorNodeId := state.lastErrorNodeId }

/-- `launch`. A launch that the queue defers executes the same pending run later. -/
def launch (world : World) (runId : Nat) (published : Option Snapshot) (request : LaunchRequest) :
    Except String (LaunchedRun World) :=
  match prepareLaunch published request with
  | .error error => .error error
  | .ok pending => .ok (runPending runtime sockets world runId request.notifyUser pending)

end Pipeline

end WorkflowStudio.Executor
