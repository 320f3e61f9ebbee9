import WorkflowStudio.Progress.ExecutionProgress
import WorkflowStudio.Progress.NodeResults

/-! The way of a preview's results from the executor to the editor: `execute_until`,
`execute_preview`, the endpoint that calls it, and the store of the editor. -/

set_option autoImplicit false

namespace WorkflowStudio.Progress

open Lib Executor

/-!
## The executor
-/

/-- The dictionary that `execute_until` returns. -/
structure UntilResult where
  status : ProgressStatus
  error : Option String
  errorNodeId : Option String
  nodeOutputs : OrderedMap String NodeOutput
  executedOrder : List String
  executedConnections : List ConnectionEvent
  executedConnectionIds : List String
  executionCount : Nat
  targetNodeId : String

def untilResult {World : Type} (targetNodeId : String) (state : State World)
    (status : PreviewStatus) : UntilResult where
  status := match status with
    | .completed _ => .completed
    | .failed _ _ => .failed
  error := match status with
    | .completed _ => none
    | .failed _ error => some error
  errorNodeId := match status with
    | .completed _ => none
    | .failed nodeId _ => some nodeId
  nodeOutputs := state.nodeOutputs
  executedOrder := state.executedOrder
  executedConnections := state.executedConnections
  executedConnectionIds := getExecutedConnectionIds state.executedConnections
  executionCount := state.iteration
  targetNodeId := targetNodeId

/-!
## The workflow
-/

structure PreviewRequest where
  targetNodeId : String
  inputData : Value
  configOverrides : Value
  snapshot : Option Snapshot
  deriving DecidableEq

/-- The keys that the endpoint reads of a preview. -/
structure PreviewData where
  status : ProgressStatus
  error : Option String
  errorNodeId : Option String
  targetNodeId : String
  executionCount : Nat
  executedOrder : List String
  nodeOutputs : OrderedMap String PreviewOutput
  executedConnectionIds : Option (List String) := none
  executedConnections : Option (List ConnectionEvent) := none

/-- The configuration with an override; the keys of a document are texts. -/
def overrideConfig (existing : List (String × Value)) (override : List (Value × Value)) :
    List (String × Value) :=
  override.foldl (fun config field =>
    match field.1 with
    | .str key => OrderedMap.setEntries key field.2 config
    | _ => config) existing

def overrideNode (overrides : List (Value × Value)) (node : Node) : Except String Node :=
  match overrides.lookup (.str node.id) with
  | none => .ok node
  | some given =>
      match given.orElse (.dict []) with
      | .dict override => .ok { node with config := overrideConfig node.config override }
      | _ => .error ("Invalid config override for node " ++ node.id)

def overrideNodes (overrides : List (Value × Value)) : List Node → Except String (List Node)
  | [] => .ok []
  | node :: rest =>
      match overrideNode overrides node, overrideNodes overrides rest with
      | .ok node, .ok others => .ok (node :: others)
      | .error error, _ | _, .error error => .error error

def applyConfigOverrides (configOverrides : Value) (snapshot : Snapshot) :
    Except String Snapshot :=
  if configOverrides.truthy = false then .ok snapshot
  else
    match configOverrides with
    | .dict overrides =>
        match overrideNodes overrides snapshot.nodes with
        | .error error => .error error
        | .ok nodes => .ok { snapshot with nodes := nodes }
    | _ => .error "Invalid config overrides format."

def workingSnapshot (draft : Option Snapshot) (request : PreviewRequest) : Except String Snapshot :=
  if request.targetNodeId = "" then .error "Target node is required for preview execution."
  else
    match request.snapshot.or draft with
    | none => .error "Draft workflow has no nodes."
    | some snapshot =>
        if snapshot.nodes = [] then .error "Draft workflow has no nodes."
        else applyConfigOverrides request.configOverrides snapshot

def previewExecutor (sockets : String → List String) (snapshot : Snapshot) : WorkflowExecutor where
  snapshot := snapshot
  persist := false
  run := none
  notify := false
  nodeOutputSockets := sockets

def nodeLabelOf (node : Node) : String :=
  ((present node.label).or (present (some node.type))).getD node.id

section Workflow

variable {World : Type} (runtime : Runtime World)

-- What becomes of the json of a node, and of an item of its outputs, until it is in the
-- response: `_redact_output` or `_mask_sensitive_data`, and the copies of the endpoint.
-- Each may raise, and the endpoint turns what is raised into its error.
variable (redact mask : Value → Except String Value)

def maskOutputs (outputs : Option (List (List Value))) :
    Except String (Option (List (List Value))) :=
  match outputs with
  | none => .ok none
  | some sockets => (sockets.mapM (List.mapM mask)).map some

/-- An output with what the user may see of it, and the label of its node. -/
def enrichOutput (title : Option String) (output : NodeOutput) : Except String PreviewOutput :=
  (redact (output.json.getD .none)).bind fun display =>
    (maskOutputs mask output.outputs).map fun outputs =>
      { outputs := outputs
        json := display
        error := output.error
        metaFields := output.metaFields
        title := title }

def labelsById (snapshot : Snapshot) : OrderedMap String String :=
  OrderedMap.ofList (snapshot.nodes.map fun node => (node.id, nodeLabelOf node))

def enrichOutputs (snapshot : Snapshot) (nodeOutputs : OrderedMap String NodeOutput) :
    Except String (List (String × PreviewOutput)) :=
  nodeOutputs.entries.mapM fun entry =>
    (enrichOutput redact mask ((labelsById snapshot).get? entry.1) entry.2).map fun output =>
      (entry.1, output)

/-- The end of `execute_preview`. Its data has no connections. -/
def previewData (snapshot : Snapshot) (result : UntilResult) : Except String PreviewData :=
  (enrichOutputs redact mask snapshot result.nodeOutputs).map fun nodeOutputs =>
    { status := result.status
      error := result.error
      errorNodeId := result.errorNodeId
      targetNodeId := result.targetNodeId
      executionCount := result.executionCount
      executedOrder := result.executedOrder
      nodeOutputs := OrderedMap.ofList nodeOutputs }

def executePreview (sockets : String → List String) (world : World) (draft : Option Snapshot)
    (request : PreviewRequest) : Except String PreviewData :=
  match workingSnapshot draft request with
  | .error error => .error error
  | .ok snapshot =>
      match executeUntil (previewExecutor sockets snapshot) runtime world request.targetNodeId
          (request.inputData.orElse (.dict [])) with
      | (_, .error error) => .error error
      | (state, .ok status) =>
          previewData redact mask snapshot (untilResult request.targetNodeId state status)

end Workflow

/-!
## The endpoint
-/

/-- The response; an error has few of its keys. -/
structure PreviewResponse where
  status : ProgressStatus
  error : Option String
  errorNodeId : Option String := none
  targetNodeId : Option String := none
  executionCount : Option Nat := none
  nodeCountExecuted : Option Nat := none
  executedOrder : Option (List String) := none
  executedConnectionIds : Option (List String) := none
  executedConnections : Option (List ConnectionEvent) := none
  nodeResults : List NodeResultSchema := []
  nodeOutputs : Option (OrderedMap String PreviewOutput) := none

/-- `/workflow_studio/execute_until`, given what `execute_preview` does. -/
def executeUntilEndpoint (targetNodeId : String) (preview : Except String PreviewData) :
    PreviewResponse :=
  if targetNodeId = "" then { status := .failed, error := some "Target node ID is required" }
  else match preview with
  | .error error => { status := .failed, error := some error }
  | .ok data =>
      let executedOrder := keepLastOccurrences data.executedOrder
      { status := data.status
        error := data.error
        errorNodeId := data.errorNodeId
        targetNodeId := some data.targetNodeId
        executionCount := some data.executionCount
        nodeCountExecuted := some executedOrder.length
        executedOrder := some executedOrder
        executedConnectionIds := some (data.executedConnectionIds.getD [])
        executedConnections := some (data.executedConnections.getD [])
        nodeResults := previewNodeResults data.nodeOutputs data.executedOrder
        nodeOutputs := some data.nodeOutputs }

/-!
## The store
-/

/-- A result of `buildNodeResultsFromOutputs`. -/
structure StoreResult where
  nodeId : String
  outputData : Value
  errorMessage : Option String
  title : Option String
  metaFields : Option Value
  deriving DecidableEq

structure PreviewProgress extends ExecutionProgress where
  errorNodeId : Option String
  executionCount : Option Nat
  nodeCountExecuted : Option Nat
  inputData : Value
  nodeResults : List StoreResult
  nodeOutputs : Option (OrderedMap String PreviewOutput)

def buildNodeResultsFromOutputs (nodeOutputs : Option (OrderedMap String PreviewOutput))
    (executedOrder : Option (List String)) : List StoreResult :=
  let outputs := nodeOutputs.getD OrderedMap.empty
  let order := executedOrder.getD []
  let source := if order ≠ [] then order else outputs.keys
  (keepLastOccurrences source).map fun nodeId =>
    let output := outputs.get? nodeId
    { nodeId := nodeId
      outputData := (output.map PreviewOutput.json).getD .none
      errorMessage := present (output.bind PreviewOutput.error)
      title := output.bind PreviewOutput.title
      metaFields := (output.bind PreviewOutput.metaFields).filter Value.scriptTruthy }

def positive (count : Option Nat) : Option Nat := count.filter (· ≠ 0)

/-- `executeUntilNode` after the response: a fresh progress is filled with it. -/
def executeUntilNode (inputData : Value) (response : PreviewResponse) : PreviewProgress :=
  let nodeResults := buildNodeResultsFromOutputs response.nodeOutputs response.executedOrder
  { toExecutionProgress := setExecutionResult (some (createFreshProgress none)) {
      status := some response.status
      error := some (present response.error)
      executedOrder := some (response.executedOrder.getD [])
      executedConnectionIds := some (response.executedConnectionIds.getD [])
      executedConnections := some (response.executedConnections.getD [])
      nodeResults := nodeResults.map fun result =>
        { nodeId := some result.nodeId, errorMessage := result.errorMessage } }
    errorNodeId := present response.errorNodeId
    executionCount := positive response.executionCount
    nodeCountExecuted := positive response.nodeCountExecuted
    inputData := inputData
    nodeResults := nodeResults
    nodeOutputs := response.nodeOutputs }

/-- The progress that the editor shows after the preview. -/
def previewProgress {World : Type} (runtime : Runtime World)
    (redact mask : Value → Except String Value) (sockets : String → List String) (world : World)
    (draft : Option Snapshot) (request : PreviewRequest) : PreviewProgress :=
  executeUntilNode request.inputData
    (executeUntilEndpoint request.targetNodeId
      (executePreview runtime redact mask sockets world draft request))

end WorkflowStudio.Progress
