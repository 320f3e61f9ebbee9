import WorkflowStudio.Executor.Graph

/-! The results of the nodes of an execution: the list that the server builds from
the recorded node runs of a run, the list that it builds for a preview, and the
result that the editor takes for the latest one of some nodes. -/

set_option autoImplicit false

namespace WorkflowStudio.Progress

open Lib Executor

/-- A `workflow.run.node` record. -/
structure NodeRun where
  id : Nat
  nodeId : String
  nodeType : Option String
  nodeLabel : Option String
  sequence : Nat
  iteration : Nat
  status : String
  inputData : Value
  outputData : Value
  outputSocket : Option String
  errorMessage : Option String
  deriving DecidableEq

structure NodeResultSchema where
  nodeId : String
  nodeRunId : Option Nat := none
  nodeType : Option String := none
  nodeLabel : Option String := none
  sequence : Option Nat := none
  iteration : Option Nat := none
  status : String := "completed"
  inputData : Value := .none
  outputData : Value := .none
  outputSocket : Option String := none
  errorMessage : Option String := none
  title : Option String := none
  metaFields : Option Value := none
  deriving DecidableEq

def normalizeFalse (value : Value) : Value := if value = .bool false then .none else value

/-!
## Recorded runs
-/

def buildNodeResultSchema (nodeRun : NodeRun) : NodeResultSchema where
  nodeId := nodeRun.nodeId
  nodeRunId := some nodeRun.id
  nodeType := nodeRun.nodeType
  nodeLabel := nodeRun.nodeLabel
  sequence := some nodeRun.sequence
  iteration := some nodeRun.iteration
  status := nodeRun.status
  inputData := normalizeFalse nodeRun.inputData
  outputData := normalizeFalse nodeRun.outputData
  outputSocket := nodeRun.outputSocket
  errorMessage := nodeRun.errorMessage

/-- The variables of `_collect_run_node_results`. -/
structure Collected where
  nodeResults : List NodeResultSchema
  executionEvents : List NodeResultSchema
  executedOrder : List String
  nodeOutputsMap : OrderedMap String Value
  nodeIndexById : OrderedMap String Nat

namespace Collected

def empty : Collected where
  nodeResults := []
  executionEvents := []
  executedOrder := []
  nodeOutputsMap := OrderedMap.empty
  nodeIndexById := OrderedMap.empty

/-- The body of the loop: a node that has a result already keeps its place. -/
def add (collected : Collected) (nodeRun : NodeRun) : Collected :=
  let nodeResult := buildNodeResultSchema nodeRun
  let collected := { collected with
    executionEvents := collected.executionEvents ++ [nodeResult]
    nodeOutputsMap := collected.nodeOutputsMap.set nodeRun.nodeId nodeRun.outputData }
  match collected.nodeIndexById.get? nodeRun.nodeId with
  | some index => { collected with nodeResults := collected.nodeResults.set index nodeResult }
  | none => { collected with
      nodeIndexById := collected.nodeIndexById.set nodeRun.nodeId collected.nodeResults.length
      nodeResults := collected.nodeResults ++ [nodeResult]
      executedOrder := collected.executedOrder ++ [nodeRun.nodeId] }

end Collected

/-- `node_run_ids.sorted("sequence")`. -/
def sortedRuns (nodeRuns : List NodeRun) : List NodeRun :=
  nodeRuns.mergeSort fun first second => decide (first.sequence ≤ second.sequence)

def collectRunNodeResults (nodeRuns : List NodeRun) : Collected :=
  (sortedRuns nodeRuns).foldl Collected.add Collected.empty

/-!
## Previews
-/

/-- An output of a node as `execute_preview` enriches it. -/
structure PreviewOutput where
  outputs : Option (List (List Value))
  json : Value
  error : Option String
  metaFields : Option Value
  title : Option String
  deriving DecidableEq

/-- The identifiers without repetition, each at the place of its last occurrence. -/
def keepLastOccurrences (nodeIds : List String) : List String :=
  (nodeIds.reverse.foldl (fun unique nodeId =>
    if nodeId ∈ unique then unique else unique ++ [nodeId]) []).reverse

def buildPreviewResult (nodeId : String) (output : Option PreviewOutput) : NodeResultSchema where
  nodeId := nodeId
  nodeLabel := output.bind PreviewOutput.title
  status := if (present (output.bind PreviewOutput.error)).isNone then "completed" else "failed"
  outputData := normalizeFalse ((output.map PreviewOutput.json).getD .none)
  errorMessage := output.bind PreviewOutput.error
  title := output.bind PreviewOutput.title
  metaFields := output.bind PreviewOutput.metaFields

/-- The results that the preview endpoint answers with. -/
def previewNodeResults (nodeOutputs : OrderedMap String PreviewOutput)
    (executedOrder : List String) : List NodeResultSchema :=
  (keepLastOccurrences executedOrder).map fun nodeId =>
    buildPreviewResult nodeId (nodeOutputs.get? nodeId)

/-!
## The latest result
-/

def getLatestNodeResultForNodeIds (nodeResults : List NodeResultSchema) (nodeIds : List String) :
    Option NodeResultSchema :=
  if nodeResults = [] ∨ nodeIds = [] then none
  else nodeResults.reverse.find? fun result => decide (result.nodeId ∈ nodeIds)

end WorkflowStudio.Progress
