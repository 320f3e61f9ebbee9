import WorkflowStudio.Executor.Masking
import WorkflowStudio.Progress.PreviewResponse

/-! The dictionary that `execute_preview` returns, with the context snapshot of the
executor. -/

set_option autoImplicit false

namespace WorkflowStudio.Progress

open Lib Expression Executor

/-!
## The context snapshot
-/

/-- What a date or a time in ISO format is written with. -/
def isoLetters : List Char := "0123456789-:.+T".toList

/-- What `build_snapshot` reads in a context without a run. -/
structure SnapshotContext where
  vars : Value
  nodeContext : Value
  now : String
  today : String
  isoNow : now.toList.all isoLetters.contains = true
  isoToday : today.toList.all isoLetters.contains = true

structure WorkflowRecord where
  id : Int
  name : String
  active : Bool

/-- A dictionary with text keys. -/
def dictOf (fields : List (String × Value)) : Value :=
  .dict (fields.map fun field => (.str field.1, field.2))

def textOrNone (text : Option String) : Value := (text.map .str).getD .none

def nodeJson (output : NodeOutput) : Value := output.json.getD .none

def workflowContext (workflow : WorkflowRecord) : Value :=
  dictOf [("id", .int workflow.id), ("name", .str workflow.name), ("active", .bool workflow.active)]

def buildSnapshot (workflow : WorkflowRecord) (context : SnapshotContext)
    (nodeOutputs : OrderedMap String NodeOutput) (targetJson : Value) : Value :=
  dictOf [
    ("json", targetJson),
    ("node", dictOf (nodeOutputs.entries.map fun entry => (entry.1, nodeJson entry.2))),
    ("vars", toPlain context.vars),
    ("node_context", context.nodeContext),
    ("execution", .none),
    ("workflow", workflowContext workflow),
    ("now", .str context.now),
    ("today", .str context.today)]

/-- The json of `target_result`; a failure has none. -/
def targetJson : PreviewStatus → Value
  | .completed result => nodeJson result
  | .failed _ _ => .none

/-!
## The response
-/

def ProgressStatus.text : ProgressStatus → String
  | .running => "running"
  | .completed => "completed"
  | .failed => "failed"
  | .other text => text

def outputsValue (output : NodeOutput) : Value :=
  (output.outputs.map fun sockets => .list (sockets.map .list)).getD .none

section Report

variable (python : Python) (objects : Objects) (isWord : Char → Bool)
  (shouldUnmaskForUser : Run → String → Bool)

def reportOutput (executor : WorkflowExecutor) (title : Option String) (nodeId : String)
    (output : NodeOutput) : Except String Value :=
  (redactOutput python objects isWord (executor.canUnmaskOutput shouldUnmaskForUser nodeId)
    (nodeJson output)).map fun display =>
      dictOf [
        ("outputs", maskSensitiveData isWord (outputsValue output)),
        ("json", display),
        ("error", textOrNone output.error),
        ("meta", output.metaFields.getD .none),
        ("title", textOrNone title)]

def reportOutputs (executor : WorkflowExecutor) (nodeOutputs : OrderedMap String NodeOutput) :
    Except String (List (String × Value)) :=
  nodeOutputs.entries.mapM fun entry =>
    (reportOutput python objects isWord shouldUnmaskForUser executor
      ((labelsById executor.snapshot).get? entry.1) entry.1 entry.2).map fun report =>
        (entry.1, report)

variable {World : Type} (contextOf : World → SnapshotContext) (workflow : WorkflowRecord)

/-- The data of a preview that ended in a state. -/
def previewReport (executor : WorkflowExecutor) (targetNodeId : String) (state : State World)
    (status : PreviewStatus) : Except String Value :=
  let result := untilResult targetNodeId state status
  (reportOutputs python objects isWord shouldUnmaskForUser executor result.nodeOutputs).map
    fun nodeOutputs =>
      dictOf [
        ("status", .str result.status.text),
        ("error", textOrNone result.error),
        ("error_node_id", textOrNone result.errorNodeId),
        ("target_node_id", .str result.targetNodeId),
        ("execution_count", .int result.executionCount),
        ("executed_order", .list (result.executedOrder.map .str)),
        ("node_outputs", dictOf nodeOutputs),
        ("context_snapshot", buildSnapshot workflow (contextOf state.side.world)
          result.nodeOutputs (targetJson status))]

/-- `execute_preview` with everything it returns. -/
def executePreviewReport (runtime : Runtime World) (sockets : String → List String)
    (world : World) (draft : Option Snapshot) (request : PreviewRequest) : Except String Value :=
  match workingSnapshot draft request with
  | .error error => .error error
  | .ok snapshot =>
      let executor := previewExecutor sockets snapshot
      match executeUntil executor runtime world request.targetNodeId
          (request.inputData.orElse (.dict [])) with
      | (_, .error error) => .error error
      | (state, .ok status) =>
          previewReport python objects isWord shouldUnmaskForUser contextOf workflow executor
            request.targetNodeId state status

end Report

end WorkflowStudio.Progress
