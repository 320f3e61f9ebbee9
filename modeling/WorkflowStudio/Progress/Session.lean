import WorkflowStudio.Lib.GuardedRun
import WorkflowStudio.Progress.ExecutionProgress

/-! One editor between two channels: the bus messages of any number of runs, and
the requests that execute workflows with their answers, in any order. -/

set_option autoImplicit false

namespace WorkflowStudio.Progress

open Lib Executor

/-- A progress message of a run; runs are records, whose identifiers are positive. -/
structure RunMessage where
  run : Nat
  message : BusMessage
  positive : 0 < run
  own : message.runId = some run

/-- The answers of the requests of an `executeWorkflow` call whose run is `run`. -/
structure RunAnswer where
  run : Nat
  result : ExecuteResponse
  details : Option RunDetails
  positive : 0 < run
  own : result.runId = none ∨ result.runId = some run
  read : ∀ found, details = some found →
    (found.runId = none ∨ found.runId = some run) ∧ (found.id = none ∨ found.id = some run)

/-- The fields of a run that some part of the editor sets. -/
structure RunResult where
  run : Nat
  fields : ResultFields
  own : fields.runId = none ∨ fields.runId = some run

inductive EditorEvent where
  | executeWorkflow (run : Nat)
  | message (sent : RunMessage)
  | answer (answer : RunAnswer)
  | setExecutionResult (result : RunResult)
  | replaceExecutionResult (result : RunResult)
  | clearExecution

/-- `progress` is the editor's own. The rest is history that no branch reads:
the run of the execution that is shown, whether its result has been applied,
and the events so far. -/
structure Editor where
  progress : Option ExecutionProgress
  shown : Option Nat
  settled : Bool
  traffic : List EditorEvent

def Editor.initial : Editor where
  progress := none
  shown := none
  settled := false
  traffic := []

namespace Editor

def applyResult (editor : Editor) (event : EditorEvent) (run : Nat) (fields : ResultFields) :
    Editor where
  progress := some (Progress.setExecutionResult editor.progress fields)
  shown := editor.shown.or (some run)
  settled := true
  traffic := editor.traffic ++ [event]

def step (editor : Editor) (event : EditorEvent) : Editor :=
  match event with
  | .executeWorkflow run => {
      progress := some (createFreshProgress none)
      shown := some run
      settled := false
      traffic := editor.traffic ++ [event] }
  | .message sent => {
      progress := onExecutionProgress editor.progress sent.message
      shown := editor.shown.or (some sent.run)
      settled := editor.settled
      traffic := editor.traffic ++ [event] }
  | .answer answer =>
      match executeWorkflowFields answer.result answer.details with
      | none => { editor with traffic := editor.traffic ++ [event] }
      | some fields => editor.applyResult event answer.run fields
  | .setExecutionResult result => editor.applyResult event result.run result.fields
  | .replaceExecutionResult result => {
      progress := some (Progress.replaceExecutionResult result.fields)
      shown := some result.run
      settled := true
      traffic := editor.traffic ++ [event] }
  | .clearExecution => {
      progress := none
      shown := none
      settled := false
      traffic := editor.traffic ++ [event] }

end Editor

end WorkflowStudio.Progress
