import WorkflowStudio.Executor.Machine

/-!
# Savepoints

The two stack loops with the savepoint that `rollback_on_failure` puts around
them, when any step may raise: the test for disabled nodes, the routing of
outputs, the notifications, and the steps between the loop and the end of the
method. What the steps do otherwise is as in the loops without a savepoint.
-/

set_option autoImplicit false

namespace WorkflowStudio.Executor.Savepoint

open Lib

inductive Event where
  | opened
  | released
  | rolledBack
  deriving DecidableEq

/-- The exception that each step raises in a state, if any. Executing a node raises
what the runtime raises, and so does displaying the output. -/
structure Faults (World : Type) where
  savepoint : State World → Option String
  isNodeDisabled : State World → Option String
  routeOutputs : State World → Option String
  notifyError : State World → Option String
  notifySuccess : State World → Option String
  /-- The last notification. -/
  finish : State World → Option String
  notifyFailure : State World → Option String
  contextSnapshot : State World → Option String
  /-- What `savepoint.close(rollback)` comes to, if anything: it may fail, and a release
  that cannot flush rolls back. -/
  close : Bool → State World → Option Event

def Faults.none {World : Type} : Faults World where
  savepoint _ := Option.none
  isNodeDisabled _ := Option.none
  routeOutputs _ := Option.none
  notifyError _ := Option.none
  notifySuccess _ := Option.none
  finish _ := Option.none
  notifyFailure _ := Option.none
  contextSnapshot _ := Option.none
  close rollback _ := some (if rollback then .rolledBack else .released)

/-- The end of a method: the savepoint events and what it returns or raises. -/
structure Ended (World Result : Type) where
  state : State World
  events : List Event
  outcome : Except String Result

/-- `_release_savepoint`, which swallows what closing raises; there is no savepoint to
close unless `held`. -/
def releaseSavepoint {World : Type} (faults : Faults World) (state : State World)
    (held rollback : Bool) : List Event :=
  if held then (faults.close rollback state).toList else []

section Execute

variable {World : Type} (faults : Faults World) (executor : WorkflowExecutor)
  (runtime : Runtime World)

def executeBody (state : State World) (entry : StackEntry) (rest : List StackEntry) :
    State World × Option String :=
  let state := state.popped rest
  match faults.isNodeDisabled state with
  | some fault => (state, some fault)
  | none =>
      if executor.snapshot.isNodeDisabled entry.nodeId then
        ({ state with skipped := state.skipped ++ [entry.nodeId] }, none)
      else
        match executeNode executor runtime state.side state.executedOrder.length entry.nodeId
            entry.inputData executor.persist with
        | (side, .error error) =>
            let state := { state.record side entry (.error error) with
              lastErrorNodeId := some entry.nodeId
              bus := busAppend executor state.bus entry.nodeId .error [] }
            match faults.notifyError state with
            | some fault => (state, some fault)
            | none => (state.busFlush executor none (some (.failed error)), some error)
        | (side, .ok result) =>
            let state := state.record side entry (.ok result)
            match faults.routeOutputs state with
            | some fault => (state, some fault)
            | none =>
                let routing :=
                  routeOutputs executor entry result state.stack state.executedConnections
                let state := { state.applyRouting routing with
                  bus := busAppend executor state.bus entry.nodeId .success
                    routing.routedConnections }
                match faults.notifySuccess state with
                | some fault => (state, some fault)
                | none => (state.busTick executor runtime, none)

def executeLoop : Nat → State World → State World × Option String
  | 0, state => (state, none)
  | remaining + 1, state =>
      match state.stack with
      | [] => (state, none)
      | entry :: rest =>
          match executeBody faults executor runtime state entry rest with
          | (state, some error) => (state, some error)
          | (state, none) => executeLoop remaining state

/-- The `except` clause of `execute`, which rolls back a savepoint that is held. -/
def handleFailure (held : Bool) (state : State World) (events : List Event) (error : String) :
    Ended World Value :=
  let events := events ++ releaseSavepoint faults state held true
  match faults.notifyFailure state with
  | some fault => { state := state, events := events, outcome := .error fault }
  | none => {
      state := state.busFlush executor none (some (.failed error))
      events := events
      outcome := .error error }

/-- Collecting, normalising and masking the output, and the last notification. -/
def displayAndNotify (state : State World) : Except String Value :=
  match runtime.display (collectFinalOutput executor state) with
  | .error error => .error error
  | .ok output =>
      match faults.finish state with
      | some fault => .error fault
      | none => .ok output

/-- The end of `execute` behind its loop: the savepoint is released before the output is
collected and the last notification is sent. -/
def finishExecute (held : Bool) (events : List Event) :
    State World × Option String → Ended World Value
  | (state, some error) => handleFailure faults executor held state events error
  | (state, none) =>
      if maxIterations ≤ state.iteration then
        handleFailure faults executor held state events exceededError
      else
        let events := events ++ releaseSavepoint faults state held false
        match displayAndNotify faults executor runtime state with
        | .error fault => handleFailure faults executor false state events fault
        | .ok output => {
            state := state.busFlush executor none (some .completed)
            events := events
            outcome := .ok output }

/-- `execute` of an executor with `rollback_on_failure`, if `rollbackOnFailure`. -/
def execute (rollbackOnFailure : Bool) (world : World) (inputData : Value)
    (startNodeIds : List String) : Ended World Value :=
  match executeStartNodes executor startNodeIds with
  | .error error => handleFailure faults executor false (State.initial world) [] error
  | .ok startNodes =>
      let started := (State.initial world).pushStartNodes startNodes (launchInput inputData)
      match if rollbackOnFailure then faults.savepoint started else none with
      | some fault => handleFailure faults executor false started [] fault
      | none =>
          let events := if rollbackOnFailure then [Event.opened] else []
          finishExecute faults executor runtime rollbackOnFailure events
            (executeLoop faults executor runtime maxIterations started)

end Execute

section Until

variable {World : Type} (faults : Faults World) (executor : WorkflowExecutor)
  (runtime : Runtime World)

/-- How the loop of `execute_until` is left: an exception that is raised outside of
`_execute_node` leaves the method as well. -/
abbrev UntilLeft := Except String UntilExit

def untilBody (targetNodeId : String) (state : State World) (entry : StackEntry)
    (rest : List StackEntry) : State World × Option UntilLeft :=
  let state := state.popped rest
  match faults.isNodeDisabled state with
  | some fault => (state, some (.error fault))
  | none =>
      if executor.snapshot.isNodeDisabled entry.nodeId then
        ({ state with skipped := state.skipped ++ [entry.nodeId] }, none)
      else
        match executeNode executor runtime state.side state.executedOrder.length entry.nodeId
            entry.inputData false with
        | (side, .error error) =>
            (state.record side entry (.error error), some (.ok (.nodeFailed entry.nodeId error)))
        | (side, .ok result) =>
            let state := state.record side entry (.ok result)
            if entry.nodeId = targetNodeId then (state, some (.ok (.targetReached result)))
            else
              match faults.routeOutputs state with
              | some fault => (state, some (.error fault))
              | none =>
                  (state.applyRouting
                    (routeOutputs executor entry result state.stack state.executedConnections),
                    none)

def untilLoop (targetNodeId : String) : Nat → State World → State World × UntilLeft
  | 0, state => (state, .ok .stackEmpty)
  | remaining + 1, state =>
      match state.stack with
      | [] => (state, .ok .stackEmpty)
      | entry :: rest =>
          match untilBody faults executor runtime targetNodeId state entry rest with
          | (state, some left) => (state, left)
          | (state, none) => untilLoop targetNodeId remaining state

/-- The end of `execute_until` behind its loop. The savepoint of a failed node has
been rolled back on the way out of the loop. -/
def finishUntil (held : Bool) (targetNodeId : String) (iterations : Nat) (events : List Event) :
    State World × UntilLeft → Ended World PreviewStatus
  | (state, left) =>
      let ended (events : List Event) (outcome : Except String PreviewStatus) :
          Ended World PreviewStatus := { state := state, events := events, outcome := outcome }
      let notReached := "Target node " ++ targetNodeId ++ " was not reached"
      let snapshotting (status : PreviewStatus) : Except String PreviewStatus :=
        match faults.contextSnapshot state with
        | some fault => .error fault
        | none => .ok status
      match left with
      | .error fault => ended events (.error fault)
      | .ok (.nodeFailed nodeId error) =>
          let events := events ++ releaseSavepoint faults state held true
          if iterations ≤ state.iteration then ended events (.error exceededError)
          else if error = "" then ended events (.error notReached)
          else ended events (snapshotting (.failed nodeId error))
      | .ok (.targetReached result) =>
          if iterations ≤ state.iteration then
            ended (events ++ releaseSavepoint faults state held true) (.error exceededError)
          else
            ended (events ++ releaseSavepoint faults state held false)
              (snapshotting (.completed result))
      | .ok .stackEmpty =>
          ended (events ++ releaseSavepoint faults state held true)
            (.error (if iterations ≤ state.iteration then exceededError else notReached))

/-- `execute_until` of an executor with `rollback_on_failure`, if `rollbackOnFailure`. -/
def executeUntil (rollbackOnFailure : Bool) (world : World) (targetNodeId : String)
    (inputData : Value) (iterations : Nat := maxIterations) : Ended World PreviewStatus :=
  let raising (state : State World) (events : List Event) (error : String) :
      Ended World PreviewStatus := { state := state, events := events, outcome := .error error }
  if targetNodeId = "" then
    raising (State.initial world) [] "Target node is required for preview execution"
  else
    match executor.snapshot.findStartNodesForTarget targetNodeId with
    | .error error => raising (State.initial world) [] error
    | .ok startNodes =>
        let started := (State.initial world).pushStartNodes startNodes (launchInput inputData)
        match if rollbackOnFailure then faults.savepoint started else none with
        | some fault => raising started [] fault
        | none =>
            let events := if rollbackOnFailure then [Event.opened] else []
            finishUntil faults rollbackOnFailure targetNodeId iterations events
              (untilLoop faults executor runtime targetNodeId iterations started)

end Until

end WorkflowStudio.Executor.Savepoint
