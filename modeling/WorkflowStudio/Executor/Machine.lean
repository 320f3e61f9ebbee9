import WorkflowStudio.Executor.Graph

/-!
# Stack executor

The executor's state, the execution of one node, the routing of its outputs
and the two stack loops `execute` and `execute_until`. The runners, the run
event handlers, the pinned results and the clock are a `Runtime` over an
arbitrary world; the control flow around them is the source's.
-/

set_option autoImplicit false

namespace WorkflowStudio.Executor

open Lib

/-!
## Node outputs and the runtime
-/

/-- What a runner returns: `outputs` is a list of sockets, each with its items.
A pinned result has a `meta` dictionary. -/
structure NodeOutput where
  outputs : Option (List (List Value))
  json : Option Value
  error : Option String := none
  logInput : Option Value := none
  metaFields : Option Value := none
  deriving DecidableEq

inductive RunEvent where
  | nodeStarted (node : Node) (inputData : Value)
  | nodeCompleted (node : Node) (inputData : Value) (result : NodeOutput)
  | nodeFailed (node : Node) (inputData : Value) (error : String)

/-- Everything outside the loop that a run depends on. A call may change the
world also when it raises. `display` normalises and masks an output, which may
raise; where nothing was executed, there is nothing to raise at. -/
structure Runtime (World : Type) where
  executeNodeCore : World → Node → Value → World × Except String NodeOutput
  emitRunEvent : World → RunEvent → World × Except String Unit
  getPinData : World → Node → Except String (Option NodeOutput)
  busShouldFlush : World → Bool
  display : Value → Except String Value
  display_empty : display (.dict []) = .ok (.dict [])

structure Run where
  id : Nat
  executionMode : String
  deriving DecidableEq

structure WorkflowExecutor where
  snapshot : Snapshot
  persist : Bool
  run : Option Run
  notify : Bool
  nodeOutputSockets : String → List String

/-!
## Sockets
-/

/-- The zeros of the digits of all scripts, as `\d` knows them. -/
def digitZeros : List Nat :=
  [0x30, 0x660, 0x6f0, 0x7c0, 0x966, 0x9e6, 0xa66, 0xae6, 0xb66, 0xbe6, 0xc66, 0xce6, 0xd66,
   0xde6, 0xe50, 0xed0, 0xf20, 0x1040, 0x1090, 0x17e0, 0x1810, 0x1946, 0x19d0, 0x1a80, 0x1a90,
   0x1b50, 0x1bb0, 0x1c40, 0x1c50, 0xa620, 0xa8d0, 0xa900, 0xa9d0, 0xa9f0, 0xaa50, 0xabf0, 0xff10,
   0x104a0, 0x10d30, 0x11066, 0x110f0, 0x11136, 0x111d0, 0x112f0, 0x11450, 0x114d0, 0x11650,
   0x116c0, 0x11730, 0x118e0, 0x11950, 0x11c50, 0x11d50, 0x11da0, 0x11f50, 0x16a60, 0x16ac0,
   0x16b50, 0x1d7ce, 0x1d7d8, 0x1d7e2, 0x1d7ec, 0x1d7f6, 0x1e140, 0x1e2f0, 0x1e4f0, 0x1e950,
   0x1fbf0]

/-- `int(letter)` of a digit. -/
def digitValue? (letter : Char) : Option Nat :=
  (digitZeros.find? fun first => first ≤ letter.toNat && letter.toNat < first + 10).map
    (letter.toNat - ·)

/-- The number of a `case_N` or `caseN` socket; `$` also matches before a
final line break. -/
def caseSocket? (socketName : String) : Option Nat :=
  match socketName.toList with
  | 'c' :: 'a' :: 's' :: 'e' :: rest =>
      let rest := if rest.head? = some '_' then rest.tail else rest
      let digits := rest.takeWhile fun letter => (digitValue? letter).isSome
      let ending := rest.dropWhile fun letter => (digitValue? letter).isSome
      if digits ≠ [] ∧ (ending = [] ∨ ending = ['\n']) then
        some ((digits.filterMap digitValue?).foldl (fun value digit => 10 * value + digit) 0)
      else none
  | _ => none

/-- `_socket_to_index`, with `none` for the index -1. -/
def socketToIndex (sockets : List String) (socketName : Option String) : Option Nat :=
  match present socketName with
  | none => none
  | some name =>
      if name ∈ sockets then some (sockets.idxOf name)
      else
        match caseSocket? name with
        | some number => some (number - 1)
        | none =>
            if name = "default" then some 3
            else if name ∈ ["output", "result", "data"] then some 0
            else none

def outputIndexToSocketName (sockets : List String) (index : Nat) : String :=
  sockets.getD index (toString index)

def getPrimaryOutputSocket (sockets : List String) (result : NodeOutput) : Option String :=
  ((result.outputs.getD []).findIdx? fun items => !items.isEmpty).map
    (outputIndexToSocketName sockets)

/-!
## Execution of one node
-/

inductive NodeRunStatus where
  | pinned
  | completed
  | failed
  deriving DecidableEq

structure NodeRunEntry where
  nodeId : String
  nodeType : String
  nodeLabel : String
  status : NodeRunStatus
  outputSocket : Option String
  errorMessage : Option String
  sequence : Nat
  rawJson : Option Value
  inputData : Value
  deriving DecidableEq

/-- The part of the state that executing a node changes. -/
structure Side (World : Type) where
  world : World
  nodeRunBuffer : List NodeRunEntry

def pinDataDenyTypes : List String :=
  ["manual_trigger", "schedule_trigger", "webhook_trigger", "record_event_trigger", "loop"]

def WorkflowExecutor.shouldApplyPinData (executor : WorkflowExecutor) : Bool :=
  match executor.run with
  | none => true
  | some run => run.executionMode == "manual"

section ExecuteNode

variable {World : Type} (executor : WorkflowExecutor) (runtime : Runtime World)

/-- The result that a node is pinned to, where pins are applied; to read it may raise. -/
def pinnedResult (world : World) (node : Node) : Except String (Option NodeOutput) :=
  if executor.shouldApplyPinData ∧ node.type ∉ pinDataDenyTypes then runtime.getPinData world node
  else .ok none

def emitRunEvent (side : Side World) (event : RunEvent) : Side World × Except String Unit :=
  match executor.run with
  | none => (side, .ok ())
  | some _ =>
      let emitted := runtime.emitRunEvent side.world event
      ({ side with world := emitted.1 }, emitted.2)

def failNode (side : Side World) (sequence : Nat) (node : Node) (inputData : Value)
    (error : String) : Side World × Except String NodeOutput :=
  let entry : NodeRunEntry := {
    nodeId := node.id
    nodeType := node.type
    nodeLabel := node.label.getD ""
    status := .failed
    outputSocket := none
    errorMessage := some error
    sequence := sequence
    rawJson := none
    inputData := inputData }
  let side := { side with nodeRunBuffer := side.nodeRunBuffer ++ [entry] }
  match emitRunEvent executor runtime side (.nodeFailed node inputData error) with
  | (side, .error handlerError) => (side, .error handlerError)
  | (side, .ok _) =>
      (side, .error ("Node '" ++ node.label.getD node.id ++ "' failed: " ++ error))

def returnPinned (side : Side World) (sequence : Nat) (node : Node) (inputData : Value)
    (persist : Bool) (result : NodeOutput) : Side World × Except String NodeOutput :=
  let entry : NodeRunEntry := {
    nodeId := node.id
    nodeType := node.type
    nodeLabel := node.label.getD ""
    status := .pinned
    outputSocket := getPrimaryOutputSocket (executor.nodeOutputSockets node.type) result
    errorMessage := none
    sequence := sequence
    rawJson := result.json
    inputData := inputData }
  let side := if persist then
    { side with nodeRunBuffer := side.nodeRunBuffer ++ [entry] } else side
  match emitRunEvent executor runtime side (.nodeCompleted node inputData result) with
  | (side, .error error) => (side, .error error)
  | (side, .ok _) => (side, .ok result)

def executeTransient (side : Side World) (node : Node) (inputData : Value) :
    Side World × Except String NodeOutput :=
  let called := runtime.executeNodeCore side.world node inputData
  let side := { side with world := called.1 }
  match called.2 with
  | .error error => (side, .error error)
  | .ok result =>
      match emitRunEvent executor runtime side (.nodeCompleted node inputData result) with
      | (side, .error error) => (side, .error error)
      | (side, .ok _) => (side, .ok result)

def loggedInput (result : NodeOutput) (inputData : Value) : Value :=
  match result.logInput with
  | none => inputData
  | some .none => inputData
  | some preferred => preferred

def executePersisted (side : Side World) (sequence : Nat) (node : Node) (inputData : Value) :
    Side World × Except String NodeOutput :=
  let called := runtime.executeNodeCore side.world node inputData
  let side := { side with world := called.1 }
  match called.2 with
  | .error error => failNode executor runtime side sequence node inputData error
  | .ok returned =>
      let result := { returned with logInput := none }
      let entry : NodeRunEntry := {
        nodeId := node.id
        nodeType := node.type
        nodeLabel := node.label.getD ""
        status := .completed
        outputSocket := getPrimaryOutputSocket (executor.nodeOutputSockets node.type) result
        errorMessage := none
        sequence := sequence
        rawJson := result.json
        inputData := loggedInput returned inputData }
      let side := { side with nodeRunBuffer := side.nodeRunBuffer ++ [entry] }
      -- a handler that raises here is caught like a runner that raises
      match emitRunEvent executor runtime side (.nodeCompleted node inputData result) with
      | (side, .error error) => failNode executor runtime side sequence node inputData error
      | (side, .ok _) => (side, .ok result)

/-- `_execute_node`; `sequence` is `len(self.executed_order)`. -/
def executeNode (side : Side World) (sequence : Nat) (nodeId : String) (inputData : Value)
    (persist : Bool) : Side World × Except String NodeOutput :=
  match executor.snapshot.nodesById.get? nodeId with
  | none => (side, .error ("Node not found: " ++ nodeId))
  | some node =>
      match emitRunEvent executor runtime side (.nodeStarted node inputData) with
      | (side, .error error) => (side, .error error)
      | (side, .ok _) =>
          match pinnedResult executor runtime side.world node with
          -- the pin is read before any `try`
          | .error error => (side, .error error)
          | .ok (some result) =>
              returnPinned executor runtime side sequence node inputData persist result
          | .ok none =>
              if persist then executePersisted executor runtime side sequence node inputData
              else executeTransient executor runtime side node inputData

end ExecuteNode

/-!
## Executor state and routing
-/

/-- A stack entry. `origin` is a history variable that no branch reads: the
start node from whose push the entry descends. -/
structure StackEntry where
  nodeId : String
  inputData : Value
  origin : String
  deriving DecidableEq

structure ConnectionEvent where
  connectionId : Option String
  source : String
  sourceSocket : Option String
  target : String
  targetSocket : Option String
  outputIndex : Nat
  sequence : Nat
  deriving DecidableEq

/-- One element of `executed_order` with its input and its outcome. -/
structure Execution where
  entry : StackEntry
  outcome : Except String NodeOutput

inductive NodeStatus where
  | success
  | error
  deriving DecidableEq

structure BusNode where
  nodeId : String
  status : NodeStatus
  nodeType : Option String
  nodeLabel : String
  deriving DecidableEq

inductive FinalStatus where
  | completed
  | failed (error : String)
  deriving DecidableEq

structure FinalReport where
  status : FinalStatus
  executedOrder : List String
  executedConnections : List ConnectionEvent
  executedConnectionIds : List String
  nodeCount : Nat
  deriving DecidableEq

structure BusMessage where
  runId : Option Nat
  completedNodes : List BusNode
  connections : List ConnectionEvent
  nextRunningNodeId : Option String
  report : Option FinalReport
  deriving DecidableEq

structure Bus where
  pendingBatch : List BusNode := []
  pendingConnections : List ConnectionEvent := []
  sent : List BusMessage := []
  deriving DecidableEq

/-- The executor's state. The head of `stack` is its top. `skipped` lists the
nodes of the "Skipping disabled node" log lines and `executions` what
`executed_order` leaves out; no branch reads them. -/
structure State (World : Type) where
  side : Side World
  stack : List StackEntry
  nodeOutputs : OrderedMap String NodeOutput
  executedOrder : List String
  executedConnections : List ConnectionEvent
  lastErrorNodeId : Option String
  bus : Bus
  iteration : Nat
  skipped : List String
  executions : List Execution

def State.initial {World : Type} (world : World) : State World where
  side := { world := world, nodeRunBuffer := [] }
  stack := []
  nodeOutputs := OrderedMap.empty
  executedOrder := []
  executedConnections := []
  lastErrorNodeId := none
  bus := {}
  iteration := 0
  skipped := []
  executions := []

/-- Push the start nodes in order, so that the last one is on top. -/
def State.pushStartNodes {World : Type} (state : State World) (startNodes : List String)
    (inputData : Value) : State World :=
  { state with
    stack := (startNodes.map fun nodeId =>
      { nodeId := nodeId, inputData := inputData, origin := nodeId }).reverse ++ state.stack }

def failedResult (error : String) : NodeOutput where
  outputs := some []
  json := some .none
  error := some error

/-- Store the outcome of an execution and append to `executed_order`. -/
def State.record {World : Type} (state : State World) (side : Side World) (entry : StackEntry)
    (outcome : Except String NodeOutput) : State World :=
  let result := match outcome with
    | .ok result => result
    | .error error => failedResult error
  { state with
    side := side
    nodeOutputs := state.nodeOutputs.set entry.nodeId result
    executedOrder := state.executedOrder ++ [entry.nodeId]
    executions := state.executions ++ [{ entry := entry, outcome := outcome }] }

structure Routing where
  stack : List StackEntry
  executedConnections : List ConnectionEvent
  routedConnections : List ConnectionEvent

def inputOf (first : Value) (rest : List Value) : Value :=
  if rest.isEmpty then first else .list (first :: rest)

def routeConnection (sockets : List String) (entry : StackEntry)
    (outputs : List (List Value)) (routing : Routing) (conn : Connection) : Routing :=
  let sourceHandle := conn.sourceHandle.getD (some "output")
  match present conn.target, socketToIndex sockets sourceHandle with
  | some target, some outputIndex =>
      match outputs[outputIndex]? with
      | some (first :: rest) =>
          let event : ConnectionEvent := {
            connectionId := conn.id
            source := entry.nodeId
            sourceSocket := sourceHandle
            target := target
            targetSocket := conn.targetHandle
            outputIndex := outputIndex
            sequence := routing.executedConnections.length }
          let pushed : StackEntry := {
            nodeId := target
            inputData := inputOf first rest
            origin := entry.origin }
          { stack := pushed :: routing.stack
            executedConnections := routing.executedConnections ++ [event]
            routedConnections := routing.routedConnections ++ [event] }
      | _ => routing
  | _, _ => routing

def routeOutputs (executor : WorkflowExecutor) (entry : StackEntry) (result : NodeOutput)
    (stack : List StackEntry) (executedConnections : List ConnectionEvent) : Routing :=
  let outputs := result.outputs.getD [[result.json.getD .none]]
  let nodeType := match executor.snapshot.nodesById.get? entry.nodeId with
    | some node => node.type
    | none => ""
  (executor.snapshot.connectionsBySource entry.nodeId).foldl
    (routeConnection (executor.nodeOutputSockets nodeType) entry outputs)
    { stack := stack, executedConnections := executedConnections, routedConnections := [] }

def State.applyRouting {World : Type} (state : State World) (routing : Routing) : State World :=
  { state with
    stack := routing.stack
    executedConnections := routing.executedConnections }

/-!
## Bus notifications
-/

def busAppend (executor : WorkflowExecutor) (bus : Bus) (nodeId : String) (status : NodeStatus)
    (routedConnections : List ConnectionEvent) : Bus :=
  if executor.notify then
    let node := executor.snapshot.nodesById.get? nodeId
    { bus with
      pendingBatch := bus.pendingBatch ++ [{
        nodeId := nodeId
        status := status
        nodeType := node.map Node.type
        nodeLabel := (node.bind Node.label).getD "" }]
      pendingConnections := bus.pendingConnections ++ routedConnections }
  else bus

def getExecutedConnectionIds (executedConnections : List ConnectionEvent) : List String :=
  executedConnections.filterMap fun event => present event.connectionId

def State.busFlush {World : Type} (executor : WorkflowExecutor) (state : State World)
    (nextNodeId : Option String) (finalStatus : Option FinalStatus) : State World :=
  if executor.notify = false ∨ (state.bus.pendingBatch = [] ∧ finalStatus = none) then state
  else
    let message : BusMessage := {
      runId := executor.run.map Run.id
      completedNodes := state.bus.pendingBatch
      connections := state.bus.pendingConnections
      nextRunningNodeId := nextNodeId
      report := finalStatus.map fun status => {
        status := status
        executedOrder := state.executedOrder
        executedConnections := state.executedConnections
        executedConnectionIds := getExecutedConnectionIds state.executedConnections
        nodeCount := state.executedOrder.length } }
    { state with bus := { sent := state.bus.sent ++ [message] } }

/-- `_bus_should_flush` and the flush that names the next node. -/
def State.busTick {World : Type} (executor : WorkflowExecutor) (runtime : Runtime World)
    (state : State World) : State World :=
  if executor.notify ∧ state.bus.pendingBatch ≠ [] ∧ runtime.busShouldFlush state.side.world then
    state.busFlush executor (state.stack.head?.map StackEntry.nodeId) none
  else state

/-!
## The stack loops
-/

def maxIterations : Nat := 1000

def exceededError : String := "Workflow exceeded maximum iterations (possible infinite loop)"

def launchInput (inputData : Value) : Value := inputData.orElse (.dict [])

section Loops

variable {World : Type} (executor : WorkflowExecutor) (runtime : Runtime World)

def State.popped (state : State World) (rest : List StackEntry) : State World :=
  { state with stack := rest, iteration := state.iteration + 1 }

/-- The body of the `while` loop of `execute` for a popped entry; an error is
re-raised from the failure branch. -/
def executeBody (state : State World) (entry : StackEntry) (rest : List StackEntry) :
    State World × Option String :=
  let state := state.popped rest
  if executor.snapshot.isNodeDisabled entry.nodeId then
    ({ state with skipped := state.skipped ++ [entry.nodeId] }, none)
  else
    match executeNode executor runtime state.side state.executedOrder.length entry.nodeId
        entry.inputData executor.persist with
    | (side, .error error) =>
        let state := { state.record side entry (.error error) with
          lastErrorNodeId := some entry.nodeId
          bus := busAppend executor state.bus entry.nodeId .error [] }
        (state.busFlush executor none (some (.failed error)), some error)
    | (side, .ok result) =>
        let state := state.record side entry (.ok result)
        let routing := routeOutputs executor entry result state.stack state.executedConnections
        let state := { state.applyRouting routing with
          bus := busAppend executor state.bus entry.nodeId .success routing.routedConnections }
        (state.busTick executor runtime, none)

/-- The `while` loop of `execute` with the iterations that are left. -/
def executeLoop : Nat → State World → State World × Option String
  | 0, state => (state, none)
  | remaining + 1, state =>
      match state.stack with
      | [] => (state, none)
      | entry :: rest =>
          match executeBody executor runtime state entry rest with
          | (state, some error) => (state, some error)
          | (state, none) => executeLoop remaining state

def executeStartNodes (startNodeIds : List String) : Except String (List String) :=
  if startNodeIds ≠ [] then .ok startNodeIds else executor.snapshot.findStartNodes

def collectFinalOutput (state : State World) : Value :=
  let leaves := executor.snapshot.nodesById.keys.filterMap fun nodeId =>
    if (executor.snapshot.connectionsBySource nodeId).isEmpty then
      (state.nodeOutputs.get? nodeId).map fun result => (Value.str nodeId, result.json.getD .none)
    else none
  match leaves with
  | [(_, value)] => value
  | _ => .dict leaves

/-- `execute` from a fresh executor: the final state and the returned output
or the raised error. -/
def execute (world : World) (inputData : Value) (startNodeIds : List String) :
    State World × Except String Value :=
  match executeStartNodes executor startNodeIds with
  | .error error => ((State.initial world).busFlush executor none (some (.failed error)), .error error)
  | .ok startNodes =>
      let started := (State.initial world).pushStartNodes startNodes (launchInput inputData)
      match executeLoop executor runtime maxIterations started with
      | (state, some error) => (state.busFlush executor none (some (.failed error)), .error error)
      | (state, none) =>
          if maxIterations ≤ state.iteration then
            let error := "Workflow exceeded maximum iterations (possible infinite loop)"
            (state.busFlush executor none (some (.failed error)), .error error)
          else
            match runtime.display (collectFinalOutput executor state) with
            | .error error => (state.busFlush executor none (some (.failed error)), .error error)
            | .ok output => (state.busFlush executor none (some .completed), .ok output)

inductive UntilExit where
  | stackEmpty
  | targetReached (result : NodeOutput)
  | nodeFailed (nodeId error : String)
  deriving DecidableEq

/-- The body of the `while` loop of `execute_until`: `some` exit on `break`. -/
def untilBody (targetNodeId : String) (state : State World) (entry : StackEntry)
    (rest : List StackEntry) : State World × Option UntilExit :=
  let state := state.popped rest
  if executor.snapshot.isNodeDisabled entry.nodeId then
    ({ state with skipped := state.skipped ++ [entry.nodeId] }, none)
  else
    match executeNode executor runtime state.side state.executedOrder.length entry.nodeId
        entry.inputData false with
    | (side, .error error) =>
        (state.record side entry (.error error), some (.nodeFailed entry.nodeId error))
    | (side, .ok result) =>
        let state := state.record side entry (.ok result)
        if entry.nodeId = targetNodeId then (state, some (.targetReached result))
        else
          (state.applyRouting
            (routeOutputs executor entry result state.stack state.executedConnections), none)

def untilLoop (targetNodeId : String) : Nat → State World → State World × UntilExit
  | 0, state => (state, .stackEmpty)
  | remaining + 1, state =>
      match state.stack with
      | [] => (state, .stackEmpty)
      | entry :: rest =>
          match untilBody executor runtime targetNodeId state entry rest with
          | (state, some exit) => (state, exit)
          | (state, none) => untilLoop targetNodeId remaining state

def untilRun (world : World) (targetNodeId : String) (inputData : Value)
    (iterations : Nat) (startNodes : List String) : State World × UntilExit :=
  untilLoop executor runtime targetNodeId iterations
    ((State.initial world).pushStartNodes startNodes (launchInput inputData))

inductive PreviewStatus where
  | completed (result : NodeOutput)
  | failed (nodeId error : String)
  deriving DecidableEq

/-- `execute_until`: the final state and the returned status or the error. -/
def executeUntil (world : World) (targetNodeId : String) (inputData : Value)
    (iterations : Nat := maxIterations) : State World × Except String PreviewStatus :=
  if targetNodeId = "" then
    (State.initial world, .error "Target node is required for preview execution")
  else
    match executor.snapshot.findStartNodesForTarget targetNodeId with
    | .error error => (State.initial world, .error error)
    | .ok startNodes =>
        let left := untilRun executor runtime world targetNodeId inputData iterations startNodes
        if iterations ≤ left.1.iteration then
          (left.1, .error "Workflow exceeded maximum iterations (possible infinite loop)")
        else
          let notReached := "Target node " ++ targetNodeId ++ " was not reached"
          match left.2 with
          | .nodeFailed nodeId error =>
              -- An exception without a message is not seen: `if error_message`.
              if error = "" then (left.1, .error notReached)
              else (left.1, .ok (.failed nodeId error))
          | .targetReached result => (left.1, .ok (.completed result))
          | .stackEmpty => (left.1, .error notReached)

end Loops

end WorkflowStudio.Executor
