import WorkflowStudio.Executor.AncestorProperties
import WorkflowStudio.Executor.ConservationProperties

/-! A preview executes what the run executes. When the results of the nodes
depend on the node and its input only, the preview of a target simulates the
run up to the first execution of the target: the entries that descend from
start nodes without a path to the target are deleted from the stack and from
the trace, and no other entry is touched. -/

set_option autoImplicit false

namespace WorkflowStudio.Executor

open Lib

/-- Results depend on the node and its input, not on the world. -/
structure Runtime.Stateless {World : Type} (runtime : Runtime World) : Prop where
  executeNodeCore : ∀ world other node inputData,
    (runtime.executeNodeCore world node inputData).2 =
      (runtime.executeNodeCore other node inputData).2
  getPinData : ∀ world other node, runtime.getPinData world node = runtime.getPinData other node

/-- Two executors of one snapshot that apply the same pins, such as that of a manual
run and that of a preview. -/
structure Alike {World : Type} (runtime : Runtime World)
    (executor previewer : WorkflowExecutor) : Prop where
  snapshot : previewer.snapshot = executor.snapshot
  nodeOutputSockets : previewer.nodeOutputSockets = executor.nodeOutputSockets
  pins : ∀ world nodeId node, executor.snapshot.nodesById.get? nodeId = some node →
    pinnedResult previewer runtime world node = pinnedResult executor runtime world node

/-- A result without the log hint, which a persisted run takes out of it. -/
def NodeOutput.visible (result : NodeOutput) : NodeOutput := { result with logInput := none }

/-- Two executions of one entry whose results, if both return, are the same. -/
def Execution.Agrees (left right : Execution) : Prop :=
  left.entry = right.entry ∧ ∀ leftResult rightResult, left.outcome = .ok leftResult →
    right.outcome = .ok rightResult → leftResult.visible = rightResult.visible

theorem entries_of_agrees {left right : List Execution}
    (agrees : List.Forall₂ Execution.Agrees left right) :
    left.map Execution.entry = right.map Execution.entry := by
  induction agrees with
  | nil => rfl
  | cons head _ ih => rw [List.map_cons, List.map_cons, head.1, ih]

/-- The executions up to and including the first one of the target. -/
def throughTarget (targetNodeId : String) : List Execution → List Execution
  | [] => []
  | execution :: rest =>
      if execution.entry.nodeId = targetNodeId then [execution]
      else execution :: throughTarget targetNodeId rest

theorem throughTarget_append {targetNodeId : String} {before : List Execution}
    (earlier : ∀ execution ∈ before, execution.entry.nodeId ≠ targetNodeId)
    (after : List Execution) :
    throughTarget targetNodeId (before ++ after) = before ++ throughTarget targetNodeId after := by
  induction before with
  | nil => rfl
  | cons execution rest ih =>
      have different := earlier execution List.mem_cons_self
      rw [List.cons_append, throughTarget, if_neg different,
        ih fun other member => earlier other (List.mem_cons_of_mem _ member), List.cons_append]

/-!
## Routing depends on the visible result only
-/

def entryPushedBy (sockets : List String) (entry : StackEntry) (outputs : List (List Value))
    (conn : Connection) : Option StackEntry :=
  match present conn.target, socketToIndex sockets (conn.sourceHandle.getD (some "output")) with
  | some target, some outputIndex =>
      match outputs[outputIndex]? with
      | some (first :: rest) => some {
          nodeId := target
          inputData := inputOf first rest
          origin := entry.origin }
      | _ => none
  | _, _ => none

theorem routeConnection_stack (sockets : List String) (entry : StackEntry)
    (outputs : List (List Value)) (routing : Routing) (conn : Connection) :
    (routeConnection sockets entry outputs routing conn).stack =
      (entryPushedBy sockets entry outputs conn).toList ++ routing.stack := by
  unfold routeConnection entryPushedBy
  dsimp only
  cases present conn.target with
  | none => rfl
  | some target =>
      cases socketToIndex sockets (conn.sourceHandle.getD (some "output")) with
      | none => rfl
      | some outputIndex =>
          dsimp only
          rcases outputs[outputIndex]? with _ | _ | ⟨first, rest⟩ <;> rfl

theorem routeConnections_stack (sockets : List String) (entry : StackEntry)
    (outputs : List (List Value)) (conns : List Connection) (routing : Routing) :
    (conns.foldl (routeConnection sockets entry outputs) routing).stack =
      (conns.filterMap (entryPushedBy sockets entry outputs)).reverse ++ routing.stack := by
  induction conns generalizing routing with
  | nil => rfl
  | cons conn conns ih =>
      rw [List.foldl_cons, ih, routeConnection_stack]
      cases pushed : entryPushedBy sockets entry outputs conn with
      | none => simp [pushed]
      | some next => simp [pushed]

def routedEntries (executor : WorkflowExecutor) (entry : StackEntry) (result : NodeOutput) :
    List StackEntry :=
  (routeOutputs executor entry result [] []).stack

theorem routeOutputs_stack (executor : WorkflowExecutor) (entry : StackEntry)
    (result : NodeOutput) (stack : List StackEntry) (executedConnections : List ConnectionEvent) :
    (routeOutputs executor entry result stack executedConnections).stack =
      routedEntries executor entry result ++ stack := by
  simp only [routedEntries, routeOutputs, routeConnections_stack, List.append_nil]

theorem routedEntries_visible (executor : WorkflowExecutor) (entry : StackEntry)
    {left right : NodeOutput} (same : left.visible = right.visible) :
    routedEntries executor entry left = routedEntries executor entry right := by
  have outputs : left.outputs = right.outputs := by
    change left.visible.outputs = right.visible.outputs
    rw [same]
  have json : left.json = right.json := by
    change left.visible.json = right.visible.json
    rw [same]
  simp only [routedEntries, routeOutputs, outputs, json]

theorem Alike.routedEntries {World : Type} {runtime : Runtime World}
    {executor previewer : WorkflowExecutor} (alike : Alike runtime executor previewer)
    (entry : StackEntry) (result : NodeOutput) :
    routedEntries previewer entry result = routedEntries executor entry result := by
  simp only [WorkflowStudio.Executor.routedEntries, routeOutputs, alike.snapshot,
    alike.nodeOutputSockets]

theorem mem_routedEntries {executor : WorkflowExecutor} {entry pushed : StackEntry}
    {result : NodeOutput} (member : pushed ∈ routedEntries executor entry result) :
    pushed.origin = entry.origin ∧ executor.snapshot.Connects entry.nodeId pushed.nodeId := by
  simp only [routedEntries, routeOutputs, routeConnections_stack, List.append_nil,
    List.mem_reverse, List.mem_filterMap] at member
  obtain ⟨conn, outgoing, selected⟩ := member
  obtain ⟨listed, fromEntry⟩ := List.mem_filter.mp outgoing
  unfold entryPushedBy at selected
  split at selected
  · next target outputIndex targeted _ =>
      split at selected
      · cases selected
        exact ⟨rfl, conn, listed, of_decide_eq_true fromEntry, targeted⟩
      · cases selected
  · cases selected

/-!
## Results of one node
-/

section Results

variable {World : Type} {executor previewer : WorkflowExecutor} {runtime : Runtime World}

theorem failNode_not_ok {side after : Side World} {sequence : Nat} {node : Node}
    {inputData : Value} {error : String} {result : NodeOutput} :
    failNode executor runtime side sequence node inputData error ≠ (after, .ok result) := by
  unfold failNode
  dsimp only
  split <;> simp

theorem returnPinned_ok {side after : Side World} {sequence : Nat} {node : Node}
    {inputData : Value} {persist : Bool} {pinned result : NodeOutput}
    (returned : returnPinned executor runtime side sequence node inputData persist pinned =
      (after, .ok result)) : result = pinned := by
  unfold returnPinned at returned
  dsimp only at returned
  split at returned
  · cases returned
  · cases returned
    rfl

theorem executePersisted_ok {side after : Side World} {sequence : Nat} {node : Node}
    {inputData : Value} {result : NodeOutput}
    (returned : executePersisted executor runtime side sequence node inputData =
      (after, .ok result)) :
    ∃ ran, (runtime.executeNodeCore side.world node inputData).2 = .ok ran ∧
      result.visible = ran.visible := by
  unfold executePersisted at returned
  dsimp only at returned
  split at returned
  · exact absurd returned failNode_not_ok
  · next ran called =>
      split at returned
      · exact absurd returned failNode_not_ok
      · cases returned
        exact ⟨ran, called, rfl⟩

theorem executeTransient_ok {side after : Side World} {node : Node} {inputData : Value}
    {result : NodeOutput}
    (returned : executeTransient executor runtime side node inputData = (after, .ok result)) :
    (runtime.executeNodeCore side.world node inputData).2 = .ok result := by
  unfold executeTransient at returned
  dsimp only at returned
  split at returned
  · cases returned
  · next ran called =>
      split at returned
      · cases returned
      · cases returned
        exact called

/-- A returned result is the pinned one or the runner's, up to the log hint. -/
theorem executeNode_ok {side after : Side World} {sequence : Nat} {nodeId : String}
    {inputData : Value} {persist : Bool} {result : NodeOutput}
    (returned : executeNode executor runtime side sequence nodeId inputData persist =
      (after, .ok result)) :
    ∃ node world, executor.snapshot.nodesById.get? nodeId = some node ∧
      match pinnedResult executor runtime world node with
      | .error _ => False
      | .ok (some pinned) => result = pinned
      | .ok none => ∃ (runnerWorld : World) (ran : NodeOutput),
          (runtime.executeNodeCore runnerWorld node inputData).2 = .ok ran ∧
            result.visible = ran.visible := by
  unfold executeNode at returned
  split at returned
  · cases returned
  · next node found =>
      split at returned
      · cases returned
      · next started _ _ =>
          refine ⟨node, started.world, found, ?_⟩
          cases selected : pinnedResult executor runtime started.world node with
          | error error =>
              simp only [selected] at returned
              cases returned
          | ok pinned =>
              cases pinned with
              | some pinned =>
                  simp only [selected] at returned
                  exact returnPinned_ok returned
              | none =>
                  simp only [selected] at returned
                  split at returned
                  · obtain ⟨ran, called, same⟩ := executePersisted_ok returned
                    exact ⟨_, ran, called, same⟩
                  · exact ⟨_, result, executeTransient_ok returned, rfl⟩

theorem Runtime.Stateless.pinnedResult (stateless : runtime.Stateless) (world other : World)
    (node : Node) :
    pinnedResult executor runtime world node = pinnedResult executor runtime other node := by
  unfold WorkflowStudio.Executor.pinnedResult
  rw [stateless.getPinData world other]

/-- Two executors of one snapshot get the same from a node, if they get something. -/
theorem executeNode_agree (alike : Alike runtime executor previewer)
    (stateless : runtime.Stateless)
    {side other after otherAfter : Side World} {sequence otherSequence : Nat} {nodeId : String}
    {inputData : Value} {persist otherPersist : Bool} {result otherResult : NodeOutput}
    (left : executeNode previewer runtime side sequence nodeId inputData persist =
      (after, .ok result))
    (right : executeNode executor runtime other otherSequence nodeId inputData otherPersist =
      (otherAfter, .ok otherResult)) :
    result.visible = otherResult.visible := by
  obtain ⟨node, world, found, leftCase⟩ := executeNode_ok left
  obtain ⟨otherNode, otherWorld, otherFound, rightCase⟩ := executeNode_ok right
  rw [alike.snapshot, otherFound, Option.some.injEq] at found
  subst otherNode
  rw [alike.pins world nodeId node otherFound, stateless.pinnedResult world otherWorld] at leftCase
  cases pin : pinnedResult executor runtime otherWorld node with
  | error error =>
      rw [pin] at leftCase
      exact leftCase.elim
  | ok pinned =>
      rw [pin] at leftCase rightCase
      cases pinned with
      | some pinned => rw [leftCase, rightCase]
      | none =>
          obtain ⟨leftWorld, leftRan, leftCalled, leftSame⟩ := leftCase
          obtain ⟨rightWorld, rightRan, rightCalled, rightSame⟩ := rightCase
          rw [stateless.executeNodeCore rightWorld leftWorld, leftCalled, Except.ok.injEq]
            at rightCalled
          rw [leftSame, rightSame, rightCalled]

end Results

/-!
## The simulation
-/

section Simulation

variable {World : Type} {executor previewer : WorkflowExecutor} {runtime : Runtime World}
  {targetNodeId : String}

/-- `executed_order` and the trace list the same nodes, and each outcome in the
trace is one of executing the node on the input of its entry. -/
structure State.Recorded (executor : WorkflowExecutor) (runtime : Runtime World)
    (state : State World) : Prop where
  order : state.executedOrder = state.executions.map fun execution => execution.entry.nodeId
  outcomes : ∀ execution ∈ state.executions, ∃ side sequence persist,
    (executeNode executor runtime side sequence execution.entry.nodeId
      execution.entry.inputData persist).2 = execution.outcome

theorem State.Recorded.execute {state after : State World} {entry : StackEntry}
    {outcome : Except String NodeOutput} (recorded : state.Recorded executor runtime)
    (order : after.executedOrder = state.executedOrder ++ [entry.nodeId])
    (executions : after.executions = state.executions ++ [⟨entry, outcome⟩])
    {side called : Side World} {sequence : Nat} {persist : Bool}
    (ran : executeNode executor runtime side sequence entry.nodeId entry.inputData persist =
      (called, outcome)) : after.Recorded executor runtime where
  order := by
    rw [order, executions, recorded.order, List.map_append]
    rfl
  outcomes := by
    rw [executions]
    intro execution member
    rcases List.mem_append.mp member with old | new
    · exact recorded.outcomes execution old
    · rw [List.mem_singleton.mp new]
      exact ⟨side, sequence, persist, by rw [ran]⟩

theorem executeBody_raises {state after : State World} {entry : StackEntry}
    {rest : List StackEntry} {error : String}
    (raised : executeBody executor runtime state entry rest = (after, some error)) :
    executor.snapshot.isNodeDisabled entry.nodeId = false ∧
      (∃ side, executeNode executor runtime state.side state.executedOrder.length entry.nodeId
        entry.inputData executor.persist = (side, .error error)) ∧
      after.executions = state.executions ++ [⟨entry, .error error⟩] ∧
      after.executedOrder = state.executedOrder ++ [entry.nodeId] := by
  unfold executeBody at raised
  dsimp only at raised
  split at raised
  · cases raised
  · next enabled =>
      split at raised
      · next side _ ran =>
          rw [State.busFlush_core] at raised
          cases raised
          exact ⟨by simpa using enabled, ⟨side, ran⟩, rfl, rfl⟩
      · cases raised

theorem executeBody_recorded {state after : State World} {entry : StackEntry}
    {rest : List StackEntry} {raised : Option String}
    (passed : executeBody executor runtime state entry rest = (after, raised))
    (recorded : state.Recorded executor runtime) : after.Recorded executor runtime := by
  cases raised with
  | some error =>
      obtain ⟨_, ⟨side, ran⟩, executions, order⟩ := executeBody_raises passed
      exact recorded.execute order executions ran
  | none =>
      rcases executeBody_cases passed with ⟨_, rfl⟩ | ⟨side, result, bus, _, ran, rfl⟩
      · exact ⟨recorded.order, recorded.outcomes⟩
      · exact recorded.execute rfl rfl ran

variable (executor runtime) in
theorem executeLoop_recorded (remaining : Nat) {state : State World}
    (recorded : state.Recorded executor runtime) :
    (executeLoop executor runtime remaining state).1.Recorded executor runtime := by
  refine executeLoop_invariant (State.Recorded executor runtime) ?_ remaining recorded
  intro state entry rest after raised recorded _ passed
  exact executeBody_recorded passed recorded

variable (executor runtime targetNodeId) in
theorem untilBody_recorded {state : State World} (entry : StackEntry) (rest : List StackEntry)
    (recorded : state.Recorded executor runtime) :
    (untilBody executor runtime targetNodeId state entry rest).1.Recorded executor runtime := by
  unfold untilBody
  dsimp only
  split
  · exact ⟨recorded.order, recorded.outcomes⟩
  · split
    · next ran => exact recorded.execute rfl rfl ran
    · next ran =>
        split
        · exact recorded.execute rfl rfl ran
        · exact recorded.execute rfl rfl ran

variable (executor runtime targetNodeId) in
/-- What each pass of the preview keeps, the preview keeps. -/
theorem untilLoop_invariant (holds : State World → Prop)
    (keeps : ∀ state entry rest, holds state →
      holds (untilBody executor runtime targetNodeId state entry rest).1)
    (allowed : Nat) {state : State World} (held : holds state) :
    holds (untilLoop executor runtime targetNodeId allowed state).1 := by
  induction allowed generalizing state with
  | zero => exact held
  | succ allowed ih =>
      unfold untilLoop
      split
      · exact held
      · next entry rest _ =>
          have next := keeps state entry rest held
          cases passed : untilBody executor runtime targetNodeId state entry rest with
          | mk after exit =>
              rw [passed] at next
              cases exit with
              | some exit => exact next
              | none => exact ih next

variable (executor runtime targetNodeId) in
theorem untilLoop_recorded (allowed : Nat) {state : State World}
    (recorded : state.Recorded executor runtime) :
    (untilLoop executor runtime targetNodeId allowed state).1.Recorded executor runtime := by
  refine untilLoop_invariant executor runtime targetNodeId (State.Recorded executor runtime) ?_
    allowed recorded
  intro state entry rest recorded
  exact untilBody_recorded executor runtime targetNodeId entry rest recorded

variable (executor runtime) in
theorem executeLoop_extends (remaining : Nat) (state : State World) :
    ∃ later, (executeLoop executor runtime remaining state).1.executions =
      state.executions ++ later := by
  let Extends (later : State World) : Prop := state.executions <+: later.executions
  have extended : Extends (executeLoop executor runtime remaining state).1 := by
    refine executeLoop_invariant Extends ?_ remaining List.prefix_rfl
    intro before entry rest after raised held _ passed
    cases raised with
    | some error => exact held.trans ⟨_, (executeBody_raises passed).2.2.1.symm⟩
    | none =>
        rcases executeBody_cases passed with ⟨_, rfl⟩ | ⟨side, result, bus, _, _, rfl⟩
        · exact held
        · exact held.trans (List.prefix_append _ _)
  obtain ⟨later, grown⟩ := extended
  exact ⟨later, grown.symm⟩

open Classical in
/-- The preview's state is the run's state without the entries and executions
whose origin has no path to the target, and the target is still to come. -/
structure Simulates (executor : WorkflowExecutor) (targetNodeId : String)
    (run preview : State World) : Prop where
  stack : preview.stack = run.stack.filter fun entry =>
    decide (executor.snapshot.Reaches entry.origin targetNodeId)
  trace : List.Forall₂ Execution.Agrees preview.executions (run.executions.filter fun execution =>
    decide (executor.snapshot.Reaches execution.entry.origin targetNodeId))
  before : ∀ execution ∈ run.executions, execution.entry.nodeId ≠ targetNodeId
  rooted : ∀ entry ∈ run.stack, executor.snapshot.Reaches entry.origin entry.nodeId

open Classical in
/-- The preview's trace is the run's trace through the target, less what
descends from start nodes without a path to the target, and it ends with the
target if the run executes it. -/
structure PreviewAgrees (executor : WorkflowExecutor) (targetNodeId : String)
    (runTrace previewTrace : List Execution) : Prop where
  trace : List.Forall₂ Execution.Agrees previewTrace
    ((throughTarget targetNodeId runTrace).filter fun execution =>
      decide (executor.snapshot.Reaches execution.entry.origin targetNodeId))
  target : ∀ execution,
    runTrace.find? (fun earlier => decide (earlier.entry.nodeId = targetNodeId)) = some execution →
      ∃ before previewed, previewTrace = before ++ [previewed] ∧ previewed.Agrees execution

theorem untilLoop_of_empty {state : State World} (empty : state.stack = []) (allowed : Nat) :
    untilLoop executor runtime targetNodeId allowed state = (state, .stackEmpty) := by
  cases allowed with
  | zero => rfl
  | succ allowed => rw [untilLoop, empty]

theorem untilLoop_skip {state : State World} {entry : StackEntry} {rest : List StackEntry}
    (top : state.stack = entry :: rest)
    (disabled : executor.snapshot.isNodeDisabled entry.nodeId = true) (allowed : Nat) :
    untilLoop executor runtime targetNodeId (allowed + 1) state =
      untilLoop executor runtime targetNodeId allowed
        { state.popped rest with skipped := state.skipped ++ [entry.nodeId] } := by
  rw [untilLoop, top]
  simp only [untilBody, disabled, ↓reduceIte]
  rfl

theorem untilLoop_target {state : State World} {entry : StackEntry} {rest : List StackEntry}
    (top : state.stack = entry :: rest)
    (enabled : executor.snapshot.isNodeDisabled entry.nodeId = false)
    (atTarget : entry.nodeId = targetNodeId) (allowed : Nat) :
    (untilLoop executor runtime targetNodeId (allowed + 1) state).1.executions =
      state.executions ++ [⟨entry, (executeNode executor runtime state.side
        state.executedOrder.length entry.nodeId entry.inputData false).2⟩] := by
  rw [untilLoop, top]
  simp only [untilBody, enabled, Bool.false_eq_true, ↓reduceIte, State.popped]
  cases executeNode executor runtime state.side state.executedOrder.length entry.nodeId
      entry.inputData false with
  | mk side outcome =>
      cases outcome with
      | error error => rfl
      | ok result =>
          simp only [atTarget, ↓reduceIte]
          rfl

theorem untilLoop_reached {state : State World} {entry : StackEntry} {rest : List StackEntry}
    (top : state.stack = entry :: rest)
    (enabled : executor.snapshot.isNodeDisabled entry.nodeId = false)
    (atTarget : entry.nodeId = targetNodeId) {side : Side World} {result : NodeOutput}
    (returned : executeNode executor runtime state.side state.executedOrder.length entry.nodeId
      entry.inputData false = (side, .ok result)) (allowed : Nat) :
    untilLoop executor runtime targetNodeId (allowed + 1) state =
      ((state.popped rest).record side entry (.ok result), .targetReached result) := by
  subst atTarget
  rw [untilLoop, top]
  simp only [untilBody, enabled, Bool.false_eq_true, ↓reduceIte, State.popped, returned]

theorem untilLoop_failed {state : State World} {entry : StackEntry} {rest : List StackEntry}
    (top : state.stack = entry :: rest)
    (enabled : executor.snapshot.isNodeDisabled entry.nodeId = false)
    {side : Side World} {error : String}
    (failed : executeNode executor runtime state.side state.executedOrder.length entry.nodeId
      entry.inputData false = (side, .error error)) (allowed : Nat) :
    untilLoop executor runtime targetNodeId (allowed + 1) state =
      ((state.popped rest).record side entry (.error error), .nodeFailed entry.nodeId error) := by
  rw [untilLoop, top]
  simp only [untilBody, enabled, Bool.false_eq_true, ↓reduceIte, State.popped, failed]

theorem untilLoop_routed {state : State World} {entry : StackEntry} {rest : List StackEntry}
    (top : state.stack = entry :: rest)
    (enabled : executor.snapshot.isNodeDisabled entry.nodeId = false)
    (elsewhere : entry.nodeId ≠ targetNodeId) {side : Side World} {result : NodeOutput}
    (returned : executeNode executor runtime state.side state.executedOrder.length entry.nodeId
      entry.inputData false = (side, .ok result)) (allowed : Nat) :
    untilLoop executor runtime targetNodeId (allowed + 1) state =
      untilLoop executor runtime targetNodeId allowed
        (((state.popped rest).record side entry (.ok result)).applyRouting
          (routeOutputs executor entry result rest state.executedConnections)) := by
  rw [untilLoop, top]
  simp only [untilBody, enabled, Bool.false_eq_true, ↓reduceIte, State.popped, returned, elsewhere]
  rfl

namespace Simulates

variable {run preview run' preview' : State World} {entry : StackEntry} {rest : List StackEntry}
  {result result' : NodeOutput}

theorem kept_of_target (simulates : Simulates executor targetNodeId run preview)
    (top : run.stack = entry :: rest) (atTarget : entry.nodeId = targetNodeId) :
    executor.snapshot.Reaches entry.origin targetNodeId := by
  rw [← atTarget]
  exact simulates.rooted entry (by rw [top]; exact List.mem_cons_self)

open Classical in
theorem preview_top (simulates : Simulates executor targetNodeId run preview)
    (top : run.stack = entry :: rest)
    (kept : executor.snapshot.Reaches entry.origin targetNodeId) :
    preview.stack = entry :: rest.filter fun waiting =>
      decide (executor.snapshot.Reaches waiting.origin targetNodeId) := by
  rw [simulates.stack, top, List.filter_cons_of_pos (by simpa using kept)]

open Classical in
theorem skip_kept (simulates : Simulates executor targetNodeId run preview)
    (top : run.stack = entry :: rest)
    (runStack : run'.stack = rest) (runTrace : run'.executions = run.executions)
    (previewStack : preview'.stack = rest.filter fun waiting =>
      decide (executor.snapshot.Reaches waiting.origin targetNodeId))
    (previewTrace : preview'.executions = preview.executions) :
    Simulates executor targetNodeId run' preview' where
  stack := by rw [previewStack, runStack]
  trace := by rw [previewTrace, runTrace]; exact simulates.trace
  before := by rw [runTrace]; exact simulates.before
  rooted := by
    rw [runStack]
    intro waiting member
    exact simulates.rooted waiting (by rw [top]; exact List.mem_cons_of_mem _ member)

theorem skip_deleted (simulates : Simulates executor targetNodeId run preview)
    (top : run.stack = entry :: rest)
    (deleted : ¬ executor.snapshot.Reaches entry.origin targetNodeId)
    (runStack : run'.stack = rest) (runTrace : run'.executions = run.executions) :
    Simulates executor targetNodeId run' preview := by
  refine simulates.skip_kept top runStack runTrace ?_ rfl
  rw [simulates.stack, top, List.filter_cons_of_neg (by simpa using deleted)]

theorem rooted_routed (simulates : Simulates executor targetNodeId run preview)
    (top : run.stack = entry :: rest) :
    ∀ waiting ∈ routedEntries executor entry result ++ rest,
      executor.snapshot.Reaches waiting.origin waiting.nodeId := by
  intro waiting member
  rcases List.mem_append.mp member with pushed | old
  · obtain ⟨origin, edge⟩ := mem_routedEntries pushed
    rw [origin]
    exact (simulates.rooted entry (by rw [top]; exact List.mem_cons_self)).tail edge
  · exact simulates.rooted waiting (by rw [top]; exact List.mem_cons_of_mem _ old)

theorem before_executed (simulates : Simulates executor targetNodeId run preview)
    (elsewhere : entry.nodeId ≠ targetNodeId) {outcome : Except String NodeOutput} :
    ∀ execution ∈ run.executions ++ [⟨entry, outcome⟩],
      execution.entry.nodeId ≠ targetNodeId := by
  intro execution member
  rcases List.mem_append.mp member with old | new
  · exact simulates.before execution old
  · rw [List.mem_singleton.mp new]
    exact elsewhere

open Classical in
theorem execute_kept (simulates : Simulates executor targetNodeId run preview)
    (top : run.stack = entry :: rest)
    (kept : executor.snapshot.Reaches entry.origin targetNodeId)
    (elsewhere : entry.nodeId ≠ targetNodeId) (same : result'.visible = result.visible)
    (runStack : run'.stack = routedEntries executor entry result ++ rest)
    (runTrace : run'.executions = run.executions ++ [⟨entry, .ok result⟩])
    (previewStack : preview'.stack = routedEntries executor entry result' ++
      rest.filter fun waiting =>
        decide (executor.snapshot.Reaches waiting.origin targetNodeId))
    (previewTrace : preview'.executions = preview.executions ++ [⟨entry, .ok result'⟩]) :
    Simulates executor targetNodeId run' preview' where
  stack := by
    have all : (routedEntries executor entry result).filter (fun waiting =>
        decide (executor.snapshot.Reaches waiting.origin targetNodeId)) =
        routedEntries executor entry result := by
      rw [List.filter_eq_self]
      intro waiting member
      rw [(mem_routedEntries member).1]
      exact decide_eq_true kept
    rw [previewStack, runStack, List.filter_append, all, routedEntries_visible executor entry same]
  trace := by
    rw [previewTrace, runTrace, List.filter_append,
      List.filter_cons_of_pos (by simpa using kept), List.filter_nil]
    refine List.rel_append simulates.trace (.cons ⟨rfl, ?_⟩ .nil)
    rintro _ _ ⟨⟩ ⟨⟩
    exact same
  before := by rw [runTrace]; exact simulates.before_executed elsewhere
  rooted := by rw [runStack]; exact simulates.rooted_routed top

open Classical in
theorem execute_deleted (simulates : Simulates executor targetNodeId run preview)
    (top : run.stack = entry :: rest)
    (deleted : ¬ executor.snapshot.Reaches entry.origin targetNodeId)
    (runStack : run'.stack = routedEntries executor entry result ++ rest)
    (runTrace : run'.executions = run.executions ++ [⟨entry, .ok result⟩]) :
    Simulates executor targetNodeId run' preview where
  stack := by
    have none : (routedEntries executor entry result).filter (fun waiting =>
        decide (executor.snapshot.Reaches waiting.origin targetNodeId)) = [] := by
      rw [List.filter_eq_nil_iff]
      intro waiting member
      rw [(mem_routedEntries member).1]
      simpa using deleted
    rw [runStack, List.filter_append, none, List.nil_append, simulates.stack, top,
      List.filter_cons_of_neg (by simpa using deleted)]
  trace := by
    rw [runTrace, List.filter_append, List.filter_cons_of_neg (by simpa using deleted),
      List.filter_nil, List.append_nil]
    exact simulates.trace
  before := by
    rw [runTrace]
    exact simulates.before_executed fun atTarget => deleted (simulates.kept_of_target top atTarget)
  rooted := by rw [runStack]; exact simulates.rooted_routed top

theorem find_before (simulates : Simulates executor targetNodeId run preview) :
    run.executions.find? (fun earlier => decide (earlier.entry.nodeId = targetNodeId)) = none := by
  rw [List.find?_eq_none]
  intro execution member
  simpa using simulates.before execution member

theorem reached (simulates : Simulates executor targetNodeId run preview)
    (top : run.stack = entry :: rest) (atTarget : entry.nodeId = targetNodeId)
    {runOutcome previewOutcome : Except String NodeOutput} {later : List Execution}
    (same : ∀ left right, previewOutcome = .ok left → runOutcome = .ok right →
      left.visible = right.visible) :
    PreviewAgrees executor targetNodeId (run.executions ++ ⟨entry, runOutcome⟩ :: later)
      (preview.executions ++ [⟨entry, previewOutcome⟩]) where
  trace := by
    rw [throughTarget_append simulates.before, throughTarget, if_pos atTarget, List.filter_append,
      List.filter_cons_of_pos (by simpa using simulates.kept_of_target top atTarget),
      List.filter_nil]
    exact List.rel_append simulates.trace (.cons ⟨rfl, same⟩ .nil)
  target := by
    intro execution found
    rw [List.find?_append, simulates.find_before, Option.none_or,
      List.find?_cons_of_pos (by simpa using atTarget)] at found
    cases found
    exact ⟨preview.executions, _, rfl, rfl, same⟩

theorem exhausted (simulates : Simulates executor targetNodeId run preview) :
    PreviewAgrees executor targetNodeId run.executions preview.executions where
  trace := by
    have all := throughTarget_append simulates.before []
    rw [List.append_nil, throughTarget, List.append_nil] at all
    rw [all]
    exact simulates.trace
  target := by
    intro execution found
    rw [simulates.find_before] at found
    cases found

theorem preview_before (simulates : Simulates executor targetNodeId run preview) :
    ∀ execution ∈ preview.executions, execution.entry.nodeId ≠ targetNodeId := by
  intro execution member
  have listed : execution.entry ∈ preview.executions.map Execution.entry :=
    List.mem_map.mpr ⟨execution, member, rfl⟩
  rw [entries_of_agrees simulates.trace] at listed
  obtain ⟨other, kept, same⟩ := List.mem_map.mp listed
  rw [← same]
  exact simulates.before other (List.mem_filter.mp kept).1

theorem agrees_of_raised (simulates : Simulates executor targetNodeId run preview)
    (alike : Alike runtime executor previewer) (top : run.stack = entry :: rest) {error : String}
    (passed : executeBody executor runtime run entry rest = (run', some error))
    (executed : ∃ execution ∈ run'.executions, execution.entry.nodeId = targetNodeId)
    (allowed : Nat) :
    PreviewAgrees executor targetNodeId run'.executions
      (untilLoop previewer runtime targetNodeId (allowed + 1) preview).1.executions := by
  obtain ⟨enabled, _, executions, _⟩ := executeBody_raises passed
  rw [executions] at executed ⊢
  have atTarget : entry.nodeId = targetNodeId := by
    obtain ⟨execution, member, found⟩ := executed
    rcases List.mem_append.mp member with old | new
    · exact absurd found (simulates.before execution old)
    · rw [List.mem_singleton.mp new] at found
      exact found
  have kept := simulates.kept_of_target top atTarget
  rw [untilLoop_target (simulates.preview_top top kept) (alike.snapshot.symm ▸ enabled) atTarget]
  refine simulates.reached top atTarget ?_
  intro left right _ impossible
  cases impossible

theorem agrees_of_target (simulates : Simulates executor targetNodeId run preview)
    (alike : Alike runtime executor previewer) (stateless : runtime.Stateless)
    (top : run.stack = entry :: rest)
    (enabled : executor.snapshot.isNodeDisabled entry.nodeId = false)
    (atTarget : entry.nodeId = targetNodeId) {side : Side World}
    (returned : executeNode executor runtime run.side run.executedOrder.length entry.nodeId
      entry.inputData executor.persist = (side, .ok result))
    (runTrace : run'.executions = run.executions ++ [⟨entry, .ok result⟩])
    (remaining allowed : Nat) :
    PreviewAgrees executor targetNodeId (executeLoop executor runtime remaining run').1.executions
      (untilLoop previewer runtime targetNodeId (allowed + 1) preview).1.executions := by
  obtain ⟨later, extended⟩ := executeLoop_extends executor runtime remaining run'
  have previewTop := simulates.preview_top top (simulates.kept_of_target top atTarget)
  rw [untilLoop_target previewTop (alike.snapshot.symm ▸ enabled) atTarget, extended, runTrace,
    List.append_assoc, List.singleton_append]
  refine simulates.reached top atTarget ?_
  intro left right ranLeft ranRight
  cases ranRight
  exact executeNode_agree alike stateless (Prod.ext rfl ranLeft) returned

/-- A pass of the run that executes an entry of the preview before the target:
the preview executes it too, unless it raises there. -/
theorem step_kept (simulates : Simulates executor targetNodeId run preview)
    (alike : Alike runtime executor previewer) (stateless : runtime.Stateless)
    (top : run.stack = entry :: rest)
    (kept : executor.snapshot.Reaches entry.origin targetNodeId)
    (enabled : executor.snapshot.isNodeDisabled entry.nodeId = false)
    (elsewhere : entry.nodeId ≠ targetNodeId) {side : Side World}
    (returned : executeNode executor runtime run.side run.executedOrder.length entry.nodeId
      entry.inputData executor.persist = (side, .ok result))
    (runStack : run'.stack = routedEntries executor entry result ++ rest)
    (runTrace : run'.executions = run.executions ++ [⟨entry, .ok result⟩]) {allowed : Nat}
    (previews : (∃ execution ∈
        (untilLoop previewer runtime targetNodeId (allowed + 1) preview).1.executions,
        execution.entry.nodeId = targetNodeId) ∨
      (untilLoop previewer runtime targetNodeId (allowed + 1) preview).2 = .stackEmpty) :
    ∃ preview', untilLoop previewer runtime targetNodeId (allowed + 1) preview =
        untilLoop previewer runtime targetNodeId allowed preview' ∧
      Simulates executor targetNodeId run' preview' := by
  have previewTop := simulates.preview_top top kept
  have previewEnabled : previewer.snapshot.isNodeDisabled entry.nodeId = false :=
    alike.snapshot.symm ▸ enabled
  cases called : executeNode previewer runtime preview.side preview.executedOrder.length
      entry.nodeId entry.inputData false with
  | mk previewSide outcome =>
      cases outcome with
      | error error =>
          rw [untilLoop_failed previewTop previewEnabled called] at previews
          rcases previews with ⟨execution, member, found⟩ | finished
          · rcases List.mem_append.mp member with old | new
            · exact absurd found (simulates.preview_before execution old)
            · rw [List.mem_singleton.mp new] at found
              exact absurd found elsewhere
          · cases finished
      | ok previewResult =>
          refine ⟨_, untilLoop_routed previewTop previewEnabled elsewhere called allowed, ?_⟩
          have same := executeNode_agree alike stateless called returned
          refine simulates.execute_kept top kept elsewhere same runStack runTrace ?_ rfl
          rw [← alike.routedEntries]
          exact routeOutputs_stack previewer entry previewResult _ _

/-- The traces of the two loops agree once each of them has executed the
target or emptied its stack. -/
theorem loop (alike : Alike runtime executor previewer) (stateless : runtime.Stateless)
    (remaining : Nat)
    (simulates : Simulates executor targetNodeId run preview) {allowed : Nat}
    (enough : remaining ≤ allowed)
    (runs : (∃ execution ∈ (executeLoop executor runtime remaining run).1.executions,
        execution.entry.nodeId = targetNodeId) ∨
      ((executeLoop executor runtime remaining run).2 = none ∧
        (executeLoop executor runtime remaining run).1.stack = []))
    (previews : (∃ execution ∈
        (untilLoop previewer runtime targetNodeId allowed preview).1.executions,
        execution.entry.nodeId = targetNodeId) ∨
      (untilLoop previewer runtime targetNodeId allowed preview).2 = .stackEmpty) :
    PreviewAgrees executor targetNodeId (executeLoop executor runtime remaining run).1.executions
      (untilLoop previewer runtime targetNodeId allowed preview).1.executions := by
  induction remaining generalizing run preview allowed with
  | zero =>
      -- without iterations the run can only have ended with an empty stack
      have empty : run.stack = [] := by
        rcases runs with ⟨execution, member, atTarget⟩ | ⟨_, empty⟩
        · exact absurd atTarget (simulates.before execution member)
        · exact empty
      rw [untilLoop_of_empty (by rw [simulates.stack, empty]; rfl)]
      exact simulates.exhausted
  | succ remaining ih =>
      obtain ⟨allowed, rfl⟩ : ∃ left, allowed = left + 1 := ⟨allowed - 1, by omega⟩
      cases top : run.stack with
      | nil =>
          rw [untilLoop_of_empty (by rw [simulates.stack, top]; rfl), executeLoop, top]
          exact simulates.exhausted
      | cons entry rest =>
          cases passed : executeBody executor runtime run entry rest with
          | mk after raised =>
              cases raised with
              | some error =>
                  have stopped : executeLoop executor runtime (remaining + 1) run =
                      (after, some error) := by rw [executeLoop, top]; simp only [passed]
                  rw [stopped] at runs ⊢
                  rcases runs with executed | ⟨noError, _⟩
                  · exact simulates.agrees_of_raised alike top passed executed allowed
                  · cases noError
              | none =>
                  have continued : executeLoop executor runtime (remaining + 1) run =
                      executeLoop executor runtime remaining after := by
                    rw [executeLoop, top]; simp only [passed]
                  rw [continued] at runs ⊢
                  rcases executeBody_cases passed with
                    ⟨disabled, rfl⟩ | ⟨side, result, bus, enabled, returned, routed⟩
                  · by_cases kept : executor.snapshot.Reaches entry.origin targetNodeId
                    · rw [untilLoop_skip (simulates.preview_top top kept)
                        (alike.snapshot.symm ▸ disabled)] at previews ⊢
                      refine ih ?_ (by omega) runs previews
                      exact simulates.skip_kept top rfl rfl rfl rfl
                    · refine ih ?_ (by omega) runs previews
                      exact simulates.skip_deleted top kept rfl rfl
                  · have runStack : after.stack = routedEntries executor entry result ++ rest := by
                      rw [routed]
                      exact routeOutputs_stack executor entry result rest run.executedConnections
                    have runTrace : after.executions = run.executions ++ [⟨entry, .ok result⟩] := by
                      rw [routed]
                      rfl
                    by_cases kept : executor.snapshot.Reaches entry.origin targetNodeId
                    · by_cases atTarget : entry.nodeId = targetNodeId
                      · exact simulates.agrees_of_target alike stateless top enabled atTarget
                          returned runTrace remaining allowed
                      · obtain ⟨preview', stepped, next⟩ := simulates.step_kept alike stateless top
                          kept enabled atTarget returned runStack runTrace previews
                        rw [stepped] at previews ⊢
                        exact ih next (by omega) runs previews
                    · refine ih ?_ (by omega) runs previews
                      exact simulates.execute_deleted top kept runStack runTrace

end Simulates

/-!
## From the loops to the two methods
-/

theorem executeLoop_ends (remaining : Nat) {state after : State World}
    (ended : executeLoop executor runtime remaining state = (after, none)) :
    after.stack = [] ∨ after.iteration = state.iteration + remaining := by
  induction remaining generalizing state with
  | zero =>
      cases ended
      exact .inr rfl
  | succ remaining ih =>
      rw [executeLoop] at ended
      split at ended
      · next empty =>
          cases ended
          exact .inl empty
      · next entry rest top =>
          cases passed : executeBody executor runtime state entry rest with
          | mk next raised =>
              rw [passed] at ended
              cases raised with
              | some error => cases ended
              | none =>
                  have counted : next.iteration = state.iteration + 1 := by
                    rcases executeBody_cases passed with ⟨_, rfl⟩ | ⟨side, result, bus, _, _, rfl⟩
                      <;> rfl
                  rcases ih ended with empty | used
                  · exact .inl empty
                  · right
                    omega

def State.launched (world : World) (startNodes : List String) (inputData : Value) : State World :=
  (State.initial world).pushStartNodes startNodes (launchInput inputData)

theorem State.launched_recorded (world : World) (startNodes : List String) (inputData : Value) :
    (State.launched world startNodes inputData).Recorded executor runtime :=
  ⟨rfl, fun _ member => nomatch member⟩

theorem execute_loop (runtime : Runtime World) (world : World) (inputData : Value)
    {startNodes : List String} (found : executor.snapshot.findStartNodes = .ok startNodes) :
    (execute executor runtime world inputData []).1.executions =
        (executeLoop executor runtime maxIterations
          (State.launched world startNodes inputData)).1.executions ∧
      (execute executor runtime world inputData []).1.executedOrder =
        (executeLoop executor runtime maxIterations
          (State.launched world startNodes inputData)).1.executedOrder ∧
      ((∃ output, (execute executor runtime world inputData []).2 = .ok output) →
        (executeLoop executor runtime maxIterations
          (State.launched world startNodes inputData)).2 = none ∧
        (executeLoop executor runtime maxIterations
          (State.launched world startNodes inputData)).1.stack = []) := by
  have starts : executeStartNodes executor [] = .ok startNodes := found
  simp only [execute, starts, State.launched]
  cases ended : executeLoop executor runtime maxIterations
      ((State.initial world).pushStartNodes startNodes (launchInput inputData)) with
  | mk state raised =>
      cases raised with
      | some error =>
          dsimp only
          rw [State.busFlush_core]
          exact ⟨rfl, rfl, by simp⟩
      | none =>
          dsimp only
          split
          · rw [State.busFlush_core]
            exact ⟨rfl, rfl, by simp⟩
          · next below =>
              have empty : state.stack = [] := by
                rcases executeLoop_ends _ ended with empty | used
                · exact empty
                · simp only [State.pushStartNodes, State.initial, Nat.zero_add] at used
                  omega
              cases runtime.display (collectFinalOutput executor state) with
              | error error =>
                  dsimp only
                  rw [State.busFlush_core]
                  exact ⟨rfl, rfl, fun _ => ⟨rfl, empty⟩⟩
              | ok output =>
                  dsimp only
                  rw [State.busFlush_core]
                  exact ⟨rfl, rfl, fun _ => ⟨rfl, empty⟩⟩

theorem not_reached_ne_exceeded (targetNodeId : String) :
    "Target node " ++ targetNodeId ++ " was not reached" ≠
      "Workflow exceeded maximum iterations (possible infinite loop)" := by
  intro same
  have first := congrArg (fun message : String => message.toList.head?) same
  simp [String.toList_append] at first

variable (executor runtime targetNodeId) in
/-- A loop that ends with a failed node has recorded the failure. -/
theorem untilLoop_nodeFailed (allowed : Nat) {state after : State World} {nodeId error : String}
    (failed : untilLoop executor runtime targetNodeId allowed state =
      (after, .nodeFailed nodeId error)) :
    ∃ execution ∈ after.executions, execution.outcome = .error error := by
  induction allowed generalizing state with
  | zero => simp [untilLoop] at failed
  | succ allowed ih =>
      cases top : state.stack with
      | nil =>
          rw [untilLoop_of_empty top] at failed
          cases failed
      | cons entry rest =>
          rw [untilLoop, top] at failed
          dsimp only at failed
          unfold untilBody at failed
          dsimp only at failed
          split at failed
          · next stopped =>
              split at stopped
              · cases stopped
              · split at stopped
                · cases stopped
                  cases failed
                  exact ⟨_, List.mem_append_right _ List.mem_cons_self, rfl⟩
                · split at stopped
                  · cases stopped
                    cases failed
                  · cases stopped
          · exact ih failed

theorem executeUntil_loop (runtime : Runtime World) (world : World) (inputData : Value)
    {startNodes : List String} (named : targetNodeId ≠ "")
    (found : executor.snapshot.findStartNodesForTarget targetNodeId = .ok startNodes) :
    (executeUntil executor runtime world targetNodeId inputData).1 =
        (untilLoop executor runtime targetNodeId maxIterations
          (State.launched world startNodes inputData)).1 ∧
      ((executeUntil executor runtime world targetNodeId inputData).2 =
          .error ("Target node " ++ targetNodeId ++ " was not reached") →
        (∀ execution ∈ (executeUntil executor runtime world targetNodeId inputData).1.executions,
          execution.outcome.isOk = true) →
        (untilLoop executor runtime targetNodeId maxIterations
          (State.launched world startNodes inputData)).2 = .stackEmpty) := by
  change _ = (untilRun executor runtime world targetNodeId inputData maxIterations startNodes).1 ∧
    (_ → _ →
      (untilRun executor runtime world targetNodeId inputData maxIterations startNodes).2 = _)
  simp only [executeUntil, if_neg named, found]
  cases passed : untilRun executor runtime world targetNodeId inputData maxIterations
      startNodes with
  | mk state exit =>
      by_cases exceeded : maxIterations ≤ state.iteration
      · simp only [if_pos exceeded, Except.error.injEq, true_and]
        intro same
        exact absurd same.symm (not_reached_ne_exceeded targetNodeId)
      · simp only [if_neg exceeded]
        cases exit with
        | nodeFailed nodeId error =>
            obtain ⟨execution, member, raised⟩ :=
              untilLoop_nodeFailed executor runtime targetNodeId maxIterations passed
            have states : (if error = "" then
                (state, Except.error ("Target node " ++ targetNodeId ++ " was not reached"))
              else (state, .ok (PreviewStatus.failed nodeId error))).1 = state := by
              split <;> rfl
            rw [states]
            refine ⟨rfl, fun _ succeeded => ?_⟩
            have ok := succeeded execution member
            rw [raised] at ok
            cases ok
        | targetReached result =>
            refine ⟨rfl, fun same => ?_⟩
            cases same
        | stackEmpty => exact ⟨rfl, fun _ _ => rfl⟩

open Classical in
theorem simulates_launched (world previewWorld : World) (startNodes : List String)
    (inputData : Value) :
    Simulates executor targetNodeId (State.launched world startNodes inputData)
      (State.launched previewWorld (startNodes.filter fun nodeId =>
        decide (executor.snapshot.Reaches nodeId targetNodeId)) inputData) where
  stack := by
    simp only [State.launched, State.pushStartNodes, State.initial, List.append_nil,
      List.filter_reverse, List.filter_map, Function.comp_def]
  trace := .nil
  before := fun _ member => nomatch member
  rooted := by
    intro entry member
    simp only [State.launched, State.pushStartNodes, State.initial, List.append_nil,
      List.mem_reverse, List.mem_map] at member
    obtain ⟨nodeId, _, rfl⟩ := member
    exact .refl

/-- The visible result of a node on an input, if it has one. -/
def nodeResult? (executor : WorkflowExecutor) (runtime : Runtime World) (world : World)
    (nodeId : String) (inputData : Value) : Option NodeOutput :=
  match executor.snapshot.nodesById.get? nodeId with
  | none => none
  | some node =>
      match pinnedResult executor runtime world node with
      | .error _ => none
      | .ok (some pinned) => some pinned.visible
      | .ok none => (runtime.executeNodeCore world node inputData).2.toOption.map NodeOutput.visible

def Runtime.Quiet (runtime : Runtime World) : Prop :=
  ∀ world event, (runtime.emitRunEvent world event).2 = .ok ()

variable (executor) in
theorem emitRunEvent_quiet (quiet : runtime.Quiet) (side : Side World) (event : RunEvent) :
    ∃ after, emitRunEvent executor runtime side event = (after, .ok ()) := by
  unfold emitRunEvent
  cases executor.run with
  | none => exact ⟨side, rfl⟩
  | some run => exact ⟨_, Prod.ext rfl (quiet side.world event)⟩

theorem failNode_raises (side : Side World) (sequence : Nat) (node : Node) (inputData : Value)
    (error : String) :
    (failNode executor runtime side sequence node inputData error).2.toOption = none := by
  cases failed : failNode executor runtime side sequence node inputData error with
  | mk after outcome =>
      cases outcome with
      | error error => rfl
      | ok result => exact absurd failed failNode_not_ok

theorem executePersisted_quiet (quiet : runtime.Quiet) (side : Side World) (sequence : Nat)
    (node : Node) (inputData : Value) :
    (executePersisted executor runtime side sequence node inputData).2.toOption.map
        NodeOutput.visible =
      (runtime.executeNodeCore side.world node inputData).2.toOption.map NodeOutput.visible := by
  unfold executePersisted
  dsimp only
  split
  · next error raised => rw [failNode_raises, raised]; rfl
  · next returned ran =>
      split
      · next emitted =>
          obtain ⟨_, silent⟩ := emitRunEvent_quiet executor quiet _ _
          rw [silent] at emitted
          cases emitted
      · rw [ran]
        rfl

theorem executeTransient_quiet (quiet : runtime.Quiet) (side : Side World)
    (node : Node) (inputData : Value) :
    (executeTransient executor runtime side node inputData).2.toOption =
      (runtime.executeNodeCore side.world node inputData).2.toOption := by
  unfold executeTransient
  dsimp only
  split
  · next error raised => rw [raised]
  · next returned ran =>
      obtain ⟨_, silent⟩ := emitRunEvent_quiet executor quiet
        { side with world := (runtime.executeNodeCore side.world node inputData).1 }
        (.nodeCompleted node inputData returned)
      rw [silent, ran]

theorem executeNode_quiet (stateless : runtime.Stateless) (quiet : runtime.Quiet) (world : World)
    (side : Side World) (sequence : Nat) (nodeId : String) (inputData : Value) (persist : Bool) :
    (executeNode executor runtime side sequence nodeId inputData persist).2.toOption.map
      NodeOutput.visible = nodeResult? executor runtime world nodeId inputData := by
  unfold executeNode nodeResult?
  cases executor.snapshot.nodesById.get? nodeId with
  | none => rfl
  | some node =>
      obtain ⟨started, silent⟩ :=
        emitRunEvent_quiet executor quiet side (.nodeStarted node inputData)
      simp only [silent, stateless.pinnedResult started.world world]
      cases pinnedResult executor runtime world node with
      | error error => rfl
      | ok pinned =>
          cases pinned with
          | some pinned =>
              unfold returnPinned
              dsimp only
              obtain ⟨_, completed⟩ := emitRunEvent_quiet executor quiet
                (if persist = true then _ else started) (.nodeCompleted node inputData pinned)
              rw [completed]
              rfl
          | none =>
              cases persist with
              | true =>
                  simp only [↓reduceIte, executePersisted_quiet quiet,
                    stateless.executeNodeCore started.world world]
              | false =>
                  simp only [Bool.false_eq_true, ↓reduceIte, executeTransient_quiet quiet,
                    stateless.executeNodeCore started.world world]

theorem Alike.nodeResult? (alike : Alike runtime executor previewer) (world : World)
    (nodeId : String) (inputData : Value) :
    nodeResult? previewer runtime world nodeId inputData =
      nodeResult? executor runtime world nodeId inputData := by
  unfold WorkflowStudio.Executor.nodeResult?
  rw [alike.snapshot]
  cases found : executor.snapshot.nodesById.get? nodeId with
  | none => rfl
  | some node =>
      dsimp only
      rw [alike.pins world nodeId node found]

/-- The run executes the target, or it ends without raising. -/
def RunsToTarget (executor : WorkflowExecutor) (runtime : Runtime World) (world : World)
    (targetNodeId : String) (inputData : Value) : Prop :=
  targetNodeId ∈ (execute executor runtime world inputData []).1.executedOrder ∨
    ∃ output, (execute executor runtime world inputData []).2 = .ok output

/-- The preview executes the target, or it runs out of entries before and no
node of it raised. -/
def PreviewsToTarget (executor : WorkflowExecutor) (runtime : Runtime World) (world : World)
    (targetNodeId : String) (inputData : Value) : Prop :=
  targetNodeId ∈ (executeUntil executor runtime world targetNodeId inputData).1.executedOrder ∨
    (executeUntil executor runtime world targetNodeId inputData).2 =
        .error ("Target node " ++ targetNodeId ++ " was not reached") ∧
      ∀ execution ∈ (executeUntil executor runtime world targetNodeId inputData).1.executions,
        execution.outcome.isOk = true

theorem PreviewsToTarget.named {world : World} {inputData : Value}
    (previews : PreviewsToTarget executor runtime world targetNodeId inputData) :
    targetNodeId ≠ "" := by
  rintro rfl
  rcases previews with executed | unreached
  · cases executed
  · simp [executeUntil] at unreached

theorem State.Recorded.mem_order_iff {state : State World}
    (recorded : state.Recorded executor runtime) :
    targetNodeId ∈ state.executedOrder ↔
      ∃ execution ∈ state.executions, execution.entry.nodeId = targetNodeId := by
  rw [recorded.order, List.mem_map]

open Classical in
theorem Alike.startNodes {startNodes : List String} {startNodeId : String}
    (alike : Alike runtime executor previewer) (named : targetNodeId ≠ "")
    (found : executor.snapshot.findStartNodes = .ok startNodes) (starts : startNodeId ∈ startNodes)
    (reaches : executor.snapshot.Reaches startNodeId targetNodeId) :
    previewer.snapshot.findStartNodesForTarget targetNodeId =
      .ok (startNodes.filter fun nodeId =>
        decide (executor.snapshot.Reaches nodeId targetNodeId)) := by
  rw [alike.snapshot]
  exact Snapshot.findStartNodesForTarget_of_reaches named found starts reaches

theorem execute_previewAgrees {world previewWorld : World} {inputData : Value}
    {startNodes : List String} {startNodeId : String} (alike : Alike runtime executor previewer)
    (stateless : runtime.Stateless)
    (found : executor.snapshot.findStartNodes = .ok startNodes)
    (starts : startNodeId ∈ startNodes)
    (reaches : executor.snapshot.Reaches startNodeId targetNodeId)
    (runs : RunsToTarget executor runtime world targetNodeId inputData)
    (previews : PreviewsToTarget previewer runtime previewWorld targetNodeId inputData) :
    PreviewAgrees executor targetNodeId
      (execute executor runtime world inputData []).1.executions
      (executeUntil previewer runtime previewWorld targetNodeId inputData).1.executions := by
  obtain ⟨runTrace, runOrder, runEnds⟩ := execute_loop runtime world inputData found
  have previewStarts := alike.startNodes previews.named found starts reaches
  obtain ⟨previewState, previewEnds⟩ := executeUntil_loop runtime previewWorld inputData
    previews.named previewStarts
  rw [runTrace, previewState]
  refine (simulates_launched world previewWorld startNodes inputData).loop alike stateless _ le_rfl
    ?_ ?_
  · rcases runs with executed | returned
    · rw [runOrder] at executed
      exact .inl ((executeLoop_recorded executor runtime _
        (State.launched_recorded ..)).mem_order_iff.mp executed)
    · exact .inr (runEnds returned)
  · rcases previews with executed | unreached
    · rw [previewState] at executed
      exact .inl ((untilLoop_recorded previewer runtime _ _
        (State.launched_recorded ..)).mem_order_iff.mp executed)
    · exact .inr (previewEnds unreached.1 unreached.2)

end Simulation

open Classical in
/-- The preview of a target that a start node reaches executes, with the same
inputs, what the run executes through the first execution of the target, less
what descends from start nodes without a path to the target. If the run
executes the target, the preview ends with the target on the same input and
with the same result. -/
theorem executeUntil_agrees_with_execute {World : Type} (executor previewer : WorkflowExecutor)
    (runtime : Runtime World) (alike : Alike runtime executor previewer)
    (stateless : runtime.Stateless) (world previewWorld : World)
    (targetNodeId : String) (inputData : Value) (startNodes : List String)
    (found : executor.snapshot.findStartNodes = .ok startNodes)
    (reached : ∃ startNodeId ∈ startNodes, executor.snapshot.Reaches startNodeId targetNodeId)
    (runs : RunsToTarget executor runtime world targetNodeId inputData)
    (previews : PreviewsToTarget previewer runtime previewWorld targetNodeId inputData) :
    (executeUntil previewer runtime previewWorld targetNodeId inputData).1.executions.map
        Execution.entry =
      ((throughTarget targetNodeId (execute executor runtime world inputData []).1.executions).filter
        fun execution => decide (executor.snapshot.Reaches execution.entry.origin targetNodeId)).map
        Execution.entry ∧
    ∀ execution, (execute executor runtime world inputData []).1.executions.find?
        (fun earlier => decide (earlier.entry.nodeId = targetNodeId)) = some execution →
      ∃ before previewed,
        (executeUntil previewer runtime previewWorld targetNodeId inputData).1.executions =
          before ++ [previewed] ∧
        previewed.entry = execution.entry ∧
        (∀ left right, previewed.outcome = .ok left → execution.outcome = .ok right →
          left.visible = right.visible) ∧
        (runtime.Quiet → previewed.outcome.toOption.map NodeOutput.visible =
          execution.outcome.toOption.map NodeOutput.visible) := by
  obtain ⟨startNodeId, starts, reaches⟩ := reached
  have agrees := execute_previewAgrees alike stateless found starts reaches runs previews
  refine ⟨entries_of_agrees agrees.trace, fun execution first => ?_⟩
  obtain ⟨before, previewed, ends, same, results⟩ := agrees.target execution first
  refine ⟨before, previewed, ends, same, results, fun quiet => ?_⟩
  have runRecorded := (executeLoop_recorded executor runtime maxIterations
    (State.launched_recorded world startNodes inputData)).outcomes execution (by
      rw [← (execute_loop runtime world inputData found).1]
      exact List.mem_of_find?_eq_some first)
  have previewStarts := alike.startNodes previews.named found starts reaches
  have previewRecorded := (untilLoop_recorded previewer runtime targetNodeId maxIterations
    (State.launched_recorded previewWorld _ inputData)).outcomes previewed (by
      rw [← (executeUntil_loop runtime previewWorld inputData previews.named previewStarts).1, ends]
      exact List.mem_append_right _ List.mem_cons_self)
  obtain ⟨runSide, runSequence, runPersist, ran⟩ := runRecorded
  obtain ⟨previewSide, previewSequence, previewPersist, previewRan⟩ := previewRecorded
  rw [← ran, ← previewRan, same, executeNode_quiet stateless quiet world,
    executeNode_quiet stateless quiet world, alike.nodeResult?]

/-- The executor of a manual run. -/
def twoRoots : WorkflowExecutor where
  snapshot := {
    nodes := ["n_1", "n_2", "n_3"].map fun nodeId => ⟨nodeId, "noop", none, [], []⟩
    connections := [⟨some "c_1", some "n_1", none, some "n_2", none⟩] }
  persist := true
  run := some { id := 1, executionMode := "manual" }
  notify := false
  nodeOutputSockets := fun _ => ["result"]

/-- The executor of a preview has no run and keeps nothing. -/
def WorkflowExecutor.preview (executor : WorkflowExecutor) : WorkflowExecutor :=
  { executor with persist := false, run := none, notify := false }

theorem executeUntil_agrees_with_execute_twoRoots :
    (execute twoRoots echoRuntime () (.int 7) []).1.executedOrder = ["n_3", "n_1", "n_2"] ∧
    (executeUntil twoRoots.preview echoRuntime () "n_2" (.int 7)).1.executedOrder =
      ["n_1", "n_2"] ∧
    ∀ execution, (execute twoRoots echoRuntime () (.int 7) []).1.executions.find?
        (fun earlier => decide (earlier.entry.nodeId = "n_2")) = some execution →
      ∃ before previewed,
        (executeUntil twoRoots.preview echoRuntime () "n_2" (.int 7)).1.executions =
          before ++ [previewed] ∧ previewed.entry = execution.entry := by
  refine ⟨by decide, by decide, fun execution first => ?_⟩
  have reached : ∃ startNodeId ∈ ["n_1", "n_3"],
      twoRoots.snapshot.Reaches startNodeId "n_2" := by
    refine ⟨"n_1", by decide, .single ⟨_, List.mem_cons_self, ?_, ?_⟩⟩ <;> rfl
  have agrees := executeUntil_agrees_with_execute twoRoots twoRoots.preview echoRuntime
    ⟨rfl, rfl, fun _ _ _ _ => rfl⟩ ⟨fun _ _ _ _ => rfl, fun _ _ _ => rfl⟩ () () "n_2" (.int 7)
    ["n_1", "n_3"] (by decide) reached (.inl (by decide)) (.inl (by decide))
  obtain ⟨before, previewed, ends, same, _⟩ := agrees.2 execution first
  exact ⟨before, previewed, ends, same⟩

/-- The first node is pinned. -/
def pinnedFirst : Runtime Unit :=
  { echoRuntime with
    getPinData := fun _ node =>
      if node.id = "n_1" then .ok (some { outputs := some [[.int 1]], json := some (.int 1) })
      else .ok none }

/-- A run of a trigger does not apply the pin that the preview applies. -/
theorem executeUntil_differs_from_scheduled :
    let scheduled := { twoRoots with run := some { id := 1, executionMode := "schedule" } }
    pinnedFirst.Stateless ∧
    RunsToTarget scheduled pinnedFirst () "n_2" (.int 7) ∧
    PreviewsToTarget scheduled.preview pinnedFirst () "n_2" (.int 7) ∧
    (execute scheduled pinnedFirst () (.int 7) []).1.executions.map (fun execution =>
        (execution.entry.nodeId, execution.entry.inputData)) =
      [("n_3", .int 7), ("n_1", .int 7), ("n_2", .int 7)] ∧
    (executeUntil scheduled.preview pinnedFirst () "n_2" (.int 7)).1.executions.map
        (fun execution => (execution.entry.nodeId, execution.entry.inputData)) =
      [("n_1", .int 7), ("n_2", .int 1)] :=
  ⟨⟨fun _ _ _ _ => rfl, fun _ _ _ => rfl⟩, .inl (by decide), .inl (by decide), by decide,
    by decide⟩

end WorkflowStudio.Executor
