import WorkflowStudio.Executor.Machine

/-! Work conservation of the stack loop of `execute`. Every pop of a node is
paid for by a start push or by one entry of `executed_connections`, in every
state at the head of the loop and for every behaviour of the runtime. -/

set_option autoImplicit false

namespace WorkflowStudio.Executor

open Lib

/-!
## What one routing adds
-/

def ConnectionEvent.Reports (event : ConnectionEvent) (conn : Connection) : Prop :=
  event.connectionId = conn.id ∧ conn.source = some event.source ∧
    event.sourceSocket = conn.sourceHandle.getD (some "output") ∧
    conn.target = some event.target ∧ event.targetSocket = conn.targetHandle

/-- Each event has its own index as sequence and reports a connection of the
snapshot whose source has been executed. -/
def Traced (snapshot : Snapshot) (executedOrder : List String)
    (executedConnections : List ConnectionEvent) : Prop :=
  ∀ (index : Nat) (event : ConnectionEvent), executedConnections[index]? = some event →
    event.sequence = index ∧ event.source ∈ executedOrder ∧
      ∃ conn ∈ snapshot.connections, event.Reports conn

theorem Traced.append {snapshot : Snapshot} {executedOrder : List String}
    {executedConnections : List ConnectionEvent} {event : ConnectionEvent}
    (traced : Traced snapshot executedOrder executedConnections)
    (numbered : event.sequence = executedConnections.length)
    (executed : event.source ∈ executedOrder)
    (reported : ∃ conn ∈ snapshot.connections, event.Reports conn) :
    Traced snapshot executedOrder (executedConnections ++ [event]) := by
  intro index found selected
  by_cases old : index < executedConnections.length
  · rw [List.getElem?_append_left old] at selected
    exact traced index found selected
  · rw [List.getElem?_append_right (by omega)] at selected
    have last : index - executedConnections.length = 0 := by
      have bounded := (List.getElem?_eq_some_iff.mp selected).1
      simpa using bounded
    rw [last, List.getElem?_cons_zero, Option.some.injEq] at selected
    subst found
    exact ⟨by omega, executed, reported⟩

theorem Traced.mono {snapshot : Snapshot} {before after : List String}
    {executedConnections : List ConnectionEvent}
    (traced : Traced snapshot before executedConnections) (included : before ⊆ after) :
    Traced snapshot after executedConnections := by
  intro index event selected
  obtain ⟨numbered, executed, reported⟩ := traced index event selected
  exact ⟨numbered, included executed, reported⟩

/-- What a connection can do to a routing: nothing, or one push of its target
with one event that reports it. -/
theorem routeConnection_cases (sockets : List String) (entry : StackEntry)
    (outputs : List (List Value)) (routing : Routing) (conn : Connection) :
    routeConnection sockets entry outputs routing conn = routing ∨
      ∃ (event : ConnectionEvent) (pushed : StackEntry),
        routeConnection sockets entry outputs routing conn = {
          stack := pushed :: routing.stack
          executedConnections := routing.executedConnections ++ [event]
          routedConnections := routing.routedConnections ++ [event] } ∧
        present conn.target = some event.target ∧ pushed.nodeId = event.target ∧
          pushed.origin = entry.origin ∧ event.source = entry.nodeId ∧
          event.sequence = routing.executedConnections.length ∧
          event.connectionId = conn.id ∧
          event.sourceSocket = conn.sourceHandle.getD (some "output") ∧
          event.targetSocket = conn.targetHandle := by
  unfold routeConnection
  dsimp only
  split
  · next target outputIndex targeted _ =>
      split
      · exact .inr ⟨_, _, rfl, targeted, rfl, rfl, rfl, rfl, rfl, rfl, rfl⟩
      · exact .inl rfl
  · exact .inl rfl

def Routing.Balanced (before after : Routing) : Prop :=
  ∀ nodeId, (after.stack.map StackEntry.nodeId).count nodeId +
      (before.executedConnections.map ConnectionEvent.target).count nodeId =
    (before.stack.map StackEntry.nodeId).count nodeId +
      (after.executedConnections.map ConnectionEvent.target).count nodeId

theorem Routing.Balanced.push (routing : Routing) (event : ConnectionEvent) (pushed : StackEntry)
    (same : pushed.nodeId = event.target) :
    routing.Balanced {
      stack := pushed :: routing.stack
      executedConnections := routing.executedConnections ++ [event]
      routedConnections := routing.routedConnections ++ [event] } := by
  intro nodeId
  simp only [List.map_cons, List.map_append, List.map_nil, List.count_append, same,
    List.count_cons, List.count_nil]
  omega

theorem Routing.Balanced.trans {first second third : Routing}
    (left : first.Balanced second) (right : second.Balanced third) : first.Balanced third := by
  intro nodeId
  have leftCount := left nodeId
  have rightCount := right nodeId
  omega

theorem routeConnections_balanced (sockets : List String) (entry : StackEntry)
    (outputs : List (List Value)) (conns : List Connection) (routing : Routing) :
    routing.Balanced (conns.foldl (routeConnection sockets entry outputs) routing) := by
  induction conns generalizing routing with
  | nil => intro nodeId; rfl
  | cons conn conns ih =>
      rw [List.foldl_cons]
      refine Routing.Balanced.trans ?_ (ih _)
      rcases routeConnection_cases sockets entry outputs routing conn with
        unchanged | ⟨event, pushed, routed, _, same, _⟩
      · rw [unchanged]
        intro nodeId
        rfl
      · rw [routed]
        exact Routing.Balanced.push routing event pushed same

theorem routeOutputs_balanced (executor : WorkflowExecutor) (entry : StackEntry)
    (result : NodeOutput) (stack : List StackEntry)
    (executedConnections : List ConnectionEvent) :
    Routing.Balanced
      { stack := stack, executedConnections := executedConnections, routedConnections := [] }
      (routeOutputs executor entry result stack executedConnections) :=
  routeConnections_balanced _ _ _ _ _

theorem routeConnections_traced {snapshot : Snapshot} {executedOrder : List String}
    (sockets : List String) (entry : StackEntry) (outputs : List (List Value))
    (conns : List Connection) (routing : Routing)
    (executed : entry.nodeId ∈ executedOrder)
    (outgoing : ∀ conn ∈ conns, conn ∈ snapshot.connections ∧ conn.source = some entry.nodeId)
    (traced : Traced snapshot executedOrder routing.executedConnections) :
    Traced snapshot executedOrder
      (conns.foldl (routeConnection sockets entry outputs) routing).executedConnections := by
  induction conns generalizing routing with
  | nil => exact traced
  | cons conn conns ih =>
      rw [List.foldl_cons]
      refine ih _ (fun other member => outgoing other (List.mem_cons_of_mem _ member)) ?_
      obtain ⟨member, fromEntry⟩ := outgoing conn List.mem_cons_self
      rcases routeConnection_cases sockets entry outputs routing conn with
        unchanged | ⟨event, pushed, routed, targeted, _, _, source, numbered, identity, socket, handle⟩
      · rw [unchanged]
        exact traced
      · rw [routed]
        refine traced.append numbered (source ▸ executed) ⟨conn, member, identity, ?_, socket, ?_, handle⟩
        · rw [fromEntry, source]
        · exact (present_eq_some.mp targeted).1

theorem mem_connectionsBySource {snapshot : Snapshot} {nodeId : String} {conn : Connection}
    (member : conn ∈ snapshot.connectionsBySource nodeId) :
    conn ∈ snapshot.connections ∧ conn.source = some nodeId := by
  obtain ⟨listed, selected⟩ := List.mem_filter.mp member
  exact ⟨listed, (present_eq_some.mp (of_decide_eq_true selected)).1⟩

/-!
## The loop invariant
-/

/-- The balance of pops and pushes together with the trace of connections. -/
structure Conserved {World : Type} (executor : WorkflowExecutor) (startNodes : List String)
    (state : State World) : Prop where
  balanced : ∀ nodeId, state.executedOrder.count nodeId + state.skipped.count nodeId +
      (state.stack.map StackEntry.nodeId).count nodeId =
    startNodes.count nodeId +
      (state.executedConnections.map ConnectionEvent.target).count nodeId
  traced : Traced executor.snapshot state.executedOrder state.executedConnections

/-- The states at the head of the `while` loop of `execute`. -/
inductive LoopHead {World : Type} (executor : WorkflowExecutor) (runtime : Runtime World)
    (started : State World) : State World → Prop where
  | enter : LoopHead executor runtime started started
  | next {state after : State World} {entry : StackEntry} {rest : List StackEntry} :
      LoopHead executor runtime started state → state.stack = entry :: rest →
      state.iteration < maxIterations →
      executeBody executor runtime state entry rest = (after, none) →
      LoopHead executor runtime started after

variable {World : Type} {executor : WorkflowExecutor} {runtime : Runtime World}
  {startNodes : List String}

theorem State.busFlush_core (state : State World) (nextNodeId : Option String)
    (finalStatus : Option FinalStatus) :
    state.busFlush executor nextNodeId finalStatus =
      { state with bus := (state.busFlush executor nextNodeId finalStatus).bus } := by
  unfold State.busFlush
  split <;> rfl

theorem State.busTick_core (state : State World) :
    state.busTick executor runtime = { state with bus := (state.busTick executor runtime).bus } := by
  unfold State.busTick
  split
  · exact state.busFlush_core _ _
  · rfl

/-- A pass of the loop that does not raise either skips a disabled node or
executes the popped node and routes its outputs. -/
theorem executeBody_cases {state after : State World} {entry : StackEntry}
    {rest : List StackEntry}
    (passed : executeBody executor runtime state entry rest = (after, none)) :
    (executor.snapshot.isNodeDisabled entry.nodeId = true ∧
      after = { state.popped rest with skipped := state.skipped ++ [entry.nodeId] }) ∨
    ∃ (side : Side World) (result : NodeOutput) (bus : Bus),
      executor.snapshot.isNodeDisabled entry.nodeId = false ∧
      executeNode executor runtime state.side state.executedOrder.length entry.nodeId
        entry.inputData executor.persist = (side, .ok result) ∧
      after = { ((state.popped rest).record side entry (.ok result)).applyRouting
        (routeOutputs executor entry result rest state.executedConnections) with bus := bus } := by
  unfold executeBody at passed
  dsimp only at passed
  split at passed
  · next disabled =>
      cases passed
      exact .inl ⟨disabled, rfl⟩
  · next enabled =>
      split at passed
      · cases passed
      · next side result ran =>
          rw [State.busTick_core] at passed
          cases passed
          exact .inr ⟨side, result, _, by simpa using enabled, ran, rfl⟩

/-- What each pass keeps, the loop keeps. -/
theorem executeLoop_invariant (holds : State World → Prop)
    (keeps : ∀ state entry rest after raised, holds state → state.stack = entry :: rest →
      executeBody executor runtime state entry rest = (after, raised) → holds after)
    (remaining : Nat) {state : State World} (held : holds state) :
    holds (executeLoop executor runtime remaining state).1 := by
  induction remaining generalizing state with
  | zero => exact held
  | succ remaining ih =>
      unfold executeLoop
      cases top : state.stack with
      | nil => exact held
      | cons entry rest =>
          cases passed : executeBody executor runtime state entry rest with
          | mk after raised =>
              have next := keeps state entry rest after raised held top passed
              simp only [passed]
              cases raised with
              | some error => exact next
              | none => exact ih next

theorem executeBody_disabled {state : State World} {entry : StackEntry} {rest : List StackEntry}
    (disabled : executor.snapshot.isNodeDisabled entry.nodeId = true) :
    executeBody executor runtime state entry rest =
      ({ state.popped rest with skipped := state.skipped ++ [entry.nodeId] }, none) := by
  unfold executeBody
  simp only [disabled, ↓reduceIte]
  rfl

theorem conserved_started (world : World) (inputData : Value) :
    Conserved executor startNodes
      ((State.initial world).pushStartNodes startNodes inputData) := by
  constructor
  · intro nodeId
    have pushed : (((State.initial world).pushStartNodes startNodes inputData).stack.map
        StackEntry.nodeId) = startNodes.reverse := by
      simp [State.pushStartNodes, State.initial, Function.comp_def]
    rw [pushed]
    simp [State.pushStartNodes, State.initial]
  · intro index event selected
    simp [State.pushStartNodes, State.initial] at selected

theorem Conserved.body {state after : State World} {entry : StackEntry} {rest : List StackEntry}
    (conserved : Conserved executor startNodes state) (top : state.stack = entry :: rest)
    (passed : executeBody executor runtime state entry rest = (after, none)) :
    Conserved executor startNodes after := by
  have before := conserved.balanced
  rw [top] at before
  rcases executeBody_cases passed with ⟨_, rfl⟩ | ⟨side, result, bus, _, _, rfl⟩
  · refine ⟨fun nodeId => ?_, conserved.traced⟩
    have counted := before nodeId
    simp only [State.popped, List.map_cons, List.count_cons, List.count_append, List.count_nil]
      at counted ⊢
    omega
  · have grown : state.executedOrder ⊆ state.executedOrder ++ [entry.nodeId] :=
      List.subset_append_left _ _
    constructor
    · intro nodeId
      have counted := before nodeId
      have routed := routeOutputs_balanced executor entry result rest state.executedConnections
        nodeId
      simp only [State.applyRouting, State.record, State.popped, List.map_cons,
        List.count_cons, List.count_append, List.count_nil] at counted routed ⊢
      omega
    · refine routeConnections_traced _ _ _ _ _ ?_ (fun conn => mem_connectionsBySource)
        (conserved.traced.mono grown)
      exact List.mem_append_right _ List.mem_cons_self

theorem LoopHead.conserved {world : World} {inputData : Value} {state : State World}
    (head : LoopHead executor runtime
      ((State.initial world).pushStartNodes startNodes inputData) state) :
    Conserved executor startNodes state := by
  induction head with
  | enter => exact conserved_started world inputData
  | next _ top _ passed ih => exact ih.body top passed

/-- In every state at the head of the loop, for every runtime and every graph,
the executions, the skips and the waiting entries of a node add up to its
start pushes and the connections routed to it, and the routed connections are
connections of the snapshot from executed nodes, numbered in order. -/
theorem execute_conserves_work (executor : WorkflowExecutor) (runtime : Runtime World)
    (world : World) (startNodes : List String) (inputData : Value) (state : State World)
    (head : LoopHead executor runtime
      ((State.initial world).pushStartNodes startNodes inputData) state) :
    (∀ nodeId, state.executedOrder.count nodeId + state.skipped.count nodeId +
        (state.stack.map StackEntry.nodeId).count nodeId =
      startNodes.count nodeId +
        (state.executedConnections.map ConnectionEvent.target).count nodeId) ∧
    ∀ (index : Nat) (event : ConnectionEvent), state.executedConnections[index]? = some event →
      event.sequence = index ∧ event.source ∈ state.executedOrder ∧
        ∃ conn ∈ executor.snapshot.connections, event.Reports conn :=
  ⟨head.conserved.balanced, head.conserved.traced⟩

def selfLoop : WorkflowExecutor where
  snapshot := {
    nodes := [⟨"n_1", "noop", none, [], []⟩]
    connections := [⟨some "c_1", some "n_1", none, some "n_1", none⟩] }
  persist := true
  run := some { id := 1, executionMode := "manual" }
  notify := false
  nodeOutputSockets := fun _ => ["result"]

def echoRuntime : Runtime Unit where
  executeNodeCore := fun world _ inputData =>
    (world, .ok { outputs := some [[inputData]], json := some inputData })
  emitRunEvent := fun world _ => (world, .ok ())
  getPinData := fun _ _ => .ok none
  busShouldFlush := fun _ => false
  display := .ok
  display_empty := rfl

theorem execute_conserves_work_selfLoop :
    ∃ state, LoopHead selfLoop echoRuntime
        ((State.initial ()).pushStartNodes ["n_1"] (.int 7)) state ∧
      state.executedOrder = ["n_1"] ∧ state.stack.map StackEntry.nodeId = ["n_1"] ∧
      state.executedOrder.count "n_1" + state.skipped.count "n_1" +
          (state.stack.map StackEntry.nodeId).count "n_1" =
        ["n_1"].count "n_1" +
          (state.executedConnections.map ConnectionEvent.target).count "n_1" := by
  have head : LoopHead selfLoop echoRuntime
      ((State.initial ()).pushStartNodes ["n_1"] (.int 7))
      (executeBody selfLoop echoRuntime ((State.initial ()).pushStartNodes ["n_1"] (.int 7))
        ⟨"n_1", .int 7, "n_1"⟩ []).1 :=
    .next .enter rfl (by decide) rfl
  exact ⟨_, head, by decide, by decide,
    (execute_conserves_work selfLoop echoRuntime () ["n_1"] (.int 7) _ head).1 "n_1"⟩

end WorkflowStudio.Executor
