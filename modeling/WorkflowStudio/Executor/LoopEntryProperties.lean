import WorkflowStudio.Executor.ConservationProperties
import WorkflowStudio.Executor.LoopRunner

/-! When a loop node that is entered several times in a run emits the batches
of each list with which it is entered. The runner starts over only at the first
arrival; every later one continues the first list. -/

set_option autoImplicit false

namespace WorkflowStudio.Executor

open Lib Expression

/-!
## Executions and the world
-/

section Projection

variable {World Part : Type} {executor : WorkflowExecutor} {runtime : Runtime World}

theorem emitRunEvent_keeps {part : World → Part}
    (events : ∀ world event, part (runtime.emitRunEvent world event).1 = part world)
    (side : Side World) (event : RunEvent) :
    part (emitRunEvent executor runtime side event).1.world = part side.world := by
  unfold emitRunEvent
  cases executor.run with
  | none => rfl
  | some _ => exact events side.world event

theorem returnPinned_keeps {part : World → Part}
    (events : ∀ world event, part (runtime.emitRunEvent world event).1 = part world)
    {side after : Side World} {sequence : Nat} {node : Node} {inputData : Value} {persist : Bool}
    {pinned result : NodeOutput}
    (returned : returnPinned executor runtime side sequence node inputData persist pinned =
      (after, .ok result)) : part after.world = part side.world := by
  unfold returnPinned at returned
  dsimp only at returned
  split at returned
  · cases returned
  · next emitted =>
      cases returned
      have kept := congrArg (fun outcome => part outcome.1.world) emitted
      refine kept.symm.trans ((emitRunEvent_keeps events _ _).trans ?_)
      cases persist <;> rfl

theorem executePersisted_calls {part : World → Part}
    (events : ∀ world event, part (runtime.emitRunEvent world event).1 = part world)
    {side after : Side World} {sequence : Nat} {node : Node} {inputData : Value}
    {result : NodeOutput}
    (returned : executePersisted executor runtime side sequence node inputData =
      (after, .ok result)) :
    ∃ later ran, runtime.executeNodeCore side.world node inputData = (later, .ok ran) ∧
      part after.world = part later ∧ result.outputs = ran.outputs := by
  have fails : ∀ (failing : Side World) (error : String),
      failNode executor runtime failing sequence node inputData error ≠ (after, .ok result) := by
    intro failing error failed
    unfold failNode at failed
    dsimp only at failed
    split at failed <;> cases failed
  unfold executePersisted at returned
  cases called : runtime.executeNodeCore side.world node inputData with
  | mk later outcome =>
      cases outcome with
      | error error =>
          simp only [called] at returned
          exact absurd returned (fails _ _)
      | ok ran =>
          simp only [called] at returned
          split at returned
          · exact absurd returned (fails _ _)
          · next emitted =>
              cases returned
              have kept := congrArg (fun outcome => part outcome.1.world) emitted
              exact ⟨later, ran, rfl, kept.symm.trans (emitRunEvent_keeps events _ _), rfl⟩

theorem executeTransient_calls {part : World → Part}
    (events : ∀ world event, part (runtime.emitRunEvent world event).1 = part world)
    {side after : Side World} {node : Node} {inputData : Value} {result : NodeOutput}
    (returned : executeTransient executor runtime side node inputData = (after, .ok result)) :
    ∃ later ran, runtime.executeNodeCore side.world node inputData = (later, .ok ran) ∧
      part after.world = part later ∧ result.outputs = ran.outputs := by
  unfold executeTransient at returned
  cases called : runtime.executeNodeCore side.world node inputData with
  | mk later outcome =>
      cases outcome with
      | error error =>
          simp only [called] at returned
          cases returned
      | ok ran =>
          simp only [called] at returned
          split at returned
          · cases returned
          · next emitted =>
              cases returned
              have kept := congrArg (fun outcome => part outcome.1.world) emitted
              exact ⟨later, result, rfl, kept.symm.trans (emitRunEvent_keeps events _ _), rfl⟩

/-- An execution that returns has called the runner once, or it returned a
pinned result; the handlers around it leave the part of the world alone that
they do not know. -/
theorem executeNode_returns (part : World → Part)
    (events : ∀ world event, part (runtime.emitRunEvent world event).1 = part world)
    {side after : Side World} {sequence : Nat} {nodeId : String} {inputData : Value}
    {persist : Bool} {result : NodeOutput}
    (returned : executeNode executor runtime side sequence nodeId inputData persist =
      (after, .ok result)) :
    ∃ node, executor.snapshot.nodesById.get? nodeId = some node ∧
      ((node.type ∉ pinDataDenyTypes ∧ part after.world = part side.world) ∨
      ∃ before later ran, part before = part side.world ∧
        runtime.executeNodeCore before node inputData = (later, .ok ran) ∧
        part after.world = part later ∧ result.outputs = ran.outputs) := by
  unfold executeNode at returned
  split at returned
  · cases returned
  · next node found =>
      refine ⟨node, found, ?_⟩
      split at returned
      · cases returned
      · next started _ emitted =>
          have kept : part started.world = part side.world :=
            (congrArg (fun outcome => part outcome.1.world) emitted).symm.trans
              (emitRunEvent_keeps events side _)
          split at returned
          · cases returned
          · next pinned applied =>
              refine .inl ⟨?_, (returnPinned_keeps events returned).trans kept⟩
              unfold pinnedResult at applied
              split at applied
              · next pins => exact pins.2
              · cases applied
          · right
            have called : ∃ later ran,
                runtime.executeNodeCore started.world node inputData = (later, .ok ran) ∧
                  part after.world = part later ∧ result.outputs = ran.outputs := by
              split at returned
              · exact executePersisted_calls events returned
              · exact executeTransient_calls events returned
            obtain ⟨later, ran, called, same, outputs⟩ := called
            exact ⟨started.world, later, ran, kept, called, same, outputs⟩

end Projection

/-!
## The visits of a loop node
-/

/-- One execution of a loop node: its input, what `_json` named, the items that its
expression stood for, and what it emitted on its sockets. -/
structure Visit where
  inputData : Value
  json : Except String Value
  items : Except String (List Value)
  outputs : List (List Value)

def Execution.emitted (execution : Execution) : List (List Value) :=
  match execution.outcome with
  | .ok result => result.outputs.getD []
  | .error _ => []

def loopExecutions {World : Type} (state : State World) (nodeId : String) : List Execution :=
  state.executions.filter fun execution => execution.entry.nodeId == nodeId

def loopArrivals {World : Type} (world : LoopWorld World) (nodeId : String) :
    List Arrival :=
  world.arrivals.filter fun arrival => arrival.nodeId == nodeId

def State.visits {World : Type} (state : State (LoopWorld World)) (nodeId : String) :
    List Visit :=
  List.zipWith (fun execution arrival =>
      ⟨execution.entry.inputData, arrival.json, arrival.items, execution.emitted⟩)
    (loopExecutions state nodeId) (loopArrivals state.side.world nodeId)

/-- The visits are those of the runner, one after the other from no state. -/
inductive Replays (config : List (String × Value)) : List Visit → Option LoopState → Prop where
  | start : Replays config [] none
  | visit {visits : List Visit} {state after : Option LoopState} {visit : Visit}
      {result : NodeOutput} : Replays config visits state →
      executeLoopNode config visit.items state = (after, .ok result) →
      result.outputs = some visit.outputs → Replays config (visits ++ [visit]) after

section Visits

variable {World : Type} {executor : WorkflowExecutor} {runtime : Runtime World}
  {python : Python} {evaluator : World → Value → Evaluator}

/-- The executions of the node and the history of its runner are in step. -/
structure LoopTrace (python : Python) (evaluator : World → Value → Evaluator) (node : Node)
    (state : State (LoopWorld World)) : Prop where
  counted : (loopExecutions state node.id).length =
    (loopArrivals state.side.world node.id).length
  replays : Replays node.config (state.visits node.id)
    (state.side.world.nodeContext.get? node.id)
  resolved : ∀ visit ∈ state.visits node.id, ∃ world,
    visit.items = resolveItems python (evaluator world) node.config visit.inputData ∧
      visit.json = evaluator world (payloadOf visit.inputData) "_json"

theorem loopRuntime_events (world : LoopWorld World) (event : RunEvent) :
    (((loopRuntime python evaluator runtime).emitRunEvent world event).1.nodeContext,
      ((loopRuntime python evaluator runtime).emitRunEvent world event).1.arrivals) =
      (world.nodeContext, world.arrivals) := rfl

theorem emitBatch_outputs {state : LoopState} {result : NodeOutput}
    (emitted : state.emitBatch = .ok result) : result.outputs.isSome = true := by
  unfold LoopState.emitBatch at emitted
  split at emitted
  · cases emitted
  · cases emitted
    rfl

theorem executeLoopNode_outputs {config : List (String × Value)}
    {items : Except String (List Value)} {before after : Option LoopState} {result : NodeOutput}
    (executed : executeLoopNode config items before = (after, .ok result)) :
    after.isSome = true ∧ result.outputs.isSome = true := by
  unfold executeLoopNode at executed
  cases before with
  | some state =>
      simp only [Prod.mk.injEq] at executed
      obtain ⟨rfl, returned⟩ := executed
      refine ⟨rfl, ?_⟩
      unfold LoopState.continueLoop at returned
      split at returned
      · cases returned
      · dsimp only at returned
        split at returned
        · cases returned
          rfl
        · cases emitted : LoopState.emitBatch _ with
          | error error =>
              rw [emitted] at returned
              cases returned
          | ok batch =>
              have given := emitBatch_outputs emitted
              rw [emitted] at returned
              cases returned
              exact given
  | none =>
      cases items with
      | error error => cases executed
      | ok items =>
          simp only [Prod.mk.injEq] at executed
          obtain ⟨rfl, returned⟩ := executed
          refine ⟨rfl, ?_⟩
          unfold initLoop at returned
          dsimp only at returned
          split at returned
          · cases returned
            rfl
          · exact emitBatch_outputs returned

/-- The runner returned: its node has a state from then on, and its emissions
are those that the state before prescribes. -/
theorem runLoopNode_returns {world later : LoopWorld World} {node : Node} {inputData : Value}
    {result : NodeOutput}
    (ran : runLoopNode python evaluator world node inputData = (later, .ok result)) :
    ∃ state, executeLoopNode node.config
        (resolveItems python (evaluator world.inner) node.config inputData)
        (world.nodeContext.get? node.id) = (some state, .ok result) ∧
      later.nodeContext = world.nodeContext.set node.id state ∧
      later.arrivals = world.arrivals ++ [⟨node.id,
        evaluator world.inner (payloadOf inputData) "_json",
        resolveItems python (evaluator world.inner) node.config inputData⟩] ∧
      result.outputs.isSome = true := by
  unfold runLoopNode at ran
  dsimp only at ran
  cases executed : executeLoopNode node.config
      (resolveItems python (evaluator world.inner) node.config inputData)
      (world.nodeContext.get? node.id) with
  | mk after outcome =>
      rw [executed] at ran
      cases ran
      obtain ⟨kept, given⟩ := executeLoopNode_outputs executed
      obtain ⟨state, rfl⟩ := Option.isSome_iff_exists.mp kept
      exact ⟨state, rfl, rfl, rfl, given⟩

theorem LoopTrace.other {node : Node} {state after : State (LoopWorld World)}
    (trace : LoopTrace python evaluator node state)
    (executions : loopExecutions after node.id = loopExecutions state node.id)
    (arrivals : loopArrivals after.side.world node.id = loopArrivals state.side.world node.id)
    (context : after.side.world.nodeContext.get? node.id =
      state.side.world.nodeContext.get? node.id) : LoopTrace python evaluator node after := by
  have same : after.visits node.id = state.visits node.id := by
    unfold State.visits
    rw [executions, arrivals]
  refine ⟨?_, ?_, ?_⟩
  · rw [executions, arrivals]
    exact trace.counted
  · rw [same, context]
    exact trace.replays
  · rw [same]
    exact trace.resolved

theorem LoopTrace.own {node : Node} {state after : State (LoopWorld World)}
    (trace : LoopTrace python evaluator node state) (execution : Execution)
    {arrival : Arrival} (result : NodeOutput) (world : World)
    (executions : loopExecutions after node.id = loopExecutions state node.id ++ [execution])
    (arrivals : loopArrivals after.side.world node.id =
      loopArrivals state.side.world node.id ++ [arrival])
    (executed : executeLoopNode node.config arrival.items
      (state.side.world.nodeContext.get? node.id) =
        (after.side.world.nodeContext.get? node.id, .ok result))
    (outputs : result.outputs = some execution.emitted)
    (resolved : arrival.items = resolveItems python (evaluator world) node.config
      execution.entry.inputData)
    (named : arrival.json = evaluator world (payloadOf execution.entry.inputData) "_json") :
    LoopTrace python evaluator node after := by
  have added : after.visits node.id = state.visits node.id ++
      [⟨execution.entry.inputData, arrival.json, arrival.items, execution.emitted⟩] := by
    unfold State.visits
    rw [executions, arrivals, List.zipWith_append trace.counted]
    rfl
  refine ⟨?_, ?_, ?_⟩
  · rw [executions, arrivals, List.length_append, List.length_append, trace.counted]
    rfl
  · rw [added]
    exact .visit trace.replays executed outputs
  · intro visit member
    rw [added] at member
    rcases List.mem_append.mp member with old | new
    · exact trace.resolved visit old
    · obtain rfl := List.mem_singleton.mp new
      exact ⟨world, resolved, named⟩

/-- The execution of another node leaves the state and the history of a loop
node alone. -/
theorem loopRuntime_other {before later : LoopWorld World} {executed : Node} {inputData : Value}
    {ran : NodeOutput} {nodeId : String} (other : executed.id ≠ nodeId)
    (called : (loopRuntime python evaluator runtime).executeNodeCore before executed inputData =
      (later, .ok ran)) :
    later.nodeContext.get? nodeId = before.nodeContext.get? nodeId ∧
      loopArrivals later nodeId = loopArrivals before nodeId := by
  unfold loopRuntime at called
  dsimp only at called
  split at called
  · obtain ⟨state, _, context, arrivals, _⟩ := runLoopNode_returns called
    unfold loopArrivals
    rw [context, arrivals, List.filter_append]
    refine ⟨OrderedMap.get?_set_of_ne _ _ other.symm, ?_⟩
    simp [other]
  · simp only [Prod.mk.injEq] at called
    obtain ⟨rfl, _⟩ := called
    exact ⟨rfl, rfl⟩

/-- A pass over the node is a visit, and a pass over any other node is none. -/
theorem LoopTrace.body {node : Node}
    (found : executor.snapshot.nodesById.get? node.id = some node) (loops : node.type = "loop")
    {state after : State (LoopWorld World)} {entry : StackEntry} {rest : List StackEntry}
    (trace : LoopTrace python evaluator node state)
    (passed : executeBody executor (loopRuntime python evaluator runtime) state entry rest =
      (after, none)) : LoopTrace python evaluator node after := by
  rcases executeBody_cases passed with ⟨_, rfl⟩ | ⟨side, result, bus, _, ran, rfl⟩
  · exact ⟨trace.counted, trace.replays, trace.resolved⟩
  · obtain ⟨executed, known, how⟩ := executeNode_returns
      (fun world : LoopWorld World => (world.nodeContext, world.arrivals))
      loopRuntime_events ran
    have identity := Snapshot.id_of_nodesById known
    have listed : ∀ nodeId, loopExecutions (({ ((state.popped rest).record side entry
        (.ok result)).applyRouting (routeOutputs executor entry result rest
          state.executedConnections) with bus := bus }) : State (LoopWorld World)) nodeId =
        loopExecutions state nodeId ++
          if entry.nodeId = nodeId then [⟨entry, .ok result⟩] else [] := by
      intro nodeId
      unfold loopExecutions
      simp only [State.applyRouting, State.record, State.popped, List.filter_append]
      congr 1
      by_cases same : entry.nodeId = nodeId <;> simp [same]
    by_cases mine : entry.nodeId = node.id
    · -- a loop node is never pinned, so that the runner was called
      rw [mine, found] at known
      cases known
      rcases how with ⟨unpinned, _⟩ | ⟨before, later, ran, same, called, kept, outputs⟩
      · rw [loops] at unpinned
        exact absurd (by decide) unpinned
      · simp only [Prod.mk.injEq] at same kept
        unfold loopRuntime at called
        simp only [loops, ↓reduceIte] at called
        obtain ⟨loopState, executed, context, arrivals, given⟩ := runLoopNode_returns called
        obtain ⟨emitted, filled⟩ := Option.isSome_iff_exists.mp given
        have arrived : loopArrivals side.world node.id = loopArrivals state.side.world node.id ++
            [⟨node.id, evaluator before.inner (payloadOf entry.inputData) "_json",
              resolveItems python (evaluator before.inner) node.config entry.inputData⟩] := by
          unfold loopArrivals
          rw [kept.2, arrivals, same.2, List.filter_append]
          simp
        refine trace.own ⟨entry, .ok result⟩ ran before.inner ?_ arrived ?_ ?_ rfl rfl
        · rw [listed, if_pos mine]
        · change _ = (side.world.nodeContext.get? node.id, _)
          rw [kept.1, context, OrderedMap.get?_set_self, ← same.1]
          exact executed
        · simp only [Execution.emitted, outputs, filled, Option.getD_some]
    · have apart : executed.id ≠ node.id := identity ▸ mine
      have unchanged : side.world.nodeContext.get? node.id =
            state.side.world.nodeContext.get? node.id ∧
          loopArrivals side.world node.id = loopArrivals state.side.world node.id := by
        rcases how with ⟨_, same⟩ | ⟨before, later, ran, same, called, kept, _⟩
        · simp only [Prod.mk.injEq] at same
          unfold loopArrivals
          rw [same.1, same.2]
          exact ⟨rfl, rfl⟩
        · simp only [Prod.mk.injEq] at same kept
          obtain ⟨context, arrivals⟩ := loopRuntime_other apart called
          unfold loopArrivals at arrivals ⊢
          rw [kept.1, kept.2, context, arrivals, same.1, same.2]
          exact ⟨rfl, rfl⟩
      refine trace.other ?_ unchanged.2 unchanged.1
      rw [listed, if_neg mine, List.append_nil]

/-- What may change in place between two passes: a done list that entries of the stack,
outputs and the context share, or an object that code can reach. -/
structure ChangedInPlace (state after : State (LoopWorld World)) : Prop where
  stack : after.stack.map (fun entry => (entry.nodeId, entry.origin)) =
    state.stack.map fun entry => (entry.nodeId, entry.origin)
  rest : { after with
    stack := state.stack
    nodeOutputs := state.nodeOutputs
    side := { after.side with
      world := { after.side.world with inner := state.side.world.inner } } } = state

/-- The heads of the loop of `execute`, with changes in place between the passes. -/
inductive SharedHead (executor : WorkflowExecutor) (runtime : Runtime (LoopWorld World))
    (started : State (LoopWorld World)) : State (LoopWorld World) → Prop where
  | enter : SharedHead executor runtime started started
  | next {state after : State (LoopWorld World)} {entry : StackEntry} {rest : List StackEntry} :
      SharedHead executor runtime started state → state.stack = entry :: rest →
      state.iteration < maxIterations →
      executeBody executor runtime state entry rest = (after, none) →
      SharedHead executor runtime started after
  | changed {state after : State (LoopWorld World)} :
      SharedHead executor runtime started state → ChangedInPlace state after →
      SharedHead executor runtime started after

theorem LoopTrace.changed {node : Node} {state after : State (LoopWorld World)}
    (trace : LoopTrace python evaluator node state) (changes : ChangedInPlace state after) :
    LoopTrace python evaluator node after := by
  have executions := congrArg State.executions changes.rest
  have arrivals := congrArg (fun state => state.side.world.arrivals) changes.rest
  have context := congrArg (fun state => state.side.world.nodeContext.get? node.id) changes.rest
  refine trace.other ?_ ?_ context
  · unfold loopExecutions
    rw [← executions]
  · unfold loopArrivals
    rw [← arrivals]

theorem sharedHead_trace {node : Node}
    (found : executor.snapshot.nodesById.get? node.id = some node) (loops : node.type = "loop")
    {world : World} {startNodes : List String} {inputData : Value}
    {state : State (LoopWorld World)}
    (head : SharedHead executor (loopRuntime python evaluator runtime)
      ((State.initial (LoopWorld.initial world)).pushStartNodes startNodes inputData) state) :
    LoopTrace python evaluator node state := by
  induction head with
  | enter => exact ⟨rfl, .start, fun _ member => nomatch member⟩
  | next _ _ _ passed ih => exact ih.body found loops passed
  | changed _ changes ih => exact ih.changed changes

end Visits

/-!
## Batches
-/

/-- The batch with the given number. -/
def batchAt (size : Nat) (items : List Value) (index : Nat) : List Value :=
  (items.drop (index * size)).take size

def batchCount (size : Nat) (items : List Value) : Nat := (items.length + size - 1) / size

/-- The consecutive batches of a list. -/
def batches (size : Nat) (items : List Value) : List (List Value) :=
  (List.range (batchCount size items)).map (batchAt size items)

theorem lt_batchCount {size : Nat} (positive : 1 ≤ size) (items : List Value) (index : Nat) :
    index < batchCount size items ↔ index * size < items.length := by
  unfold batchCount
  rw [Nat.lt_iff_add_one_le, Nat.le_div_iff_mul_le positive, Nat.add_one_mul]
  omega

theorem batches_eq_nil {size : Nat} (positive : 1 ≤ size) {items : List Value} :
    batches size items = [] ↔ items = [] := by
  have counted := lt_batchCount positive items 0
  unfold batches
  rw [List.map_eq_nil_iff, List.range_eq_nil, ← List.length_eq_zero_iff]
  omega

theorem slice_eq (size : Nat) (items : List Value) (index : Nat) :
    slice items (↑(index * size)) (↑(index * size) + ↑size) = batchAt size items index := by
  have start : sliceBound items.length ↑(index * size) = min (index * size) items.length := by
    unfold sliceBound
    rw [if_neg (by omega)]
    rfl
  have stop : sliceBound items.length (↑(index * size) + ↑size) =
      min (index * size + size) items.length := by
    unfold sliceBound
    rw [if_neg (by omega)]
    rfl
  unfold slice batchAt
  rw [start, stop, ← List.take_eq_take_min]
  rcases Nat.le_total (index * size) items.length with within | beyond
  · rw [Nat.min_eq_left within, List.drop_take, Nat.add_sub_cancel_left]
  · rw [Nat.min_eq_right beyond, List.drop_eq_nil_of_le beyond, List.take_nil]
    refine List.drop_eq_nil_of_le ?_
    exact List.length_take_le' _ _

/-- What the runner emits at the visit with the given number after it was
entered with the items. -/
def emissionAt (size : Nat) (items : List Value) (index : Nat) : List (List Value) :=
  if items = [] ∧ index = 0 then [[], []]
  else if index * size < items.length then [[], [batchData (batchAt size items index)]]
  else
    [[.list ((List.range index).map fun earlier => batchData (batchAt size items earlier))], []]

/-- The state of the runner after as many continuations. -/
def stateAt (config : List (String × Value)) (size : Nat) (items : List Value) (index : Nat) :
    LoopState where
  items := items
  currentIndex := ↑(index * size)
  batchSize := loopBatchSize config
  processedItems := (List.range index).map fun earlier => batchData (batchAt size items earlier)

section Replay

variable {config : List (String × Value)} {size : Nat}

theorem currentBatch_stateAt (items : List Value) (index : Nat) :
    (stateAt config size items index).currentBatch ↑size =
      batchData (batchAt size items index) := by
  unfold LoopState.currentBatch
  exact congrArg batchData (slice_eq size items index)

theorem emitBatch_stateAt (given : batchStep (loopBatchSize config) = .ok ↑size)
    (items : List Value) (index : Nat) :
    (stateAt config size items index).emitBatch = .ok {
      outputs := some [[], [batchData (batchAt size items index)]]
      json := some (batchData (batchAt size items index)) } := by
  have step : batchStep (stateAt config size items index).batchSize = .ok ↑size := given
  unfold LoopState.emitBatch
  simp only [step, currentBatch_stateAt]

theorem advance_stateAt (items : List Value) (index : Nat) :
    (stateAt config size items index).advance ↑size = stateAt config size items (index + 1) := by
  unfold LoopState.advance
  rw [currentBatch_stateAt]
  unfold stateAt
  simp only [List.range_succ, List.map_append, List.map_cons, List.map_nil, LoopState.mk.injEq,
    true_and, and_true]
  push_cast
  rw [Int.add_mul, Int.one_mul]

theorem continueLoop_stateAt (given : batchStep (loopBatchSize config) = .ok ↑size)
    (items : List Value) (index : Nat) {after : LoopState} {result : NodeOutput}
    (continued : (stateAt config size items index).continueLoop = (after, .ok result)) :
    after = stateAt config size items (index + 1) ∧
      result.outputs = some (emissionAt size items (index + 1)) := by
  have step : batchStep (stateAt config size items index).batchSize = .ok ↑size := given
  have emission : emissionAt size items (index + 1) =
      if (index + 1) * size < items.length then
        [[], [batchData (batchAt size items (index + 1))]]
      else [[.list (stateAt config size items (index + 1)).processedItems], []] := by
    unfold emissionAt
    rw [if_neg (by simp)]
    rfl
  have length : (stateAt config size items (index + 1)).items.length = items.length := rfl
  have reached : (stateAt config size items (index + 1)).currentIndex = ↑((index + 1) * size) := rfl
  unfold LoopState.continueLoop at continued
  simp only [step, currentBatch_stateAt, advance_stateAt, emitBatch_stateAt given, length,
    reached] at continued
  rw [emission]
  by_cases more : (index + 1) * size < items.length
  · rw [if_neg (by omega)] at continued
    cases continued
    exact ⟨rfl, by rw [if_pos more]⟩
  · rw [if_pos (by omega)] at continued
    cases continued
    exact ⟨rfl, by rw [if_neg more]⟩

theorem initLoop_stateAt (given : batchStep (loopBatchSize config) = .ok ↑size)
    (items : List Value) {after : LoopState} {result : NodeOutput}
    (started : initLoop config items = (after, .ok result)) :
    after = stateAt config size items 0 ∧
      result.outputs = some (emissionAt size items 0) := by
  have fresh : LoopState.started config items = stateAt config size items 0 := by
    unfold LoopState.started stateAt
    simp
  unfold initLoop at started
  simp only [fresh, emitBatch_stateAt given] at started
  unfold emissionAt
  by_cases empty : items = []
  · rw [if_pos empty] at started
    cases started
    exact ⟨rfl, by rw [if_pos ⟨empty, rfl⟩]⟩
  · rw [if_neg empty] at started
    cases started
    have nonempty := List.length_pos_iff.mpr empty
    refine ⟨rfl, ?_⟩
    rw [if_neg (fun both => empty both.1), if_pos (by omega)]

/-- The first visit starts with its items, and every later one continues them,
whatever its own items are. -/
theorem Replays.spec {visits : List Visit} {state : Option LoopState}
    (given : batchStep (loopBatchSize config) = .ok ↑size)
    (replays : Replays config visits state) :
    (visits = [] ∧ state = none) ∨
      ∃ first rest items, visits = first :: rest ∧ first.items = .ok items ∧
        state = some (stateAt config size items rest.length) ∧
        visits.map Visit.outputs = (List.range visits.length).map (emissionAt size items) := by
  induction replays with
  | start => exact .inl ⟨rfl, rfl⟩
  | @visit visits state after visit result _ executed outputs ih =>
      refine .inr ?_
      rcases ih with ⟨rfl, rfl⟩ | ⟨first, rest, items, rfl, entered, rfl, emitted⟩
      · cases resolved : visit.items with
        | error error =>
            rw [resolved] at executed
            cases executed
        | ok items =>
            rw [resolved] at executed
            unfold executeLoopNode at executed
            simp only [Prod.mk.injEq] at executed
            obtain ⟨rfl, returned⟩ := executed
            obtain ⟨reached, emission⟩ := initLoop_stateAt given items (Prod.ext rfl returned)
            rw [outputs] at emission
            refine ⟨visit, [], items, rfl, resolved, congrArg some reached, ?_⟩
            simpa using Option.some.inj emission
      · unfold executeLoopNode at executed
        simp only [Prod.mk.injEq] at executed
        obtain ⟨rfl, returned⟩ := executed
        obtain ⟨reached, emission⟩ :=
          continueLoop_stateAt given items rest.length (Prod.ext rfl returned)
        refine ⟨first, rest ++ [visit], items, rfl, entered, ?_, ?_⟩
        · rw [List.length_append]
          exact congrArg some reached
        · rw [outputs] at emission
          rw [List.map_append, emitted, List.length_append, List.length_singleton,
            List.range_succ, List.map_append, List.length_cons]
          simpa using emission

end Replay

/-!
## Entries
-/

namespace Visit

def loopValues (visit : Visit) : List Value := visit.outputs.getD 1 []

def doneValues (visit : Visit) : List Value := visit.outputs.getD 0 []

/-- The list with which the node is entered: the input where the items are the
default ones and it is a list, and else what the expression stands for. -/
def received (config : List (String × Value)) (visit : Visit) : Except String (List Value) :=
  match visit.inputData with
  | .list items => if inputItems config = defaultItems then .ok items else visit.items
  | _ => visit.items

end Visit

/-- A visit from outside the body of the loop and the returns of the body that
follow it. -/
structure Entry where
  entry : Visit
  returns : List Visit

namespace Entry

def visits (entry : Entry) : List Visit := entry.entry :: entry.returns

def emissions (entry : Entry) : List Value := entry.visits.flatMap Visit.loopValues

/-- The loop socket emits the batches of the list in order, and for a list that
is not empty the done socket emits once, after the last batch. -/
structure Lawful (size : Nat) (entry : Entry) (items : List Value) : Prop where
  batches : entry.emissions = (batches size items).map batchData
  done : items ≠ [] → ∃ earlier last value, entry.visits = earlier ++ [last] ∧
    last.loopValues = [] ∧ last.doneValues = [value] ∧
    ∀ visit ∈ earlier, visit.doneValues = []

end Entry

/-- The visits are those of the entries, and the body returns once for each
emitted batch. -/
structure Entered (visits : List Visit) (entries : List Entry) : Prop where
  visits : entries.flatMap Entry.visits = visits
  returns : ∀ entry ∈ entries, entry.returns.length = entry.emissions.length

section Law

variable {size : Nat} {items : List Value}

theorem emissionAt_batch {index : Nat} (more : index * size < items.length) :
    emissionAt size items index = [[], [batchData (batchAt size items index)]] := by
  unfold emissionAt
  rw [if_neg, if_pos more]
  rintro ⟨rfl, _⟩
  simp at more

theorem emissionAt_beyond {index : Nat} (beyond : items.length ≤ index * size) :
    (emissionAt size items index).getD 1 [] = [] := by
  unfold emissionAt
  rw [if_neg (Nat.not_lt.mpr beyond)]
  split <;> rfl

/-- The first visits emit the batches, as far as there are any. -/
theorem emissions_first (positive : 1 ≤ size) (count : Nat) :
    ((List.range count).map (emissionAt size items)).flatMap (fun outputs => outputs.getD 1 []) =
      (List.range (min count (batchCount size items))).map fun index =>
        batchData (batchAt size items index) := by
  induction count with
  | zero => simp
  | succ count ih =>
      rw [List.range_succ, List.map_append, List.flatMap_append, ih]
      by_cases more : count < batchCount size items
      · have batch := emissionAt_batch ((lt_batchCount positive items count).mp more)
        rw [Nat.min_eq_left (Nat.le_of_lt more), Nat.min_eq_left more, List.range_succ,
          List.map_append]
        simp [batch]
      · have beyond : items.length ≤ count * size :=
          Nat.not_lt.mp (mt (lt_batchCount positive items count).mpr more)
        rw [Nat.min_eq_right (Nat.not_lt.mp more), Nat.min_eq_right (by omega)]
        simpa using emissionAt_beyond beyond

/-- The first entry, which the runner takes as such: as many returns as there
are batches, and the law for the items with which it started. -/
theorem first_entry (positive : 1 ≤ size) {entry : Entry}
    (outputs : entry.visits.map Visit.outputs =
      (List.range (entry.returns.length + 1)).map (emissionAt size items))
    (returns : entry.returns.length = entry.emissions.length) :
    entry.returns.length = batchCount size items ∧ entry.Lawful size items := by
  have emitted : entry.emissions =
      (List.range (min (entry.returns.length + 1) (batchCount size items))).map fun index =>
        batchData (batchAt size items index) := by
    rw [← emissions_first positive, ← outputs, List.flatMap_map]
    rfl
  have counted : entry.returns.length = batchCount size items := by
    rw [emitted, List.length_map, List.length_range] at returns
    omega
  refine ⟨counted, ?_, ?_⟩
  · rw [emitted, counted, Nat.min_eq_right (Nat.le_succ _)]
    unfold batches
    rw [List.map_map]
    rfl
  · intro nonempty
    rw [counted, List.range_succ, List.map_append] at outputs
    obtain ⟨earlier, lasts, split, before, final⟩ := List.map_eq_append_iff.mp outputs
    obtain ⟨last, rfl, emission⟩ := List.map_eq_singleton_iff.mp final
    have beyond : ¬ batchCount size items * size < items.length :=
      mt (lt_batchCount positive items _).mpr (Nat.lt_irrefl _)
    unfold emissionAt at emission
    rw [if_neg (fun both => nonempty both.1), if_neg beyond] at emission
    have unbatched : last.loopValues = [] :=
      congrArg (fun sockets : List (List Value) => sockets.getD 1 []) emission
    refine ⟨earlier, last, _, split, unbatched,
      congrArg (fun sockets : List (List Value) => sockets.getD 0 []) emission, ?_⟩
    intro visit member
    have emitted := List.mem_map_of_mem (f := Visit.outputs) member
    rw [before] at emitted
    obtain ⟨index, inside, same⟩ := List.mem_map.mp emitted
    have more := (lt_batchCount positive items index).mp (List.mem_range.mp inside)
    unfold Visit.doneValues
    rw [← same, emissionAt_batch more]
    rfl

/-- A visit after the last batch emits nothing on the loop socket, so that a
later entry has no return. -/
theorem later_entry {entry : Entry}
    (silent : ∀ visit ∈ entry.visits, visit.loopValues = []) (positive : 1 ≤ size)
    (received : List Value) : entry.Lawful size received ↔ received = [] := by
  have emitted : entry.emissions = [] := List.flatMap_eq_nil_iff.mpr silent
  constructor
  · intro lawful
    have none := lawful.batches
    rw [emitted] at none
    exact (batches_eq_nil positive).mp (List.map_eq_nil_iff.mp none.symm)
  · rintro rfl
    refine ⟨?_, fun nonempty => absurd rfl nonempty⟩
    rw [emitted, (batches_eq_nil positive).mpr rfl]
    rfl

/-- What the visits are, split at the end of the first entry. -/
theorem entries_split (positive : 1 ≤ size) {entry : Entry} {later : List Visit}
    (outputs : (entry.visits ++ later).map Visit.outputs =
      (List.range (entry.visits ++ later).length).map (emissionAt size items))
    (returns : entry.returns.length = entry.emissions.length) :
    entry.Lawful size items ∧ ∀ visit ∈ later, visit.loopValues = [] := by
  have length : entry.visits.length = entry.returns.length + 1 := rfl
  rw [List.map_append, List.length_append, List.range_add, List.map_append] at outputs
  obtain ⟨first, rest⟩ := List.append_inj outputs (by simp)
  obtain ⟨counted, lawful⟩ := first_entry positive (length ▸ first) returns
  refine ⟨lawful, fun visit member => ?_⟩
  have emitted := List.mem_map_of_mem (f := Visit.outputs) member
  rw [rest] at emitted
  obtain ⟨shifted, inside, same⟩ := List.mem_map.mp emitted
  obtain ⟨offset, _, rfl⟩ := List.mem_map.mp inside
  unfold Visit.loopValues
  rw [← same]
  refine emissionAt_beyond (Nat.not_lt.mp (mt (lt_batchCount positive items _).mpr ?_))
  omega

end Law

/-!
## The entry law
-/

theorem resolve_default (python : Python) {evaluator : Evaluator} {copy : Value}
    (named : evaluator "_json" = .ok copy) :
    (resolve python evaluator defaultItems).outcome = .ok copy := by
  have mode : isExpressionMode "=\x7b\x7b _json \x7d\x7d" = true := by decide
  have body : stripExpressionPrefix "=\x7b\x7b _json \x7d\x7d" = "\x7b\x7b _json \x7d\x7d" := by
    decide
  have stripped : stripChars "\x7b\x7b _json \x7d\x7d".toList =
      "\x7b\x7b _json \x7d\x7d".toList := by decide
  have inner : fullTemplate "\x7b\x7b _json \x7d\x7d".toList = some " _json ".toList := by decide
  have name : String.ofList (stripChars " _json ".toList) = "_json" := by decide
  have nonempty : "\x7b\x7b _json \x7d\x7d".toList ≠ [] := by decide
  unfold resolve defaultItems resolveString resolvePrefixedExpression
  simp only [mode, body, stripped, inner, name, nonempty, ↓reduceIte]
  unfold safeEval Logged.recover
  rw [named]

theorem resolveItems_default (python : Python) {evaluator : Value → Evaluator}
    {config : List (String × Value)} (default : inputItems config = defaultItems)
    {inputData copy : Value} (named : evaluator (payloadOf inputData) "_json" = .ok copy) :
    resolveItems python evaluator config inputData = .ok (asItems copy) := by
  unfold resolveItems
  rw [default]
  have truthy : defaultItems.truthy = true := by decide
  simp only [truthy, ↓reduceIte, resolve_default python named]

/-- Where the items are the default ones, the list that `_json` names has the batches of the
input. It may be a copy that was wrapped before the input was extended in place. -/
def Visit.Current (config : List (String × Value)) (size : Nat) (visit : Visit) : Prop :=
  inputItems config = defaultItems → ∀ items copy, visit.inputData = .list items →
    visit.json = .ok copy →
      (batches size (asItems copy)).map batchData = (batches size items).map batchData

/-- An empty list is replaced by an empty object, which counts as one item. -/
theorem Visit.current_iff_of_fresh {config : List (String × Value)} {size : Nat}
    (positive : 1 ≤ size) {visit : Visit} (fresh : visit.json = .ok (payloadOf visit.inputData)) :
    visit.Current config size ↔
      (inputItems config = defaultItems → visit.inputData ≠ .list []) := by
  refine forall_congr' fun _ => ?_
  constructor
  · intro current empty
    have same := current [] _ empty fresh
    rw [(batches_eq_nil positive).mpr rfl, List.map_nil, List.map_eq_nil_iff,
      batches_eq_nil positive, empty] at same
    cases same
  · intro nonempty items copy input named
    rw [fresh, input] at named
    cases items with
    | nil => exact absurd input nonempty
    | cons item rest =>
        cases named
        rfl

/-- An entry that obeys the law for one list does so for those with the same batches. -/
theorem lawful_iff_sameBatches {size : Nat} (positive : 1 ≤ size) {entry : Entry}
    {items others : List Value} (lawful : entry.Lawful size items) :
    entry.Lawful size others ↔
      (batches size items).map batchData = (batches size others).map batchData := by
  constructor
  · exact fun other => lawful.batches.symm.trans other.batches
  · refine fun same => ⟨lawful.batches.trans same, fun nonempty => lawful.done ?_⟩
    rintro rfl
    rw [(batches_eq_nil positive).mpr rfl, List.map_nil] at same
    exact nonempty ((batches_eq_nil positive).mp (List.map_eq_nil_iff.mp same.symm))

/-- The first entry obeys the law exactly if `_json` names a list with the batches of the
input. -/
theorem first_lawful_iff (python : Python) {evaluator : Value → Evaluator}
    {config : List (String × Value)}
    (named : ∀ payload, ∃ copy, evaluator payload "_json" = .ok copy) {size : Nat}
    (positive : 1 ≤ size) {entry : Entry} {items received : List Value}
    (resolved : entry.entry.items =
      resolveItems python evaluator config entry.entry.inputData)
    (json : entry.entry.json = evaluator (payloadOf entry.entry.inputData) "_json")
    (started : entry.entry.items = .ok items) (lawful : entry.Lawful size items)
    (given : entry.entry.received config = .ok received) :
    entry.Lawful size received ↔ entry.entry.Current config size := by
  obtain ⟨copy, names⟩ := named (payloadOf entry.entry.inputData)
  rw [names] at json
  rw [started] at resolved
  have ordinary (unlike : ¬ ∃ list, inputItems config = defaultItems ∧
      entry.entry.inputData = .list list) (same : received = items) :
      entry.Lawful size received ↔ entry.entry.Current config size := by
    rw [same]
    exact iff_of_true lawful fun default list _ input _ => absurd ⟨list, default, input⟩ unlike
  unfold Visit.received at given
  split at given
  · next list input =>
      split at given
      · next default =>
          cases given
          rw [resolveItems_default python default names] at resolved
          cases resolved
          rw [lawful_iff_sameBatches positive lawful]
          constructor
          · intro same _ others other sameInput sameCopy
            rw [input] at sameInput
            rw [json] at sameCopy
            cases sameInput
            cases sameCopy
            exact same
          · exact fun current => current default _ _ input json
      · next other =>
          rw [started] at given
          cases given
          exact ordinary (fun both => other both.choose_spec.1) rfl
  · next other =>
      rw [started] at given
      cases given
      exact ordinary (fun both => other _ both.choose_spec.2) rfl

theorem later_lawful_iff {size : Nat} (positive : 1 ≤ size) {config : List (String × Value)}
    {entries : List Entry} {lists : List (List Value)}
    (received : List.Forall₂
      (fun entry items => entry.entry.received config = .ok items) entries lists)
    (silent : ∀ visit ∈ entries.flatMap Entry.visits, visit.loopValues = []) :
    List.Forall₂ (Entry.Lawful size) entries lists ↔ ∀ items ∈ lists, items = [] := by
  induction received with
  | nil => simp
  | @cons entry items later rest _ _ ih =>
      rw [List.flatMap_cons] at silent
      have own := later_entry (fun visit member => silent visit (List.mem_append_left _ member))
        positive items
      have others := ih fun visit member => silent visit (List.mem_append_right _ member)
      rw [List.forall₂_cons, own, others, List.forall_mem_cons]

/-- Two start nodes that lead to a loop node whose body is a single connection
back to it. -/
def sharedLoop : WorkflowExecutor where
  snapshot := {
    nodes := [⟨"n_1", "noop", none, [], []⟩, ⟨"n_2", "noop", none, [], []⟩,
      ⟨"n_3", "loop", none, [], []⟩]
    connections := [⟨some "c_1", some "n_1", none, some "n_3", none⟩,
      ⟨some "c_2", some "n_2", none, some "n_3", none⟩,
      ⟨some "c_3", some "n_3", some (some "loop"), some "n_3", none⟩] }
  persist := true
  run := some { id := 1, executionMode := "manual" }
  notify := false
  nodeOutputSockets := fun type => if type = "loop" then ["done", "loop"] else ["result"]

/-- The payload is the only name in the context. -/
def inputEvaluator (_ : Unit) (payload : Value) : Evaluator := fun text =>
  if text = "_json" then .ok payload else .error "name is not defined"

def sharedLoopRuntime : Runtime (LoopWorld Unit) :=
  loopRuntime textPython inputEvaluator echoRuntime

/-- The state after as many passes. -/
def sharedLoopAfter (startNodes : List String) (input : Value) (passes : Nat) :
    State (LoopWorld Unit) :=
  (executeLoop sharedLoop sharedLoopRuntime passes
    ((State.initial (LoopWorld.initial ())).pushStartNodes startNodes input)).1

end WorkflowStudio.Executor
