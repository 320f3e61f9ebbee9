import WorkflowStudio.Executor.NodeRunLogProperties

/-! Where pinned data does not apply, a run neither reads it nor logs a pinned
node: whatever is pinned, the run is the same. -/

set_option autoImplicit false

namespace WorkflowStudio.Executor

open Lib

variable {World : Type} {executor : WorkflowExecutor} {runtime : Runtime World}

/-- The same runtime with other pinned data. -/
def Runtime.pinning (runtime : Runtime World)
    (pins : World → Node → Except String (Option NodeOutput)) : Runtime World :=
  { runtime with getPinData := pins }

theorem shouldApplyPinData_of_mode {run : Run} (running : executor.run = some run)
    (automated : run.executionMode ≠ "manual") : executor.shouldApplyPinData = false := by
  simp only [WorkflowExecutor.shouldApplyPinData, running]
  exact beq_eq_false_iff_ne.mpr automated

/-!
## Pinned data is not read
-/

theorem pinnedResult_of_closed (closed : executor.shouldApplyPinData = false) (world : World)
    (node : Node) : pinnedResult executor runtime world node = .ok none := by
  rw [pinnedResult, closed, if_neg fun applied => Bool.false_ne_true applied.1]

section Gate

variable (closed : executor.shouldApplyPinData = false)
  (pins : World → Node → Except String (Option NodeOutput))

include closed

theorem executeNode_pinning (side : Side World) (sequence : Nat) (nodeId : String)
    (inputData : Value) (persist : Bool) :
    executeNode executor (runtime.pinning pins) side sequence nodeId inputData persist =
      executeNode executor runtime side sequence nodeId inputData persist := by
  unfold executeNode
  simp only [pinnedResult_of_closed closed]
  rfl

theorem executeBody_pinning (state : State World) (entry : StackEntry) (rest : List StackEntry) :
    executeBody executor (runtime.pinning pins) state entry rest =
      executeBody executor runtime state entry rest := by
  unfold executeBody
  simp only [executeNode_pinning closed]
  rfl

theorem executeLoop_pinning (remaining : Nat) (state : State World) :
    executeLoop executor (runtime.pinning pins) remaining state =
      executeLoop executor runtime remaining state := by
  induction remaining generalizing state with
  | zero => rfl
  | succ remaining ih =>
      unfold executeLoop
      cases state.stack with
      | nil => rfl
      | cons entry rest =>
          dsimp only
          rw [executeBody_pinning closed]
          cases executeBody executor runtime state entry rest with
          | mk after raised =>
              cases raised with
              | some error => rfl
              | none => exact ih after

theorem execute_pinning (world : World) (inputData : Value) (startNodeIds : List String) :
    execute executor (runtime.pinning pins) world inputData startNodeIds =
      execute executor runtime world inputData startNodeIds := by
  unfold execute
  cases executeStartNodes executor startNodeIds with
  | error error => rfl
  | ok startNodes =>
      dsimp only
      rw [executeLoop_pinning closed]
      rfl

end Gate

/-!
## No node is logged as pinned
-/

def Side.Unpinned (side : Side World) : Prop :=
  ∀ entry ∈ side.nodeRunBuffer, entry.status ≠ .pinned

section Unpinned

variable {side : Side World} {sequence : Nat} {node : Node} {inputData : Value}

theorem Side.Unpinned.concat {after : Side World} {entry : NodeRunEntry}
    (unpinned : side.Unpinned) (run : entry.status ≠ .pinned)
    (buffer : after.nodeRunBuffer = side.nodeRunBuffer ++ [entry]) : after.Unpinned := by
  intro other member
  rw [buffer] at member
  rcases List.mem_append.mp member with old | new
  · exact unpinned other old
  · rw [List.mem_singleton.mp new]
    exact run

theorem failNode_unpinned (unpinned : side.Unpinned) (error : String) :
    (failNode executor runtime side sequence node inputData error).1.Unpinned := by
  obtain ⟨entry, _, buffer, _, _, _, failed⟩ :=
    failNode_log executor runtime side sequence node inputData error
  refine unpinned.concat ?_ buffer
  rw [failed]
  exact NodeRunStatus.noConfusion

theorem executePersisted_unpinned (unpinned : side.Unpinned) :
    (executePersisted executor runtime side sequence node inputData).1.Unpinned := by
  unfold executePersisted
  cases runtime.executeNodeCore side.world node inputData with
  | mk after outcome =>
      have moved : Side.Unpinned { side with world := after } := unpinned
      cases outcome with
      | error error => exact failNode_unpinned moved error
      | ok returned =>
          simp only [emitRunEvent_eq]
          cases (dispatch executor runtime after
              (.nodeCompleted node inputData { returned with logInput := none })).2 with
          | ok _ => exact moved.concat NodeRunStatus.noConfusion rfl
          | error error =>
              refine failNode_unpinned ?_ error
              exact moved.concat NodeRunStatus.noConfusion rfl

theorem executeTransient_unpinned (unpinned : side.Unpinned) :
    (executeTransient executor runtime side node inputData).1.Unpinned := by
  unfold executeTransient
  cases runtime.executeNodeCore side.world node inputData with
  | mk after outcome =>
      cases outcome with
      | error error => exact unpinned
      | ok result =>
          simp only [emitRunEvent_eq]
          cases (dispatch executor runtime after (.nodeCompleted node inputData result)).2 with
          | ok _ => exact unpinned
          | error error => exact unpinned

variable (runtime sequence inputData) in
theorem executeNode_unpinned (closed : executor.shouldApplyPinData = false)
    (unpinned : side.Unpinned) (nodeId : String) (persist : Bool) :
    (executeNode executor runtime side sequence nodeId inputData persist).1.Unpinned := by
  unfold executeNode
  cases executor.snapshot.nodesById.get? nodeId with
  | none => exact unpinned
  | some node =>
      simp only [emitRunEvent_eq, pinnedResult_of_closed closed]
      cases (dispatch executor runtime side.world (.nodeStarted node inputData)).2 with
      | error error => exact unpinned
      | ok _ =>
          have moved : Side.Unpinned { side with
              world := (dispatch executor runtime side.world (.nodeStarted node inputData)).1 } :=
            unpinned
          cases persist with
          | true => exact executePersisted_unpinned moved
          | false => exact executeTransient_unpinned moved

variable (runtime) in
theorem executeBody_unpinned (closed : executor.shouldApplyPinData = false) {state : State World}
    (unpinned : state.side.Unpinned) (entry : StackEntry) (rest : List StackEntry) :
    (executeBody executor runtime state entry rest).1.side.Unpinned := by
  unfold executeBody
  dsimp only
  split
  · exact unpinned
  · have run := executeNode_unpinned runtime state.executedOrder.length entry.inputData closed
      unpinned entry.nodeId executor.persist
    simp only [State.popped]
    cases executed : executeNode executor runtime state.side state.executedOrder.length
        entry.nodeId entry.inputData executor.persist with
    | mk side outcome =>
        rw [executed] at run
        cases outcome with
        | error error =>
            dsimp only
            rw [State.busFlush_core]
            exact run
        | ok result =>
            dsimp only
            rw [State.busTick_core]
            exact run

variable (runtime) in
theorem executeLoop_unpinned (closed : executor.shouldApplyPinData = false) (remaining : Nat)
    {state : State World} (unpinned : state.side.Unpinned) :
    (executeLoop executor runtime remaining state).1.side.Unpinned := by
  refine executeLoop_invariant (fun state => state.side.Unpinned) ?_ remaining unpinned
  intro state entry rest after raised held _ passed
  have kept := executeBody_unpinned runtime closed held entry rest
  rw [passed] at kept
  exact kept

variable (runtime) in
theorem execute_unpinned (closed : executor.shouldApplyPinData = false) (world : World)
    (inputData : Value) (startNodeIds : List String) :
    (execute executor runtime world inputData startNodeIds).1.side.Unpinned := by
  have started : ∀ startNodes, ((State.initial world).pushStartNodes startNodes
      (launchInput inputData)).side.Unpinned := fun _ _ member => absurd member List.not_mem_nil
  unfold execute
  cases executeStartNodes executor startNodeIds with
  | error error =>
      dsimp only
      rw [State.busFlush_core]
      exact fun _ member => absurd member List.not_mem_nil
  | ok startNodes =>
      have kept := executeLoop_unpinned runtime closed maxIterations
        (started startNodes)
      dsimp only
      cases ended : executeLoop executor runtime maxIterations
          ((State.initial world).pushStartNodes startNodes (launchInput inputData)) with
      | mk state raised =>
          rw [ended] at kept
          cases raised with
          | some error =>
              dsimp only
              rw [State.busFlush_core]
              exact kept
          | none =>
              dsimp only
              split
              · rw [State.busFlush_core]
                exact kept
              · cases runtime.display (collectFinalOutput executor state) with
                | error error =>
                    dsimp only
                    rw [State.busFlush_core]
                    exact kept
                | ok output =>
                    dsimp only
                    rw [State.busFlush_core]
                    exact kept

end Unpinned

end WorkflowStudio.Executor
