import WorkflowStudio.Executor.ConservationProperties

/-! When the buffered node runs are a faithful log of the executions. Entries
are appended before and after the run events, so a handler that raises can
leave an execution without an entry, with two, or with one of the wrong status. -/

set_option autoImplicit false

namespace WorkflowStudio.Executor

open Lib

variable {World : Type}

/-!
## One execution
-/

/-- The handlers of a run event, which are called only when there is a run. -/
def dispatch (executor : WorkflowExecutor) (runtime : Runtime World) (world : World)
    (event : RunEvent) : World × Except String Unit :=
  match executor.run with
  | none => (world, .ok ())
  | some _ => runtime.emitRunEvent world event

/-- The node is one of the snapshot, its pin can be read, and no handler of the
events that its execution starts or completes raises. -/
def Undisturbed (executor : WorkflowExecutor) (runtime : Runtime World) (world : World)
    (nodeId : String) (inputData : Value) : Prop :=
  match executor.snapshot.nodesById.get? nodeId with
  | none => False
  | some node =>
      match dispatch executor runtime world (.nodeStarted node inputData) with
      | (_, .error _) => False
      | (started, .ok _) =>
          match pinnedResult executor runtime started node with
          | .error _ => False
          | .ok (some pinned) =>
              (dispatch executor runtime started (.nodeCompleted node inputData pinned)).2 = .ok ()
          | .ok none =>
              match runtime.executeNodeCore started node inputData with
              | (_, .error _) => True
              | (after, .ok returned) =>
                  (dispatch executor runtime after
                    (.nodeCompleted node inputData { returned with logInput := none })).2 = .ok ()

/-- Exactly one entry was added, and it tells how the execution ended. -/
def LogsOutcome (nodeId : String) (sequence : Nat) (outcome : Except String NodeOutput)
    (added : List NodeRunEntry) : Prop :=
  ∃ entry, added = [entry] ∧ entry.nodeId = nodeId ∧ entry.sequence = sequence ∧
    (entry.status = .failed ↔ ∃ error, outcome = .error error)

section OneNode

variable {executor : WorkflowExecutor} {runtime : Runtime World}

theorem emitRunEvent_eq (side : Side World) (event : RunEvent) :
    emitRunEvent executor runtime side event =
      ({ side with world := (dispatch executor runtime side.world event).1 },
        (dispatch executor runtime side.world event).2) := by
  unfold emitRunEvent dispatch
  cases executor.run <;> rfl

variable (executor runtime) in
/-- A failure adds one entry and raises, also when its own handler raises. -/
theorem failNode_log (side : Side World) (sequence : Nat) (node : Node) (inputData : Value)
    (error : String) :
    ∃ entry raised, (failNode executor runtime side sequence node inputData error).1.nodeRunBuffer =
        side.nodeRunBuffer ++ [entry] ∧
      (failNode executor runtime side sequence node inputData error).2 = .error raised ∧
      entry.nodeId = node.id ∧ entry.sequence = sequence ∧ entry.status = .failed := by
  unfold failNode
  simp only [emitRunEvent_eq]
  cases (dispatch executor runtime side.world (.nodeFailed node inputData error)).2 with
  | error handlerError => exact ⟨_, handlerError, rfl, rfl, rfl, rfl, rfl⟩
  | ok _ => exact ⟨_, _, rfl, rfl, rfl, rfl, rfl⟩

theorem returnPinned_log (side : Side World) (sequence : Nat) (node : Node) (inputData : Value)
    (pinned : NodeOutput) :
    ∃ added, (returnPinned executor runtime side sequence node inputData true
        pinned).1.nodeRunBuffer = side.nodeRunBuffer ++ added ∧
      (LogsOutcome node.id sequence
          (returnPinned executor runtime side sequence node inputData true pinned).2 added ↔
        (dispatch executor runtime side.world (.nodeCompleted node inputData pinned)).2 =
          .ok ()) := by
  unfold returnPinned
  simp only [↓reduceIte, emitRunEvent_eq]
  cases (dispatch executor runtime side.world (.nodeCompleted node inputData pinned)).2 with
  | ok _ =>
      refine ⟨_, rfl, iff_of_true ⟨_, rfl, rfl, rfl, ?_⟩ rfl⟩
      simp
  | error error =>
      refine ⟨_, rfl, iff_of_false ?_ (by simp)⟩
      rintro ⟨entry, added, _, _, status⟩
      cases List.singleton_inj.mp added
      simp at status

theorem executePersisted_log (side : Side World) (sequence : Nat) (node : Node)
    (inputData : Value) :
    ∃ added, (executePersisted executor runtime side sequence node inputData).1.nodeRunBuffer =
        side.nodeRunBuffer ++ added ∧
      (LogsOutcome node.id sequence
          (executePersisted executor runtime side sequence node inputData).2 added ↔
        match runtime.executeNodeCore side.world node inputData with
        | (_, .error _) => True
        | (after, .ok returned) =>
            (dispatch executor runtime after
              (.nodeCompleted node inputData { returned with logInput := none })).2 = .ok ()) := by
  unfold executePersisted
  cases called : runtime.executeNodeCore side.world node inputData with
  | mk after outcome =>
      cases outcome with
      | error error =>
          obtain ⟨entry, raised, buffer, outcome, own, numbered, failed⟩ :=
            failNode_log executor runtime { side with world := after } sequence node inputData error
          refine ⟨[entry], buffer, iff_of_true ⟨entry, rfl, own, numbered, ?_⟩ trivial⟩
          simp only [outcome, failed, Except.error.injEq, exists_eq']
      | ok returned =>
          simp only [emitRunEvent_eq]
          cases completed : (dispatch executor runtime after
              (.nodeCompleted node inputData { returned with logInput := none })).2 with
          | ok _ =>
              refine ⟨_, rfl, iff_of_true ⟨_, rfl, rfl, rfl, ?_⟩ rfl⟩
              simp
          | error error =>
              -- the completed entry is there already when the failed one is added
              have logged : ∀ (world : World) (first : NodeRunEntry), ∃ added,
                  (failNode executor runtime ⟨world, side.nodeRunBuffer ++ [first]⟩ sequence node
                    inputData error).1.nodeRunBuffer = side.nodeRunBuffer ++ added ∧
                  added.length = 2 := by
                intro world first
                obtain ⟨second, _, buffer, _⟩ := failNode_log executor runtime
                  ⟨world, side.nodeRunBuffer ++ [first]⟩ sequence node inputData error
                refine ⟨[first, second], ?_, rfl⟩
                rw [buffer, List.append_assoc]
                rfl
              obtain ⟨added, buffer, twice⟩ := logged _ _
              refine ⟨added, buffer, iff_of_false ?_ (by simp)⟩
              rintro ⟨only, rfl, _⟩
              cases twice

variable (executor runtime) in
/-- Executing a node with persistence only appends to the buffer, and what it
appends is one entry with the outcome just when nothing disturbs it. -/
theorem executeNode_log (side : Side World) (sequence : Nat) (nodeId : String)
    (inputData : Value) :
    ∃ added, (executeNode executor runtime side sequence nodeId inputData true).1.nodeRunBuffer =
        side.nodeRunBuffer ++ added ∧
      (LogsOutcome nodeId sequence
          (executeNode executor runtime side sequence nodeId inputData true).2 added ↔
        Undisturbed executor runtime side.world nodeId inputData) := by
  have unlogged : ∀ outcome, ¬ LogsOutcome nodeId sequence outcome [] := by
    rintro outcome ⟨entry, added, _⟩
    cases added
  unfold executeNode Undisturbed
  cases found : executor.snapshot.nodesById.get? nodeId with
  | none => exact ⟨[], (List.append_nil _).symm, iff_of_false (unlogged _) id⟩
  | some node =>
      obtain rfl := Snapshot.id_of_nodesById found
      simp only [emitRunEvent_eq]
      cases dispatch executor runtime side.world (.nodeStarted node inputData) with
      | mk started outcome =>
          cases outcome with
          | error error => exact ⟨[], (List.append_nil _).symm, iff_of_false (unlogged _) id⟩
          | ok _ =>
              cases pin : pinnedResult executor runtime started node with
              | error error =>
                  simp only [pin]
                  exact ⟨[], (List.append_nil _).symm, iff_of_false (unlogged _) id⟩
              | ok pinned =>
                  cases pinned with
                  | some pinned =>
                      simp only [pin]
                      exact returnPinned_log { side with world := started } sequence node inputData
                        pinned
                  | none =>
                      simp only [pin, ↓reduceIte]
                      exact executePersisted_log { side with world := started } sequence node
                        inputData

end OneNode

/-!
## Whole runs
-/

/-- One entry for each element of `executed_order`, in its order and numbered
by its index, that is failed just when the execution raised. -/
structure State.LogFaithful (state : State World) : Prop where
  nodes : state.side.nodeRunBuffer.map NodeRunEntry.nodeId = state.executedOrder
  sequence : ∀ (index : Nat) (entry : NodeRunEntry),
    state.side.nodeRunBuffer[index]? = some entry → entry.sequence = index
  failed : ∀ (index : Nat) (entry : NodeRunEntry) (execution : Execution),
    state.side.nodeRunBuffer[index]? = some entry → state.executions[index]? = some execution →
    (entry.status = .failed ↔ ∃ error, execution.outcome = .error error)

/-- The points of a run: the loop heads, and the state in which a node raised. -/
inductive RunPoint (executor : WorkflowExecutor) (runtime : Runtime World)
    (started : State World) : State World → Prop where
  | head {state : State World} : LoopHead executor runtime started state →
      RunPoint executor runtime started state
  | raised {state after : State World} {entry : StackEntry} {rest : List StackEntry}
      {error : String} : LoopHead executor runtime started state → state.stack = entry :: rest →
      state.iteration < maxIterations →
      executeBody executor runtime state entry rest = (after, some error) →
      RunPoint executor runtime started after

section Runs

variable {executor : WorkflowExecutor} {runtime : Runtime World}

theorem concat_getElem?_cases {Item : Type} {items : List Item} {last item : Item} {index : Nat}
    (found : (items ++ [last])[index]? = some item) :
    items[index]? = some item ∨ (index = items.length ∧ last = item) := by
  rcases Nat.lt_or_ge index items.length with before | beyond
  · rw [List.getElem?_append_left before] at found
    exact .inl found
  · rw [List.getElem?_append_right beyond] at found
    obtain ⟨inside, here⟩ := List.getElem?_eq_some_iff.mp found
    have last : index = items.length := by
      simp only [List.length_singleton] at inside
      omega
    exact .inr ⟨last, by simpa using here⟩

/-- What a recorded execution does to a faithful log. -/
theorem State.LogFaithful.record_iff {state after : State World} (faithful : state.LogFaithful)
    (counted : state.executions.length = state.executedOrder.length)
    {entry : StackEntry} {outcome : Except String NodeOutput} {added : List NodeRunEntry}
    (buffer : after.side.nodeRunBuffer = state.side.nodeRunBuffer ++ added)
    (order : after.executedOrder = state.executedOrder ++ [entry.nodeId])
    (executions : after.executions = state.executions ++ [⟨entry, outcome⟩]) :
    after.LogFaithful ↔
      LogsOutcome entry.nodeId state.executedOrder.length outcome added := by
  have length : state.side.nodeRunBuffer.length = state.executedOrder.length := by
    rw [← faithful.nodes, List.length_map]
  constructor
  · intro kept
    have nodes := kept.nodes
    rw [buffer, order, List.map_append, faithful.nodes, List.append_cancel_left_eq] at nodes
    obtain ⟨new, rfl, own⟩ := List.map_eq_singleton_iff.mp nodes
    have at' : after.side.nodeRunBuffer[state.executedOrder.length]? = some new := by
      rw [buffer, ← length, List.getElem?_append_right (Nat.le_refl _), Nat.sub_self]
      rfl
    have done : after.executions[state.executedOrder.length]? = some ⟨entry, outcome⟩ := by
      rw [executions, ← counted, List.getElem?_append_right (Nat.le_refl _), Nat.sub_self]
      rfl
    exact ⟨new, rfl, own, kept.sequence _ _ at', kept.failed _ _ _ at' done⟩
  · rintro ⟨new, rfl, own, numbered, status⟩
    refine ⟨?_, ?_, ?_⟩
    · rw [buffer, order, List.map_append, faithful.nodes, List.map_singleton, own]
    · intro index listed found
      rw [buffer] at found
      rcases concat_getElem?_cases found with old | ⟨here, rfl⟩
      · exact faithful.sequence index listed old
      · rw [numbered, here, length]
    · intro index listed execution found executed
      rw [buffer] at found
      rw [executions] at executed
      rcases concat_getElem?_cases executed with old | ⟨here, rfl⟩
      · rcases concat_getElem?_cases found with before | ⟨beyond, _⟩
        · exact faithful.failed index listed execution before old
        · have inside := (List.getElem?_eq_some_iff.mp old).1
          omega
      · rcases concat_getElem?_cases found with before | ⟨_, rfl⟩
        · have inside := (List.getElem?_eq_some_iff.mp before).1
          omega
        · exact status

/-- A pass over an enabled node records one execution, whether it raises or not. -/
theorem executeBody_logged (persists : executor.persist = true) {state after : State World}
    {entry : StackEntry} {rest : List StackEntry} {raised : Option String}
    (enabled : executor.snapshot.isNodeDisabled entry.nodeId = false)
    (passed : executeBody executor runtime state entry rest = (after, raised)) :
    ∃ outcome added, after.side.nodeRunBuffer = state.side.nodeRunBuffer ++ added ∧
      after.executedOrder = state.executedOrder ++ [entry.nodeId] ∧
      after.executions = state.executions ++ [⟨entry, outcome⟩] ∧
      (LogsOutcome entry.nodeId state.executedOrder.length outcome added ↔
        Undisturbed executor runtime state.side.world entry.nodeId entry.inputData) := by
  obtain ⟨added, buffer, logs⟩ := executeNode_log executor runtime state.side
    state.executedOrder.length entry.nodeId entry.inputData
  unfold executeBody at passed
  simp only [enabled, Bool.false_eq_true, ↓reduceIte, persists] at passed
  cases ran : executeNode executor runtime state.side state.executedOrder.length entry.nodeId
      entry.inputData true with
  | mk side outcome =>
      rw [ran] at buffer logs
      refine ⟨outcome, added, ?_⟩
      cases outcome with
      | error error =>
          simp only [State.popped, ran] at passed
          rw [State.busFlush_core] at passed
          cases passed
          exact ⟨buffer, rfl, rfl, logs⟩
      | ok result =>
          simp only [State.popped, ran] at passed
          rw [State.busTick_core] at passed
          cases passed
          exact ⟨buffer, rfl, rfl, logs⟩

/-- At every loop head each element of `executed_order` has its execution. -/
theorem LoopHead.counted {started state : State World}
    (fresh : started.executions.length = started.executedOrder.length)
    (head : LoopHead executor runtime started state) :
    state.executions.length = state.executedOrder.length := by
  induction head with
  | enter => exact fresh
  | next _ _ _ passed ih =>
      rcases executeBody_cases passed with ⟨_, rfl⟩ | ⟨side, result, bus, _, _, rfl⟩
      · exact ih
      · simp only [State.applyRouting, State.record, State.popped, List.length_append,
          List.length_singleton, ih]

/-- Every execution of the run finds its node, reads its pin and meets no handler
that raises when a node starts or completes. -/
def RunUndisturbed (executor : WorkflowExecutor) (runtime : Runtime World)
    (started : State World) : Prop :=
  ∀ state entry rest, LoopHead executor runtime started state → state.stack = entry :: rest →
    state.iteration < maxIterations → executor.snapshot.isNodeDisabled entry.nodeId = false →
    Undisturbed executor runtime state.side.world entry.nodeId entry.inputData

theorem LoopHead.faithful (persists : executor.persist = true) {started state : State World}
    (fresh : started.executions.length = started.executedOrder.length)
    (faithful : started.LogFaithful) (undisturbed : RunUndisturbed executor runtime started)
    (head : LoopHead executor runtime started state) : state.LogFaithful := by
  induction head with
  | enter => exact faithful
  | @next state after entry rest before top within passed ih =>
      cases enabled : executor.snapshot.isNodeDisabled entry.nodeId with
      | true =>
          rw [executeBody_disabled enabled] at passed
          cases passed
          exact ⟨ih.nodes, ih.sequence, ih.failed⟩
      | false =>
          obtain ⟨outcome, added, buffer, order, executions, logs⟩ :=
            executeBody_logged persists enabled passed
          exact (ih.record_iff (before.counted fresh) buffer order executions).mpr
            (logs.mpr (undisturbed state entry rest before top within enabled))

end Runs

/-- In every run with persistence the log is faithful at every point just when
every execution is undisturbed. -/
theorem nodeRuns_faithful_iff (executor : WorkflowExecutor) (runtime : Runtime World)
    (persists : executor.persist = true) (world : World) (startNodes : List String)
    (inputData : Value) :
    (∀ point, RunPoint executor runtime
        ((State.initial world).pushStartNodes startNodes inputData) point → point.LogFaithful) ↔
      RunUndisturbed executor runtime
        ((State.initial world).pushStartNodes startNodes inputData) := by
  have fresh : ((State.initial world).pushStartNodes startNodes inputData).executions.length =
      ((State.initial world).pushStartNodes startNodes inputData).executedOrder.length := rfl
  have faithful : ((State.initial world).pushStartNodes startNodes inputData).LogFaithful :=
    ⟨rfl, fun _ _ found => (nomatch found), fun _ _ _ found => (nomatch found)⟩
  constructor
  · intro always state entry rest head top within enabled
    cases passed : executeBody executor runtime state entry rest with
    | mk after raised =>
        obtain ⟨outcome, added, buffer, order, executions, logs⟩ :=
          executeBody_logged persists enabled passed
        have kept : after.LogFaithful := by
          cases raised with
          | none => exact always after (.head (.next head top within passed))
          | some error => exact always after (.raised head top within passed)
        refine logs.mp ?_
        exact ((always state (.head head)).record_iff (head.counted fresh) buffer order
          executions).mp kept
  · intro undisturbed point reached
    cases reached with
    | head head => exact head.faithful persists fresh faithful undisturbed
    | @raised state after entry rest error head top within passed =>
        have before := head.faithful persists fresh faithful undisturbed
        cases enabled : executor.snapshot.isNodeDisabled entry.nodeId with
        | true =>
            rw [executeBody_disabled enabled] at passed
            cases passed
        | false =>
            obtain ⟨outcome, added, buffer, order, executions, logs⟩ :=
              executeBody_logged persists enabled passed
            exact (before.record_iff (head.counted fresh) buffer order executions).mpr
              (logs.mpr (undisturbed state entry rest head top within enabled))

def singleNode : WorkflowExecutor where
  snapshot := {
    nodes := [⟨"n_1", "noop", none, [], []⟩]
    connections := [] }
  persist := true
  run := some { id := 1, executionMode := "manual" }
  notify := false
  nodeOutputSockets := fun _ => ["result"]

def singleStart : State Unit := (State.initial ()).pushStartNodes ["n_1"] (.int 7)

theorem nodeRuns_faithful_singleNode :
    singleNode.persist = true ∧
      ∀ point, RunPoint singleNode echoRuntime singleStart point → point.LogFaithful := by
  refine ⟨rfl, (nodeRuns_faithful_iff singleNode echoRuntime rfl () ["n_1"] (.int 7)).mpr ?_⟩
  have only : ∀ state, LoopHead singleNode echoRuntime singleStart state →
      state = singleStart ∨ state.stack = [] := by
    intro state head
    induction head with
    | enter => exact .inl rfl
    | next _ top _ passed ih =>
        rcases ih with rfl | empty
        · cases top
          cases passed
          exact .inr rfl
        · rw [empty] at top
          cases top
  intro state entry rest head top _ _
  rcases only state head with rfl | empty
  · cases top
    rfl
  · rw [empty] at top
    cases top

/-- The handlers of `node_completed` raise. -/
def raisingHandler : Runtime Unit :=
  { echoRuntime with
    emitRunEvent := fun world event =>
      match event with
      | .nodeCompleted _ _ _ => (world, .error "handler")
      | _ => (world, .ok ()) }

/-- One execution leaves a completed and a failed entry. -/
theorem completed_handler_doubles_entry :
    ∃ point, RunPoint singleNode raisingHandler singleStart point ∧
      point.executedOrder = ["n_1"] ∧
      point.side.nodeRunBuffer.map (fun entry => (entry.nodeId, entry.sequence, entry.status)) =
        [("n_1", 0, .completed), ("n_1", 0, .failed)] ∧ ¬ point.LogFaithful := by
  have reached : RunPoint singleNode raisingHandler singleStart
      (executeBody singleNode raisingHandler singleStart ⟨"n_1", .int 7, "n_1"⟩ []).1 :=
    .raised .enter rfl (by decide) rfl
  refine ⟨_, reached, by decide, by decide, fun faithful => ?_⟩
  exact absurd faithful.nodes (by decide)

end WorkflowStudio.Executor
