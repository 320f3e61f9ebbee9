import WorkflowStudio.Executor.Launch
import WorkflowStudio.Executor.PreviewProperties

/-! When a completed run has done some work. The executor skips a disabled start
node silently, and only its own search for start nodes leaves them out. -/

set_option autoImplicit false

namespace WorkflowStudio.Executor

open Lib

variable {World : Type} {executor : WorkflowExecutor} {runtime : Runtime World}

/-!
## The end of the loop
-/

/-- Each iteration executes a node or skips one that is disabled. -/
structure Paced (executor : WorkflowExecutor) (state : State World) : Prop where
  counted : state.iteration = state.executedOrder.length + state.skipped.length
  skipped : ∀ nodeId ∈ state.skipped, executor.snapshot.isNodeDisabled nodeId = true

theorem Paced.body {state after : State World} {entry : StackEntry} {rest : List StackEntry}
    (paced : Paced executor state)
    (passed : executeBody executor runtime state entry rest = (after, none)) :
    Paced executor after := by
  obtain ⟨counted, skipped⟩ := paced
  rcases executeBody_cases passed with ⟨disabled, rfl⟩ | ⟨side, result, bus, _, _, rfl⟩
  · constructor
    · simp only [State.popped, List.length_append, List.length_cons, List.length_nil]
      omega
    · intro nodeId member
      rcases List.mem_append.mp member with old | new
      · exact skipped nodeId old
      · rcases List.mem_singleton.mp new with rfl
        exact disabled
  · constructor
    · simp only [State.applyRouting, State.record, State.popped, List.length_append,
        List.length_cons, List.length_nil]
      omega
    · exact skipped

theorem LoopHead.paced {world : World} {inputData : Value} {startNodes : List String}
    {state : State World}
    (head : LoopHead executor runtime
      ((State.initial world).pushStartNodes startNodes inputData) state) :
    Paced executor state := by
  induction head with
  | enter =>
      constructor
      · rfl
      · intro nodeId member
        cases member
  | next _ _ _ passed ih => exact ih.body passed

/-- A loop that ends without an error ends at its head. -/
theorem executeLoop_head (remaining : Nat) {started state after : State World}
    (head : LoopHead executor runtime started state)
    (fits : state.iteration + remaining ≤ maxIterations)
    (ended : executeLoop executor runtime remaining state = (after, none)) :
    LoopHead executor runtime started after := by
  induction remaining generalizing state with
  | zero =>
      cases ended
      exact head
  | succ remaining ih =>
      rw [executeLoop] at ended
      split at ended
      · cases ended
        exact head
      · next entry rest top =>
          split at ended
          · cases ended
          · next later passed =>
              have counted : later.iteration = state.iteration + 1 := by
                rcases executeBody_cases passed with ⟨_, rfl⟩ | ⟨side, result, bus, _, _, rfl⟩
                · rfl
                · rfl
              refine ih (head.next top ?_ passed) ?_ ended
              · omega
              · omega

/-- What an execution that returns has done: the loop ended with nothing left
to execute, before its last iteration. -/
theorem execute_ok {world : World} {inputData output : Value} {startNodeIds : List String}
    {state : State World}
    (returns : execute executor runtime world inputData startNodeIds = (state, .ok output)) :
    ∃ startNodes before, executeStartNodes executor startNodeIds = .ok startNodes ∧
      LoopHead executor runtime
        ((State.initial world).pushStartNodes startNodes (launchInput inputData)) before ∧
      before.stack = [] ∧ before.iteration < maxIterations ∧
      state.executedOrder = before.executedOrder := by
  unfold execute at returns
  split at returns
  · cases returns
  · next startNodes found =>
      dsimp only at returns
      split at returns
      · cases returns
      · next before ended =>
          split at returns
          · cases returns
          · next few =>
              split at returns
              · cases returns
              · cases returns
                rw [not_le] at few
                refine ⟨startNodes, before, found, ?_, ?_, few, ?_⟩
                · exact executeLoop_head maxIterations .enter (Nat.zero_add _).le ended
                · rcases executeLoop_ends maxIterations ended with empty | used
                  · exact empty
                  · have all : before.iteration = 0 + maxIterations := used
                    omega
                · rw [State.busFlush_core]

section Ended

variable {startNodes : List String} {world : World} {inputData : Value} {state : State World}

/-- A start node is executed unless it is disabled. -/
theorem LoopHead.start_executed
    (head : LoopHead executor runtime
      ((State.initial world).pushStartNodes startNodes inputData) state)
    (empty : state.stack = []) {nodeId : String} (start : nodeId ∈ startNodes)
    (enabled : executor.snapshot.isNodeDisabled nodeId = false) :
    nodeId ∈ state.executedOrder := by
  have balanced := head.conserved.balanced nodeId
  rw [empty, List.map_nil, List.count_nil] at balanced
  have started := List.count_pos_iff.mpr start
  have unskipped : state.skipped.count nodeId = 0 := by
    rw [List.count_eq_zero]
    intro member
    exact absurd ((head.paced.skipped nodeId member).symm.trans enabled) (by decide)
  refine List.count_pos_iff.mp ?_
  omega

/-- Where nothing was executed, the start nodes were skipped one by one. -/
theorem LoopHead.nothing_executed
    (head : LoopHead executor runtime
      ((State.initial world).pushStartNodes startNodes inputData) state)
    (empty : state.stack = []) (nothing : state.executedOrder = []) :
    (∀ nodeId ∈ startNodes, executor.snapshot.isNodeDisabled nodeId = true) ∧
      state.iteration = startNodes.length := by
  have unrouted : state.executedConnections = [] := by
    cases routed : state.executedConnections with
    | nil => rfl
    | cons event others =>
        have executed := (head.conserved.traced 0 event (by rw [routed]; rfl)).2.1
        rw [nothing] at executed
        cases executed
  have same : state.skipped.Perm startNodes := by
    rw [List.perm_iff_count]
    intro nodeId
    have balanced := head.conserved.balanced nodeId
    rw [empty, nothing, unrouted] at balanced
    simpa using balanced
  constructor
  · intro nodeId start
    exact head.paced.skipped nodeId (same.mem_iff.mpr start)
  · rw [head.paced.counted, nothing, same.length_eq]
    exact Nat.zero_add _

end Ended

variable (runtime) in
/-- Disabled nodes are popped and skipped, and nothing else happens. -/
theorem executeLoop_skips (remaining : Nat) (state : State World)
    (disabled : ∀ entry ∈ state.stack, executor.snapshot.isNodeDisabled entry.nodeId = true)
    (fits : state.stack.length ≤ remaining) :
    ∃ after, executeLoop executor runtime remaining state = (after, none) ∧
      after.stack = [] ∧ after.executedOrder = state.executedOrder ∧
      after.nodeOutputs = state.nodeOutputs ∧
      after.iteration = state.iteration + state.stack.length := by
  induction remaining generalizing state with
  | zero =>
      have empty := List.length_eq_zero_iff.mp (Nat.le_zero.mp fits)
      refine ⟨state, rfl, empty, rfl, rfl, ?_⟩
      rw [empty]
      rfl
  | succ remaining ih =>
      rw [executeLoop]
      cases top : state.stack with
      | nil => exact ⟨state, rfl, top, rfl, rfl, rfl⟩
      | cons entry rest =>
          rw [top] at disabled fits
          have skips : executeBody executor runtime state entry rest = _ :=
            executeBody_disabled (disabled entry List.mem_cons_self)
          obtain ⟨after, ended, empty, unexecuted, outputs, counted⟩ :=
            ih { state.popped rest with skipped := state.skipped ++ [entry.nodeId] }
              (fun other member => disabled other (List.mem_cons_of_mem _ member))
              (Nat.le_of_succ_le_succ fits)
          refine ⟨after, ?_, empty, unexecuted, outputs, ?_⟩
          · simp only [skips]
            exact ended
          · rw [counted, List.length_cons]
            simp only [State.popped]
            omega

/-- Where nothing was executed, no node has an output. -/
theorem collectFinalOutput_of_nothing (executor : WorkflowExecutor) {state : State World}
    (nothing : state.nodeOutputs = .empty) : collectFinalOutput executor state = .dict [] := by
  have none (nodeIds : List String) : (nodeIds.filterMap fun nodeId =>
      if (executor.snapshot.connectionsBySource nodeId).isEmpty then
        (state.nodeOutputs.get? nodeId).map fun result =>
          (Value.str nodeId, result.json.getD .none)
      else Option.none) = [] := by
    rw [List.filterMap_eq_nil_iff]
    intro nodeId _
    rw [nothing]
    exact ite_self _
  unfold collectFinalOutput
  rw [none]

variable (executor runtime) in
/-- Given start nodes that are all disabled make an execution that returns and
has executed nothing. -/
theorem execute_skips (world : World) (inputData : Value) {startNodeIds : List String}
    (given : startNodeIds ≠ [])
    (disabled : ∀ nodeId ∈ startNodeIds, executor.snapshot.isNodeDisabled nodeId = true)
    (few : startNodeIds.length < maxIterations) :
    ∃ state output, execute executor runtime world inputData startNodeIds = (state, .ok output) ∧
      state.executedOrder = [] := by
  have pushed : ((State.initial world).pushStartNodes startNodeIds
      (launchInput inputData)).stack.map StackEntry.nodeId = startNodeIds.reverse := by
    simp [State.pushStartNodes, State.initial, Function.comp_def]
  have counted := congrArg List.length pushed
  rw [List.length_map, List.length_reverse] at counted
  have waiting : ∀ entry ∈ ((State.initial world).pushStartNodes startNodeIds
      (launchInput inputData)).stack, executor.snapshot.isNodeDisabled entry.nodeId = true := by
    intro entry member
    have listed : entry.nodeId ∈ startNodeIds.reverse :=
      pushed ▸ List.mem_map_of_mem member
    exact disabled _ (List.mem_reverse.mp listed)
  obtain ⟨after, ended, _, unexecuted, outputs, iterations⟩ :=
    executeLoop_skips runtime maxIterations _ waiting (counted.trans_le few.le)
  unfold execute executeStartNodes
  rw [if_pos given]
  simp only [ended]
  have below : ¬ maxIterations ≤ after.iteration := by
    rw [iterations, counted, not_le]
    exact (Nat.zero_add _).trans_lt few
  rw [if_neg below, collectFinalOutput_of_nothing executor outputs, runtime.display_empty]
  refine ⟨_, _, rfl, ?_⟩
  rw [State.busFlush_core]
  exact unexecuted

/-!
## Launches
-/

/-- The start nodes that the request names, or else those of the Run button. -/
def LaunchRequest.startNodes (request : LaunchRequest) (snapshot : Snapshot) : List String :=
  if request.startNodeIds ≠ [] then request.startNodeIds
  else if request.executionMode = "manual" then findManualStartNodes snapshot
  else []

/-- The launch starts from nodes that are all disabled, and from fewer of them
than the loop has iterations. -/
def LaunchRequest.StartsDisabled (request : LaunchRequest) (published : Option Snapshot) : Prop :=
  ∃ snapshot, published = some snapshot ∧ request.startNodes snapshot ≠ [] ∧
    (∀ nodeId ∈ request.startNodes snapshot, snapshot.isNodeDisabled nodeId = true) ∧
    (request.startNodes snapshot).length < maxIterations

/-- Some node was executed, and so was each start node that is enabled. -/
def LaunchedRun.DidWork (launched : LaunchedRun World) : Prop :=
  launched.state.executedOrder ≠ [] ∧
    ∀ nodeId ∈ launched.startNodeIds, launched.snapshot.isNodeDisabled nodeId = false →
      nodeId ∈ launched.state.executedOrder

theorem disabled_mem_nodes {snapshot : Snapshot} {nodeId : String}
    (disabled : snapshot.isNodeDisabled nodeId = true) :
    nodeId ∈ snapshot.nodes.map Node.id := by
  unfold Snapshot.isNodeDisabled at disabled
  split at disabled
  · cases disabled
  · next node found =>
      obtain ⟨member, rfl⟩ := Snapshot.mem_of_nodesById found
      exact List.mem_map_of_mem member

theorem findStartNodes_enabled {snapshot : Snapshot} {startNodes : List String}
    (found : snapshot.findStartNodes = .ok startNodes) :
    startNodes ≠ [] ∧ ∀ nodeId ∈ startNodes, snapshot.isNodeDisabled nodeId = false := by
  unfold Snapshot.findStartNodes at found
  dsimp only at found
  split at found
  · split at found
    · cases found
    · cases found
  · next some =>
      cases found
      constructor
      · exact some
      · intro nodeId member
        simpa using (List.mem_filter.mp member).2

theorem selectStartNodes_ok {request : LaunchRequest} {snapshot : Snapshot}
    {startNodeIds : List String}
    (selects : request.selectStartNodes snapshot = .ok startNodeIds) :
    startNodeIds = request.startNodes snapshot := by
  unfold LaunchRequest.selectStartNodes at selects
  unfold LaunchRequest.startNodes
  split at selects
  · next named =>
      cases selects
      rw [if_pos named]
  · next unnamed =>
      rw [if_neg unnamed]
      split at selects
      · next manual =>
          cases selects
          rw [if_pos manual]
      · cases selects

theorem validateStartNodeIds_ok {snapshot : Snapshot} {given validated : List String}
    (validates : validateStartNodeIds snapshot given = .ok validated) : validated = given := by
  unfold validateStartNodeIds at validates
  split at validates
  · cases validates
  · cases validates
    rfl

theorem prepareLaunch_ok {published : Option Snapshot} {request : LaunchRequest}
    {pending : PendingRun} (prepares : prepareLaunch published request = .ok pending) :
    published = some pending.snapshot ∧
      pending.startNodeIds = request.startNodes pending.snapshot := by
  unfold prepareLaunch prepareSnapshot at prepares
  cases published with
  | none => cases prepares
  | some snapshot =>
      dsimp only at prepares
      split at prepares
      · cases prepares
      · next shown prepared =>
          split at prepared
          · cases prepared
          · cases prepared
            split at prepares
            · cases prepares
            · next startNodeIds selects =>
                cases prepares
                cases selected : request.selectStartNodes snapshot with
                | error error =>
                    rw [selected] at selects
                    cases selects
                | ok given =>
                    rw [selected] at selects
                    exact ⟨rfl, (validateStartNodeIds_ok selects).trans
                      (selectStartNodes_ok selected)⟩

/-- Disabled start nodes are nodes of the snapshot, so the launch is accepted. -/
theorem prepareLaunch_of_disabled {snapshot : Snapshot} {request : LaunchRequest}
    (selected : request.startNodes snapshot ≠ [])
    (disabled : ∀ nodeId ∈ request.startNodes snapshot, snapshot.isNodeDisabled nodeId = true) :
    ∃ pending, prepareLaunch (some snapshot) request = .ok pending ∧
      pending.snapshot = snapshot ∧ pending.startNodeIds = request.startNodes snapshot := by
  have selects : request.selectStartNodes snapshot = .ok (request.startNodes snapshot) := by
    unfold LaunchRequest.startNodes at selected ⊢
    unfold LaunchRequest.selectStartNodes
    split
    · rfl
    · next unnamed =>
        rw [if_neg unnamed] at selected
        split
        · rfl
        · next automated =>
            rw [if_neg automated] at selected
            exact absurd rfl selected
  have validates : validateStartNodeIds snapshot (request.startNodes snapshot) =
      .ok (request.startNodes snapshot) := by
    have known : (request.startNodes snapshot).find?
        (fun nodeId => decide (nodeId ∉ snapshot.nodes.map Node.id)) = none := by
      rw [List.find?_eq_none]
      intro nodeId member
      simpa using disabled_mem_nodes (disabled nodeId member)
    unfold validateStartNodeIds
    rw [known]
  have nodes : snapshot.nodes ≠ [] := by
    obtain ⟨nodeId, member⟩ := List.exists_mem_of_ne_nil _ selected
    obtain ⟨node, listed, _⟩ := List.mem_map.mp (disabled_mem_nodes (disabled nodeId member))
    exact List.ne_nil_of_mem listed
  unfold prepareLaunch prepareSnapshot
  simp only [nodes, ↓reduceIte, selects, Except.bind, validates]
  exact ⟨_, rfl, rfl, rfl⟩

theorem runPending_completed {runtime : Runtime World} {sockets : String → List String}
    {world : World} {runId : Nat} {notify : Bool} {pending : PendingRun}
    (completed : (runPending runtime sockets world runId notify pending).status = .completed) :
    ∃ state output, execute (initExecution sockets runId notify pending) runtime world
        pending.inputData pending.startNodeIds = (state, .ok output) ∧
      (runPending runtime sockets world runId notify pending).state = state ∧
      (runPending runtime sockets world runId notify pending).toPendingRun = pending := by
  unfold runPending at completed ⊢
  split at completed
  · next state output returns => exact ⟨state, output, returns, rfl, rfl⟩
  · cases completed

theorem runPending_of_ok {runtime : Runtime World} {sockets : String → List String}
    {world : World} {runId : Nat} {notify : Bool} {pending : PendingRun} {state : State World}
    {output : Value} (returns : execute (initExecution sockets runId notify pending) runtime world
        pending.inputData pending.startNodeIds = (state, .ok output)) :
    (runPending runtime sockets world runId notify pending).status = .completed ∧
      (runPending runtime sockets world runId notify pending).state = state := by
  unfold runPending
  rw [returns]
  exact ⟨rfl, rfl⟩

section Launches

variable (runtime : Runtime World) (sockets : String → List String)

/-- A run that completes has done some work, unless its start nodes are given
and all disabled. -/
theorem runPending_didWork {world : World} {runId : Nat} {notify : Bool} {pending : PendingRun}
    (completed : (runPending runtime sockets world runId notify pending).status = .completed)
    (enabled : pending.startNodeIds ≠ [] →
      (∀ nodeId ∈ pending.startNodeIds, pending.snapshot.isNodeDisabled nodeId = true) →
      maxIterations ≤ pending.startNodeIds.length) :
    (runPending runtime sockets world runId notify pending).DidWork := by
  obtain ⟨state, output, returns, settled, same⟩ := runPending_completed completed
  obtain ⟨startNodes, before, found, head, empty, few, order⟩ := execute_ok returns
  unfold LaunchedRun.DidWork
  rw [settled, same, order]
  constructor
  · intro nothing
    obtain ⟨disabled, iterations⟩ := head.nothing_executed empty nothing
    unfold executeStartNodes at found
    split at found
    · next given =>
        cases found
        have many := enabled given disabled
        omega
    · obtain ⟨some, allEnabled⟩ := findStartNodes_enabled found
      obtain ⟨nodeId, member⟩ := List.exists_mem_of_ne_nil _ some
      exact absurd ((disabled nodeId member).symm.trans (allEnabled nodeId member)) (by decide)
  · intro nodeId selected able
    have given := List.ne_nil_of_mem selected
    unfold executeStartNodes at found
    rw [if_pos given] at found
    cases found
    exact head.start_executed empty selected able

/-- A launch that completes has done some work, and executed its enabled start
nodes, unless it starts from disabled nodes only. -/
theorem completed_launch_didWork_iff (world : World) (runId : Nat) (published : Option Snapshot)
    (request : LaunchRequest) :
    (∀ launched, launch runtime sockets world runId published request = .ok launched →
      launched.status = .completed → launched.DidWork) ↔
    ¬ request.StartsDisabled published := by
  constructor
  · intro works starts
    obtain ⟨snapshot, shown, selected, disabled, few⟩ := starts
    obtain ⟨pending, prepares, same, given⟩ := prepareLaunch_of_disabled selected disabled
    subst same
    rw [← given] at selected disabled few
    have prepared : launch runtime sockets world runId published request =
        .ok (runPending runtime sockets world runId request.notifyUser pending) := by
      unfold launch
      rw [shown, prepares]
    obtain ⟨state, output, returns, nothing⟩ := execute_skips
      (initExecution sockets runId request.notifyUser pending) runtime world
      pending.inputData selected disabled few
    obtain ⟨completed, settled⟩ := runPending_of_ok returns
    have worked := (works _ prepared completed).1
    rw [settled] at worked
    exact worked nothing
  · intro starts launched launches completed
    unfold launch at launches
    split at launches
    · cases launches
    · next pending prepares =>
        cases launches
        obtain ⟨shown, selected⟩ := prepareLaunch_ok prepares
        refine runPending_didWork runtime sockets completed ?_
        intro given disabled
        by_contra few
        rw [not_le] at few
        rw [selected] at given disabled few
        exact starts ⟨pending.snapshot, shown, given, disabled, few⟩

end Launches

/-- One node, a disabled manual trigger. -/
def disabledTrigger : Snapshot where
  nodes := [⟨"n_1", "manual_trigger", none, [("disabled", .bool true)], []⟩]
  connections := []

/-- The Run button on a workflow whose manual trigger is disabled completes a run
in which nothing was executed. -/
theorem disabled_trigger_completes :
    ∃ launched, launch echoRuntime (fun _ => ["result"]) () 1 (some disabledTrigger)
        { inputData := .dict [], executionMode := "manual", startNodeIds := [], notifyUser := false } =
          .ok launched ∧
      launched.status = .completed ∧ ¬ launched.DidWork := by
  refine ⟨_, rfl, by decide, ?_⟩
  intro worked
  exact worked.1 (by decide)

end WorkflowStudio.Executor
