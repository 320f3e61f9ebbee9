import WorkflowStudio.Executor.ConservationProperties
import WorkflowStudio.Progress.MergeProperties

/-! When the editor shows no node as running after the end of a run. A flush in
the middle of a run announces the top of the stack, which may be skipped as
disabled or may never be popped; what was announced then stays running. -/

set_option autoImplicit false

namespace WorkflowStudio.Progress

open Lib Executor

/-!
## Messages of one run
-/

/-- A store before the first message of a run: it shows nothing, or a fresh
progress that knows no run yet or knows this one. -/
inductive FreshFor (runId : Option Nat) : Option ExecutionProgress → Prop where
  | nothing : FreshFor runId none
  | unknown : FreshFor runId (some (createFreshProgress none))
  | known : FreshFor runId (some (createFreshProgress runId))

theorem isOtherRun_self (runId : Option Nat) : isOtherRun runId runId = false := by
  unfold isOtherRun
  cases knownRun runId <;> simp

theorem FreshFor.fields {runId : Option Nat} {current : Option ExecutionProgress}
    (fresh : FreshFor runId current) :
    isOtherRun (current.getD (createFreshProgress runId)).runId runId = false ∧
      ∀ nodeId, (current.getD (createFreshProgress runId)).statusOf nodeId = none := by
  cases fresh with
  | nothing => exact ⟨isOtherRun_self runId, fun _ => rfl⟩
  | unknown => exact ⟨rfl, fun _ => rfl⟩
  | known => exact ⟨isOtherRun_self runId, fun _ => rfl⟩

/-- Messages of the run that is shown are all merged. -/
theorem receive_eq {runId : Option Nat} {current : Option ExecutionProgress}
    {messages : List BusMessage}
    (accepted : isOtherRun (current.getD (createFreshProgress runId)).runId runId = false)
    (own : ∀ message ∈ messages, message.runId = runId) :
    (receive current messages).getD (createFreshProgress runId) =
      messages.foldl ExecutionProgress.merge (current.getD (createFreshProgress runId)) := by
  induction messages generalizing current with
  | nil => rfl
  | cons message rest ih =>
      have mine := own message List.mem_cons_self
      have merged : onExecutionProgress current message =
          some ((current.getD (createFreshProgress runId)).merge message) := by
        unfold onExecutionProgress
        simp only [mine, accepted, Bool.false_eq_true, ↓reduceIte]
      have next := @ih (onExecutionProgress current message) (by
        rw [merged, Option.getD_some, (ExecutionProgress.merge_frame _ message).1]
        exact accepted) fun later member => own later (List.mem_cons_of_mem _ member)
      rw [merged] at next
      simpa only [receive, List.foldl_cons, merged, Option.getD_some] using next

/-!
## What a pass puts on the bus
-/

def statusOfOutcome : Except String NodeOutput → NodeStatus
  | .ok _ => .success
  | .error _ => .error

/-- The status of the last execution of a node. -/
def lastStatus (executions : List Execution) (nodeId : String) : Option ShownStatus :=
  (executions.reverse.find? fun execution => execution.entry.nodeId == nodeId).map fun execution =>
    shownOf (statusOfOutcome execution.outcome)

theorem lastStatus_concat (executions : List Execution) (execution : Execution)
    (nodeId : String) :
    lastStatus (executions ++ [execution]) nodeId =
      if execution.entry.nodeId = nodeId then some (shownOf (statusOfOutcome execution.outcome))
      else lastStatus executions nodeId := by
  unfold lastStatus
  by_cases same : execution.entry.nodeId = nodeId <;>
    simp [List.reverse_append, same]

theorem shownOf_ne_running (status : NodeStatus) : shownOf status ≠ .running := by
  cases status <;> simp [shownOf]

theorem lastStatus_ne_running (executions : List Execution) (nodeId : String) :
    lastStatus executions nodeId ≠ some .running := by
  unfold lastStatus
  cases executions.reverse.find? fun execution => execution.entry.nodeId == nodeId with
  | none => simp
  | some execution => simp [shownOf_ne_running]

theorem lastStatus_of_mem {executions : List Execution} {execution : Execution}
    (member : execution ∈ executions) :
    lastStatus executions execution.entry.nodeId ≠ none := by
  unfold lastStatus
  have found : (executions.reverse.find? fun other =>
      other.entry.nodeId == execution.entry.nodeId).isSome := by
    rw [List.find?_isSome]
    exact ⟨execution, List.mem_reverse.mpr member, by simp⟩
  obtain ⟨other, selected⟩ := Option.isSome_iff_exists.mp found
  simp [selected]

section Runs

variable {World : Type} {executor : WorkflowExecutor} {runtime : Runtime World}

/-- The message in which a batch is flushed. -/
structure Flushed (executor : WorkflowExecutor) (nodes : List BusNode) (next : Option String)
    (final : Bool) (message : BusMessage) : Prop where
  own : message.runId = executor.run.map Run.id
  nodes : message.completedNodes = nodes
  next : message.nextRunningNodeId = next
  final : message.report.isSome = final

theorem busFlush_sent (notify : executor.notify = true) (state : State World)
    (next : Option String) (finalStatus : Option FinalStatus)
    (due : state.bus.pendingBatch ≠ [] ∨ finalStatus.isSome) :
    (state.busFlush executor next finalStatus).bus.pendingBatch = [] ∧
      ∃ message, (state.busFlush executor next finalStatus).bus.sent =
          state.bus.sent ++ [message] ∧
        Flushed executor state.bus.pendingBatch next finalStatus.isSome message := by
  unfold State.busFlush
  have sends : ¬ (executor.notify = false ∨
      (state.bus.pendingBatch = [] ∧ finalStatus = none)) := by
    rintro (silent | ⟨empty, running⟩)
    · rw [notify] at silent
      cases silent
    · rcases due with pending | final
      · exact pending empty
      · rw [running] at final
        cases final
  rw [if_neg sends]
  refine ⟨rfl, _, rfl, rfl, rfl, rfl, ?_⟩
  simp

variable (runtime) in
theorem busTick_cases (notify : executor.notify = true) {state : State World}
    (pending : state.bus.pendingBatch ≠ []) :
    (runtime.busShouldFlush state.side.world = false ∧ state.busTick executor runtime = state) ∨
      runtime.busShouldFlush state.side.world = true ∧
        (state.busTick executor runtime).bus.pendingBatch = [] ∧
        ∃ message, (state.busTick executor runtime).bus.sent = state.bus.sent ++ [message] ∧
          Flushed executor state.bus.pendingBatch (state.stack.head?.map StackEntry.nodeId) false
            message := by
  unfold State.busTick
  cases due : runtime.busShouldFlush state.side.world with
  | true =>
      rw [if_pos ⟨notify, pending, rfl⟩]
      exact .inr ⟨rfl, busFlush_sent notify state _ none (.inl pending)⟩
  | false => exact .inl ⟨rfl, if_neg (by simp)⟩

/-- The node that a pass adds to the batch. -/
def Batched (entry : StackEntry) (outcome : Except String NodeOutput) (node : BusNode) : Prop :=
  node.nodeId = entry.nodeId ∧ node.status = statusOfOutcome outcome

/-- The three ends of a pass over a popped entry: a disabled node leaves the
bus alone, an executed one is added to the batch, which is then kept or
flushed, and one that raised is flushed with the final status. -/
inductive PassEnd (executor : WorkflowExecutor) (runtime : Runtime World)
    (state : State World) (entry : StackEntry) : State World → Option String → Prop where
  | skipped {after : State World} :
      executor.snapshot.isNodeDisabled entry.nodeId = true → after.bus = state.bus →
      after.executions = state.executions → PassEnd executor runtime state entry after none
  | kept {after : State World} {outcome : Except String NodeOutput} {node : BusNode} :
      executor.snapshot.isNodeDisabled entry.nodeId = false → Batched entry outcome node →
      after.executions = state.executions ++ [⟨entry, outcome⟩] →
      runtime.busShouldFlush after.side.world = false → after.bus.sent = state.bus.sent →
      after.bus.pendingBatch = state.bus.pendingBatch ++ [node] →
      PassEnd executor runtime state entry after none
  | flushed {after : State World} {outcome : Except String NodeOutput} {node : BusNode}
      {message : BusMessage} :
      executor.snapshot.isNodeDisabled entry.nodeId = false → Batched entry outcome node →
      after.executions = state.executions ++ [⟨entry, outcome⟩] →
      runtime.busShouldFlush after.side.world = true →
      after.bus.sent = state.bus.sent ++ [message] → after.bus.pendingBatch = [] →
      Flushed executor (state.bus.pendingBatch ++ [node])
        (after.stack.head?.map StackEntry.nodeId) false message →
      PassEnd executor runtime state entry after none
  | raised {after : State World} {outcome : Except String NodeOutput} {node : BusNode}
      {message : BusMessage} {error : String} :
      executor.snapshot.isNodeDisabled entry.nodeId = false → Batched entry outcome node →
      after.executions = state.executions ++ [⟨entry, outcome⟩] →
      after.bus.sent = state.bus.sent ++ [message] → after.bus.pendingBatch = [] →
      Flushed executor (state.bus.pendingBatch ++ [node]) none true message →
      PassEnd executor runtime state entry after (some error)

theorem busAppend_pending (notify : executor.notify = true) (bus : Bus) (nodeId : String)
    (status : NodeStatus) (routed : List ConnectionEvent) :
    ∃ node : BusNode, node.nodeId = nodeId ∧ node.status = status ∧
      (busAppend executor bus nodeId status routed).pendingBatch = bus.pendingBatch ++ [node] ∧
      (busAppend executor bus nodeId status routed).sent = bus.sent := by
  unfold busAppend
  rw [if_pos notify]
  exact ⟨_, rfl, rfl, rfl, rfl⟩

theorem busTick_end (notify : executor.notify = true) {state recorded : State World}
    {entry : StackEntry} {outcome : Except String NodeOutput} {node : BusNode}
    (active : executor.snapshot.isNodeDisabled entry.nodeId = false)
    (batched : Batched entry outcome node)
    (executions : recorded.executions = state.executions ++ [⟨entry, outcome⟩])
    (sent : recorded.bus.sent = state.bus.sent)
    (pending : recorded.bus.pendingBatch = state.bus.pendingBatch ++ [node]) :
    PassEnd executor runtime state entry (recorded.busTick executor runtime) none := by
  have nonempty : recorded.bus.pendingBatch ≠ [] := by
    rw [pending]
    simp
  have core : recorded.busTick executor runtime =
      { recorded with bus := (recorded.busTick executor runtime).bus } := recorded.busTick_core
  rcases busTick_cases runtime notify nonempty with
    ⟨early, unchanged⟩ | ⟨due, cleared, message, delivered, flushed⟩
  · rw [unchanged]
    exact .kept active batched executions early sent pending
  · rw [sent] at delivered
    rw [pending] at flushed
    refine .flushed active batched ?_ ?_ delivered cleared ?_
    · rw [core]
      exact executions
    · rw [core]
      exact due
    · rw [core]
      exact flushed

theorem executeBody_end (notify : executor.notify = true) {state after : State World}
    {entry : StackEntry} {rest : List StackEntry} {raised : Option String}
    (passed : executeBody executor runtime state entry rest = (after, raised)) :
    PassEnd executor runtime state entry after raised ∧
      after.iteration = state.iteration + 1 := by
  unfold executeBody at passed
  dsimp only at passed
  split at passed
  · next disabled =>
      cases passed
      exact ⟨.skipped disabled rfl rfl, rfl⟩
  · next enabled =>
      have active : executor.snapshot.isNodeDisabled entry.nodeId = false := by simpa using enabled
      split at passed
      · next side error ran =>
          obtain ⟨node, own, status, pending, sent⟩ :=
            busAppend_pending notify state.bus entry.nodeId .error []
          have batched : Batched entry (.error error) node := ⟨own, status⟩
          cases passed
          obtain ⟨cleared, message, delivered, flushed⟩ := busFlush_sent notify
            ({ (state.popped rest).record side entry (.error error) with
              lastErrorNodeId := some entry.nodeId
              bus := busAppend executor state.bus entry.nodeId .error [] } : State World)
            none (some (.failed error)) (.inr rfl)
          rw [pending] at flushed
          rw [sent] at delivered
          refine ⟨.raised active batched ?_ delivered cleared flushed, ?_⟩ <;>
            rw [State.busFlush_core] <;> rfl
      · next side result ran =>
          obtain ⟨node, own, status, pending, sent⟩ := busAppend_pending notify state.bus
            entry.nodeId .success (routeOutputs executor entry result rest
              state.executedConnections).routedConnections
          have batched : Batched entry (.ok result) node := ⟨own, status⟩
          cases passed
          refine ⟨busTick_end notify active batched rfl sent pending, ?_⟩
          rw [State.busTick_core]
          rfl

/-!
## The end of the loop
-/

/-- A node raised in a pass that left this state. -/
def RaisedIn (executor : WorkflowExecutor) (runtime : Runtime World)
    (started after : State World) : Prop :=
  ∃ state entry rest error, LoopHead executor runtime started state ∧
    state.stack = entry :: rest ∧ state.iteration < maxIterations ∧
    executeBody executor runtime state entry rest = (after, some error)

theorem executeLoop_stops (notify : executor.notify = true) {started state : State World}
    (head : LoopHead executor runtime started state) {remaining : Nat}
    (counted : state.iteration + remaining = maxIterations) :
    (LoopHead executor runtime started (executeLoop executor runtime remaining state).1 ∧
      ((executeLoop executor runtime remaining state).1.stack = [] ∨
        maxIterations ≤ (executeLoop executor runtime remaining state).1.iteration)) ∨
    RaisedIn executor runtime started (executeLoop executor runtime remaining state).1 := by
  induction remaining generalizing state with
  | zero => exact .inl ⟨head, .inr (by simp only [executeLoop]; omega)⟩
  | succ remaining ih =>
      unfold executeLoop
      cases top : state.stack with
      | nil => exact .inl ⟨head, .inl top⟩
      | cons entry rest =>
          have within : state.iteration < maxIterations := by omega
          cases passed : executeBody executor runtime state entry rest with
          | mk after raised =>
              simp only [passed]
              cases raised with
              | some error => exact .inr ⟨state, entry, rest, error, head, top, within, passed⟩
              | none =>
                  have next := (executeBody_end notify passed).2
                  exact ih (.next head top within passed) (by omega)

/-- The loop can be resumed at every head it passes. -/
theorem executeLoop_resume (notify : executor.notify = true) {started state : State World}
    (fresh : started.iteration = 0) (head : LoopHead executor runtime started state) :
    executeLoop executor runtime maxIterations started =
      executeLoop executor runtime (maxIterations - state.iteration) state := by
  induction head with
  | enter => rw [fresh, Nat.sub_zero]
  | @next state after entry rest _ top within passed ih =>
      have next := (executeBody_end notify passed).2
      have left : maxIterations - state.iteration = (maxIterations - after.iteration) + 1 := by omega
      rw [ih, left]
      simp only [executeLoop, top, passed]

variable (executor runtime) in
/-- The state in which the loop stops, before the final flush. -/
def stoppedAt (world : World) (inputData : Value) (startNodeIds : List String) : State World :=
  match executeStartNodes executor startNodeIds with
  | .error _ => State.initial world
  | .ok startNodes => (executeLoop executor runtime maxIterations
      ((State.initial world).pushStartNodes startNodes (launchInput inputData))).1

variable (executor runtime) in
/-- Every run ends with a flush that carries a final status. -/
theorem execute_flushes (notify : executor.notify = true) (world : World) (inputData : Value)
    (startNodeIds : List String) :
    (execute executor runtime world inputData startNodeIds).1.executions =
        (stoppedAt executor runtime world inputData startNodeIds).executions ∧
      ∃ message, (execute executor runtime world inputData startNodeIds).1.bus.sent =
          (stoppedAt executor runtime world inputData startNodeIds).bus.sent ++ [message] ∧
        Flushed executor
          (stoppedAt executor runtime world inputData startNodeIds).bus.pendingBatch none true
          message := by
  have flushes : ∀ (state : State World) (status : FinalStatus),
      (state.busFlush executor none (some status)).executions = state.executions ∧
        ∃ message, (state.busFlush executor none (some status)).bus.sent =
            state.bus.sent ++ [message] ∧
          Flushed executor state.bus.pendingBatch none true message := by
    intro state status
    refine ⟨?_, (busFlush_sent notify state none (some status) (.inr rfl)).2⟩
    rw [State.busFlush_core]
  unfold execute stoppedAt
  cases executeStartNodes executor startNodeIds with
  | error error => exact flushes _ _
  | ok startNodes =>
      cases looped : executeLoop executor runtime maxIterations
          ((State.initial world).pushStartNodes startNodes (launchInput inputData)) with
      | mk stopped raised =>
          simp only [looped]
          cases raised with
          | some error => exact flushes _ _
          | none =>
              by_cases capped : maxIterations ≤ stopped.iteration
              · simp only [capped, ↓reduceIte]
                exact flushes _ _
              · simp only [capped, ↓reduceIte]
                cases runtime.display (collectFinalOutput executor stopped) with
                | error error => exact flushes _ _
                | ok output => exact flushes _ _

/-!
## What the store has caught up with
-/

/-- The progress after the messages sent so far and the nodes still in the batch. -/
def caughtUp (base : ExecutionProgress) (bus : Bus) : ExecutionProgress :=
  bus.pendingBatch.foldl ExecutionProgress.completeNode
    (bus.sent.foldl ExecutionProgress.merge base)

theorem caughtUp_batched {base : ExecutionProgress} {bus after : Bus} {entry : StackEntry}
    {outcome : Except String NodeOutput} {node : BusNode} (batched : Batched entry outcome node)
    (sent : after.sent = bus.sent) (pending : after.pendingBatch = bus.pendingBatch ++ [node])
    (nodeId : String) :
    (caughtUp base after).statusOf nodeId =
      if entry.nodeId = nodeId ∧ isShown nodeId then some (shownOf (statusOfOutcome outcome))
      else (caughtUp base bus).statusOf nodeId := by
  obtain ⟨own, status⟩ := batched
  unfold caughtUp
  rw [sent, pending, List.foldl_append, List.foldl_cons, List.foldl_nil,
    ExecutionProgress.completeNode_status, own, status]

theorem sent_flushed (base : ExecutionProgress) {nodes : List BusNode} {next : Option String}
    {final : Bool} {message : BusMessage} (flushed : Flushed executor nodes next final message)
    (sent : List BusMessage) (nodeId : String) :
    ((sent ++ [message]).foldl ExecutionProgress.merge base).statusOf nodeId =
      if next = some nodeId ∧ isShown nodeId then some .running
      else (nodes.foldl ExecutionProgress.completeNode
        (sent.foldl ExecutionProgress.merge base)).statusOf nodeId := by
  rw [List.foldl_append, List.foldl_cons, List.foldl_nil, ExecutionProgress.merge_status,
    flushed.next, flushed.nodes]

theorem caughtUp_flushed (base : ExecutionProgress) {bus after : Bus} {entry : StackEntry}
    {outcome : Except String NodeOutput} {node : BusNode} {next : Option String} {final : Bool}
    {message : BusMessage} (batched : Batched entry outcome node)
    (sent : after.sent = bus.sent ++ [message]) (cleared : after.pendingBatch = [])
    (flushed : Flushed executor (bus.pendingBatch ++ [node]) next final message)
    (nodeId : String) :
    (caughtUp base after).statusOf nodeId =
      if next = some nodeId ∧ isShown nodeId then some .running
      else if entry.nodeId = nodeId ∧ isShown nodeId then
        some (shownOf (statusOfOutcome outcome))
      else (caughtUp base bus).statusOf nodeId := by
  have batch := @caughtUp_batched base bus ⟨bus.pendingBatch ++ [node], [], bus.sent⟩
    entry outcome node batched rfl rfl nodeId
  have delivered := sent_flushed base flushed bus.sent nodeId
  unfold caughtUp at batch ⊢
  rw [sent, cleared, List.foldl_nil, delivered, batch]

/-- What a pass does to the status under which a node is caught up with. -/
theorem PassEnd.status {state after : State World} {entry : StackEntry} {raised : Option String}
    (passEnd : PassEnd executor runtime state entry after raised) (base : ExecutionProgress)
    (nodeId : String) :
    (executor.snapshot.isNodeDisabled entry.nodeId = true ∧
      after.executions = state.executions ∧
      (caughtUp base after.bus).statusOf nodeId = (caughtUp base state.bus).statusOf nodeId) ∨
    ∃ outcome, executor.snapshot.isNodeDisabled entry.nodeId = false ∧
      after.executions = state.executions ++ [⟨entry, outcome⟩] ∧
      ((caughtUp base after.bus).statusOf nodeId =
          (if entry.nodeId = nodeId ∧ isShown nodeId then some (shownOf (statusOfOutcome outcome))
          else (caughtUp base state.bus).statusOf nodeId) ∨
        raised = none ∧ runtime.busShouldFlush after.side.world = true ∧
          after.stack.head?.map StackEntry.nodeId = some nodeId ∧ isShown nodeId ∧
          (caughtUp base after.bus).statusOf nodeId = some .running) := by
  cases passEnd with
  | skipped disabled bus executions =>
      refine .inl ⟨disabled, executions, ?_⟩
      rw [bus]
  | kept active batched executions _ sent pending =>
      exact .inr ⟨_, active, executions, .inl (caughtUp_batched batched sent pending nodeId)⟩
  | @flushed outcome _ _ active batched executions due sent cleared flushed =>
      have shown := caughtUp_flushed base batched sent cleared flushed nodeId
      refine .inr ⟨outcome, active, executions, ?_⟩
      by_cases announced : after.stack.head?.map StackEntry.nodeId = some nodeId ∧ isShown nodeId
      · rw [if_pos announced] at shown
        exact .inr ⟨rfl, due, announced.1, announced.2, shown⟩
      · rw [if_neg announced] at shown
        exact .inl shown
  | @raised outcome _ _ _ active batched executions sent cleared flushed =>
      have shown := caughtUp_flushed base batched sent cleared flushed nodeId
      rw [if_neg (by simp)] at shown
      exact .inr ⟨outcome, active, executions, .inl shown⟩

/-- The node is the next that the loop executes. -/
def Awaited (executor : WorkflowExecutor) (state : State World) (nodeId : String) : Prop :=
  ∃ entry rest, state.stack = entry :: rest ∧ entry.nodeId = nodeId ∧
    executor.snapshot.isNodeDisabled nodeId = false ∧ state.iteration < maxIterations

/-- Every executed node can be shown, and a flush in the middle of the run
announces only a node that is executed next. -/
structure RunAnnounced (executor : WorkflowExecutor) (runtime : Runtime World)
    (started : State World) : Prop where
  named : ∀ state entry rest, LoopHead executor runtime started state →
    state.stack = entry :: rest → state.iteration < maxIterations →
    executor.snapshot.isNodeDisabled entry.nodeId = false → isShown entry.nodeId
  announced : ∀ state entry rest after next waiting, LoopHead executor runtime started state →
    state.stack = entry :: rest → state.iteration < maxIterations →
    executor.snapshot.isNodeDisabled entry.nodeId = false →
    executeBody executor runtime state entry rest = (after, none) →
    runtime.busShouldFlush after.side.world = true → after.stack = next :: waiting →
    isShown next.nodeId → Awaited executor after next.nodeId

theorem PassEnd.exact {base : ExecutionProgress} {started state after : State World}
    {entry : StackEntry} {rest : List StackEntry} {raised : Option String}
    (run : RunAnnounced executor runtime started)
    (head : LoopHead executor runtime started state) (top : state.stack = entry :: rest)
    (within : state.iteration < maxIterations)
    (passed : executeBody executor runtime state entry rest = (after, raised))
    (passEnd : PassEnd executor runtime state entry after raised)
    (before : ∀ nodeId, (caughtUp base state.bus).statusOf nodeId =
      lastStatus state.executions nodeId ∨ Awaited executor state nodeId) (nodeId : String) :
    (caughtUp base after.bus).statusOf nodeId = lastStatus after.executions nodeId ∨
      raised = none ∧ Awaited executor after nodeId := by
  -- what was announced before the pass is the entry that it pops
  have popped : Awaited executor state nodeId → entry.nodeId = nodeId ∧
      executor.snapshot.isNodeDisabled nodeId = false := by
    rintro ⟨first, _, stacked, same, active, _⟩
    rw [top] at stacked
    cases stacked
    exact ⟨same, active⟩
  rcases passEnd.status base nodeId with ⟨disabled, executions, shown⟩ |
      ⟨outcome, active, executions, shown | ⟨rfl, due, announced, visible, _⟩⟩
  · rcases before nodeId with same | awaited
    · rw [shown, executions]
      exact .inl same
    · obtain ⟨rfl, active⟩ := popped awaited
      rw [disabled] at active
      cases active
  · refine .inl ?_
    rw [shown, executions, lastStatus_concat]
    by_cases own : entry.nodeId = nodeId
    · have visible := run.named state entry rest head top within active
      rw [if_pos ⟨own, own ▸ visible⟩, if_pos own]
    · rw [if_neg (fun both => own both.1), if_neg own]
      rcases before nodeId with same | awaited
      · exact same
      · exact absurd (popped awaited).1 own
  · cases stacked : after.stack with
    | nil =>
        rw [stacked] at announced
        cases announced
    | cons next waiting =>
        rw [stacked] at announced
        cases announced
        exact .inr ⟨rfl, run.announced state entry rest after next waiting head top within active
          passed due stacked visible⟩

theorem loopHead_exact (notify : executor.notify = true) {base : ExecutionProgress}
    {started state : State World} (run : RunAnnounced executor runtime started)
    (fresh : ∀ nodeId, (caughtUp base started.bus).statusOf nodeId =
      lastStatus started.executions nodeId)
    (head : LoopHead executor runtime started state) (nodeId : String) :
    (caughtUp base state.bus).statusOf nodeId = lastStatus state.executions nodeId ∨
      Awaited executor state nodeId := by
  induction head generalizing nodeId with
  | enter => exact .inl (fresh nodeId)
  | next before top within passed ih =>
      rcases (executeBody_end notify passed).1.exact run before top within passed ih nodeId with
        same | ⟨_, awaited⟩
      · exact .inl same
      · exact .inr awaited

/-- What a pass sends is of the run, and it is final just when the pass raised. -/
theorem PassEnd.sent {state after : State World} {entry : StackEntry} {raised : Option String}
    (passEnd : PassEnd executor runtime state entry after raised) :
    after.bus.sent = state.bus.sent ∨
      ∃ message, after.bus.sent = state.bus.sent ++ [message] ∧
        message.runId = executor.run.map Run.id ∧ message.report.isSome = raised.isSome := by
  cases passEnd with
  | skipped _ bus _ => exact .inl (by rw [bus])
  | kept _ _ _ _ sent _ => exact .inl sent
  | flushed _ _ _ _ sent _ flushed => exact .inr ⟨_, sent, flushed.own, flushed.final⟩
  | raised _ _ _ sent _ flushed => exact .inr ⟨_, sent, flushed.own, flushed.final⟩

theorem loopHead_unfinished (notify : executor.notify = true) {started state : State World}
    (silent : started.bus.sent = []) (head : LoopHead executor runtime started state) :
    ∀ message ∈ state.bus.sent, message.report.isSome = false := by
  induction head with
  | enter =>
      rw [silent]
      exact fun _ member => nomatch member
  | next _ _ _ passed ih =>
      intro message member
      rcases (executeBody_end notify passed).1.sent with same | ⟨added, sent, _, unfinished⟩
      · rw [same] at member
        exact ih message member
      · rw [sent] at member
        rcases List.mem_append.mp member with old | new
        · exact ih message old
        · obtain rfl := List.mem_singleton.mp new
          exact unfinished

variable (runtime) in
theorem stoppedAt_own (notify : executor.notify = true) (world : World) (inputData : Value)
    (startNodeIds : List String) :
    ∀ message ∈ (stoppedAt executor runtime world inputData startNodeIds).bus.sent,
      message.runId = executor.run.map Run.id := by
  unfold stoppedAt
  cases executeStartNodes executor startNodeIds with
  | error _ => exact fun _ member => nomatch member
  | ok startNodes =>
      refine executeLoop_invariant (fun state => ∀ message ∈ state.bus.sent,
        message.runId = executor.run.map Run.id) ?_ maxIterations fun _ member => nomatch member
      intro state entry rest after raised held _ passed message member
      rcases (executeBody_end notify passed).1.sent with same | ⟨added, sent, own, _⟩
      · rw [same] at member
        exact held message member
      · rw [sent] at member
        rcases List.mem_append.mp member with old | new
        · exact held message old
        · obtain rfl := List.mem_singleton.mp new
          exact own

/-!
## The end of a run
-/

/-- No node is shown as running, and each has the status of its last execution. -/
structure Settled (progress : ExecutionProgress) (executions : List Execution) : Prop where
  ended : ∀ nodeId, progress.statusOf nodeId ≠ some .running
  last : ∀ nodeId, progress.statusOf nodeId = lastStatus executions nodeId

theorem Settled.of_last {progress : ExecutionProgress} {executions : List Execution}
    (last : ∀ nodeId, progress.statusOf nodeId = lastStatus executions nodeId) :
    Settled progress executions := by
  refine ⟨fun nodeId => ?_, last⟩
  rw [last]
  exact lastStatus_ne_running executions nodeId

/-- The progress is settled after every message that carries a final status. -/
def SettlesAfter (base : ExecutionProgress) (executions : List Execution)
    (sent : List BusMessage) : Prop :=
  ∀ before message, before ++ [message] <+: sent → message.report.isSome = true →
    Settled ((before ++ [message]).foldl ExecutionProgress.merge base) executions

theorem SettlesAfter.of_unfinished {base : ExecutionProgress} {executions : List Execution}
    {sent : List BusMessage} (unfinished : ∀ message ∈ sent, message.report.isSome = false) :
    SettlesAfter base executions sent := by
  intro before message leading final
  have listed : message ∈ sent := leading.subset (List.mem_append_right _ List.mem_cons_self)
  rw [unfinished message listed] at final
  cases final

theorem SettlesAfter.concat {base : ExecutionProgress} {executions : List Execution}
    {sent : List BusMessage} {last : BusMessage} (earlier : SettlesAfter base executions sent)
    (settled : Settled ((sent ++ [last]).foldl ExecutionProgress.merge base) executions) :
    SettlesAfter base executions (sent ++ [last]) := by
  intro before message leading final
  rcases List.prefix_concat_iff.mp leading with whole | inside
  · rw [whole]
    exact settled
  · exact earlier before message inside final

theorem stopped_settles (notify : executor.notify = true) {base : ExecutionProgress}
    (fresh : ∀ nodeId, base.statusOf nodeId = none) (world : World) (inputData : Value)
    (startNodeIds : List String)
    (run : ∀ startNodes, executeStartNodes executor startNodeIds = .ok startNodes →
      RunAnnounced executor runtime
        ((State.initial world).pushStartNodes startNodes (launchInput inputData))) :
    (∀ nodeId, (caughtUp base
        (stoppedAt executor runtime world inputData startNodeIds).bus).statusOf nodeId =
      lastStatus (stoppedAt executor runtime world inputData startNodeIds).executions nodeId) ∧
    SettlesAfter base (stoppedAt executor runtime world inputData startNodeIds).executions
      (stoppedAt executor runtime world inputData startNodeIds).bus.sent := by
  unfold stoppedAt
  cases found : executeStartNodes executor startNodeIds with
  | error _ => exact ⟨fresh, .of_unfinished fun _ member => nomatch member⟩
  | ok startNodes =>
      have announced := run startNodes found
      rcases executeLoop_stops notify (.enter : LoopHead executor runtime
          ((State.initial world).pushStartNodes startNodes (launchInput inputData)) _)
          (Nat.zero_add maxIterations) with
        ⟨head, idle⟩ | ⟨state, entry, rest, error, head, top, within, passed⟩
      · refine ⟨fun nodeId => ?_, .of_unfinished (loopHead_unfinished notify rfl head)⟩
        rcases loopHead_exact notify announced fresh head nodeId with same |
          ⟨entry, rest, top, _, _, within⟩
        · exact same
        · rcases idle with empty | capped
          · rw [top] at empty
            cases empty
          · exact absurd within (Nat.not_lt.mpr capped)
      · have passEnd := (executeBody_end notify passed).1
        have exact : ∀ nodeId, _ := fun nodeId => passEnd.exact announced head top within passed
          (loopHead_exact notify announced fresh head) nodeId
        have last : ∀ nodeId, (caughtUp base (executeLoop executor runtime maxIterations
            ((State.initial world).pushStartNodes startNodes
              (launchInput inputData))).1.bus).statusOf nodeId = lastStatus _ nodeId :=
          fun nodeId => (exact nodeId).resolve_right fun ⟨unraised, _⟩ => nomatch unraised
        refine ⟨last, ?_⟩
        cases passEnd with
        | raised _ _ _ sent cleared _ =>
            rw [sent]
            refine SettlesAfter.concat (.of_unfinished (loopHead_unfinished notify rfl head))
              (.of_last fun nodeId => ?_)
            have shown := last nodeId
            unfold caughtUp at shown
            rw [cleared, List.foldl_nil, sent] at shown
            exact shown

/-!
## What stays running
-/

theorem hidden_status {base : ExecutionProgress} {nodeId : String} (hidden : ¬ isShown nodeId)
    (fresh : base.statusOf nodeId = none) (bus : Bus) :
    (caughtUp base bus).statusOf nodeId = none := by
  have batch : ∀ (nodes : List BusNode) (progress : ExecutionProgress),
      progress.statusOf nodeId = none →
      (nodes.foldl ExecutionProgress.completeNode progress).statusOf nodeId = none := by
    intro nodes
    induction nodes with
    | nil => exact fun _ absent => absent
    | cons node rest ih =>
        intro progress absent
        refine ih _ ?_
        rw [ExecutionProgress.completeNode_status, if_neg fun both => hidden both.2]
        exact absent
  have messages : ∀ (sent : List BusMessage) (progress : ExecutionProgress),
      progress.statusOf nodeId = none →
      (sent.foldl ExecutionProgress.merge progress).statusOf nodeId = none := by
    intro sent
    induction sent with
    | nil => exact fun _ absent => absent
    | cons message rest ih =>
        intro progress absent
        refine ih _ ?_
        rw [ExecutionProgress.merge_status, if_neg fun both => hidden both.2]
        exact batch message.completedNodes progress absent
  exact batch bus.pendingBatch _ (messages bus.sent base fresh)

/-- After a pass the loop goes on from the state that the pass left. -/
theorem executeLoop_after (notify : executor.notify = true) {started state after : State World}
    {entry : StackEntry} {rest : List StackEntry} {raised : Option String}
    (fresh : started.iteration = 0) (head : LoopHead executor runtime started state)
    (top : state.stack = entry :: rest) (within : state.iteration < maxIterations)
    (passed : executeBody executor runtime state entry rest = (after, raised)) :
    (executeLoop executor runtime maxIterations started).1 =
      (executeLoop executor runtime
        (if raised.isSome then 0 else maxIterations - after.iteration) after).1 := by
  have next := (executeBody_end notify passed).2
  have left : maxIterations - state.iteration = (maxIterations - after.iteration) + 1 := by omega
  rw [executeLoop_resume notify fresh head, left]
  simp only [executeLoop, top, passed]
  cases raised with
  | some error => rfl
  | none => rfl

variable (runtime) in
theorem executed_stays (notify : executor.notify = true) {state : State World}
    {execution : Execution} (remaining : Nat) (executed : execution ∈ state.executions) :
    execution ∈ (executeLoop executor runtime remaining state).1.executions := by
  refine executeLoop_invariant (fun state => execution ∈ state.executions) ?_ remaining executed
  intro state entry rest after raised held _ passed
  rcases (executeBody_end notify passed).1.status (createFreshProgress none) "" with
    ⟨_, executions, _⟩ | ⟨_, _, executions, _⟩
  · rw [executions]
    exact held
  · rw [executions]
    exact List.mem_append_left _ held

theorem disabled_stays_running (notify : executor.notify = true) {base : ExecutionProgress}
    {state : State World} {nodeId : String}
    (disabled : executor.snapshot.isNodeDisabled nodeId = true) (remaining : Nat)
    (running : (caughtUp base state.bus).statusOf nodeId = some .running) :
    (caughtUp base (executeLoop executor runtime remaining state).1.bus).statusOf nodeId =
      some .running := by
  refine executeLoop_invariant
    (fun state => (caughtUp base state.bus).statusOf nodeId = some .running) ?_ remaining running
  intro state entry rest after raised held _ passed
  rcases (executeBody_end notify passed).1.status base nodeId with
    ⟨_, _, same⟩ | ⟨outcome, active, _, shown | ⟨_, _, _, _, announced⟩⟩
  · rw [same]
    exact held
  · rw [shown, if_neg]
    · exact held
    · rintro ⟨rfl, _⟩
      rw [disabled] at active
      cases active
  · exact announced

theorem flush_announces (notify : executor.notify = true) (base : ExecutionProgress)
    {state after : State World} {entry next : StackEntry} {rest waiting : List StackEntry}
    (active : executor.snapshot.isNodeDisabled entry.nodeId = false)
    (passed : executeBody executor runtime state entry rest = (after, none))
    (due : runtime.busShouldFlush after.side.world = true)
    (stacked : after.stack = next :: waiting) (visible : isShown next.nodeId) :
    (caughtUp base after.bus).statusOf next.nodeId = some .running := by
  cases (executeBody_end notify passed).1 with
  | skipped disabled _ _ =>
      rw [disabled] at active
      cases active
  | kept _ _ _ early _ _ =>
      rw [due] at early
      cases early
  | flushed _ batched _ _ sent cleared flushed =>
      rw [caughtUp_flushed base batched sent cleared flushed, stacked]
      exact if_pos ⟨rfl, visible⟩

theorem announced_of_settled (notify : executor.notify = true) {base : ExecutionProgress}
    (fresh : ∀ nodeId, base.statusOf nodeId = none) {started : State World}
    (unstarted : started.iteration = 0)
    (last : ∀ nodeId,
      (caughtUp base (executeLoop executor runtime maxIterations started).1.bus).statusOf nodeId =
        lastStatus (executeLoop executor runtime maxIterations started).1.executions nodeId) :
    RunAnnounced executor runtime started := by
  constructor
  · intro state entry rest head top within active
    cases passed : executeBody executor runtime state entry rest with
    | mk after raised =>
        by_contra hidden
        obtain ⟨outcome, executed⟩ : ∃ outcome, (⟨entry, outcome⟩ : Execution) ∈ after.executions := by
          rcases (executeBody_end notify passed).1.status base "" with
            ⟨disabled, _⟩ | ⟨outcome, _, executions, _⟩
          · rw [disabled] at active
            cases active
          · refine ⟨outcome, ?_⟩
            rw [executions]
            exact List.mem_append_right _ List.mem_cons_self
        have listed := executed_stays runtime notify
          (if raised.isSome then 0 else maxIterations - after.iteration) executed
        rw [← executeLoop_after notify unstarted head top within passed] at listed
        exact lastStatus_of_mem listed
          ((last entry.nodeId).symm.trans (hidden_status hidden (fresh _) _))
  · intro state entry rest after next waiting head top within active passed due stacked visible
    have running := flush_announces notify base active passed due stacked visible
    have resumed := executeLoop_after notify unstarted head top within passed
    have settled := last next.nodeId
    rw [resumed] at settled
    refine ⟨next, waiting, stacked, rfl, ?_, ?_⟩
    · cases disabled : executor.snapshot.isNodeDisabled next.nodeId with
      | false => rfl
      | true =>
          rw [disabled_stays_running notify disabled _ running] at settled
          exact absurd settled.symm (lastStatus_ne_running _ _)
    · by_contra capped
      have exhausted : maxIterations - after.iteration = 0 := by omega
      simp only [Option.isSome_none, Bool.false_eq_true, ↓reduceIte, exhausted, executeLoop] at settled
      rw [running] at settled
      exact lastStatus_ne_running _ _ settled.symm

end Runs

theorem receive_concat {runId : Option Nat} {start : Option ExecutionProgress}
    (fresh : FreshFor runId start) {before : List BusMessage} {message : BusMessage}
    (own : ∀ sent ∈ before ++ [message], sent.runId = runId) :
    receive start (before ++ [message]) = some ((before ++ [message]).foldl
      ExecutionProgress.merge (start.getD (createFreshProgress runId))) := by
  have received := receive_eq fresh.fields.1 own
  have shown : ∃ progress, receive start (before ++ [message]) = some progress := by
    unfold receive
    rw [List.foldl_append, List.foldl_cons, List.foldl_nil]
    unfold onExecutionProgress
    dsimp only
    split
    · exact ⟨_, rfl⟩
    · exact ⟨_, rfl⟩
  obtain ⟨progress, shown⟩ := shown
  rw [shown, Option.getD_some] at received
  rw [shown, received]

/-- A node with a successor, whose `meta` is given. -/
def twoNodes (successor : List (String × Value)) : WorkflowExecutor where
  snapshot := {
    nodes := [⟨"n_1", "noop", none, [], []⟩, ⟨"n_2", "noop", none, successor, []⟩]
    connections := [⟨some "c_1", some "n_1", none, some "n_2", none⟩] }
  persist := true
  run := some { id := 1, executionMode := "manual" }
  notify := true
  nodeOutputSockets := fun _ => ["result"]

def eagerRuntime : Runtime Unit := { echoRuntime with busShouldFlush := fun _ => true }

end WorkflowStudio.Progress
