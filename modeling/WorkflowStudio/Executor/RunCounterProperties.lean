import WorkflowStudio.Lib.Determined
import WorkflowStudio.Executor.IterationCapProperties
import Mathlib.Data.List.Dedup
import Mathlib.Data.List.Perm.Basic

/-! The counters of a run. A completed run has the number of iterations, which
include those that skip a disabled node, and a failed run has no counters. -/

set_option autoImplicit false

namespace WorkflowStudio.Executor

open Lib Lib.Determined Relation

variable {World : Type}

/-- The counters on the record count the executions and the nodes executed. -/
def LaunchedRun.CountersExact (run : LaunchedRun World) : Prop :=
  run.executionCount = run.state.executedOrder.length ∧
    run.nodeCountExecuted = run.state.executedOrder.dedup.length

variable (executor : WorkflowExecutor) (runtime : Runtime World) (started : State World)

/-- The loop pops this entry. -/
def Pops (entry : StackEntry) : Prop :=
  ∃ state rest, LoopHead executor runtime started state ∧ state.stack = entry :: rest ∧
    state.iteration < maxIterations

/-- The loop empties its stack before its last iteration, and the output that is then
collected can be displayed. -/
def Finishes : Prop :=
  ∃ last, LoopHead executor runtime started last ∧ last.stack = [] ∧
    last.iteration < maxIterations ∧
    ∃ output, runtime.display (collectFinalOutput executor last) = .ok output

/-- A pass of the loop that does not raise. -/
def Passes (state after : State World) : Prop :=
  ∃ entry rest, state.stack = entry :: rest ∧ state.iteration < maxIterations ∧
    executeBody executor runtime state entry rest = (after, none)

variable {executor runtime started}

/-!
## Passes of the loop
-/

theorem passes_unique : Relator.RightUnique (Passes executor runtime) := by
  rintro state left right ⟨entry, rest, top, _, passed⟩ ⟨other, others, same, _, passes⟩
  rw [top] at same
  cases same
  rw [passed] at passes
  cases passes
  rfl

theorem LoopHead.reached {state : State World} (head : LoopHead executor runtime started state) :
    ReflTransGen (Passes executor runtime) started state := by
  induction head with
  | enter => exact .refl
  | next _ top fits passed ih => exact ih.tail ⟨_, _, top, fits, passed⟩

/-- What a pass has done with the entry that it popped. -/
structure Handled (executor : WorkflowExecutor) (entry : StackEntry)
    (state after : State World) : Prop where
  executed : state.executedOrder ⊆ after.executedOrder
  skipped : state.skipped ⊆ after.skipped
  runs : executor.snapshot.isNodeDisabled entry.nodeId = false →
    entry.nodeId ∈ after.executedOrder
  skips : executor.snapshot.isNodeDisabled entry.nodeId = true → entry.nodeId ∈ after.skipped

theorem handled_of_passed {state after : State World} {entry : StackEntry}
    {rest : List StackEntry}
    (passed : executeBody executor runtime state entry rest = (after, none)) :
    Handled executor entry state after := by
  rcases executeBody_cases passed with ⟨disabled, rfl⟩ | ⟨side, result, bus, enabled, _, rfl⟩
  · constructor
    · exact List.Subset.refl _
    · exact List.subset_append_left _ _
    · intro enabled
      rw [disabled] at enabled
      cases enabled
    · intro _
      exact List.mem_append_right _ List.mem_cons_self
  · constructor
    · exact List.subset_append_left _ _
    · exact List.Subset.refl _
    · intro _
      exact List.mem_append_right _ List.mem_cons_self
    · intro disabled
      rw [enabled] at disabled
      cases disabled

/-- Nothing that was executed or skipped is forgotten. -/
theorem grows_of_passes {state after : State World}
    (goes : ReflTransGen (Passes executor runtime) state after) :
    state.executedOrder ⊆ after.executedOrder ∧ state.skipped ⊆ after.skipped := by
  induction goes with
  | refl => exact ⟨List.Subset.refl _, List.Subset.refl _⟩
  | tail _ passes ih =>
      obtain ⟨entry, rest, _, _, passed⟩ := passes
      have handled := handled_of_passed passed
      exact ⟨List.Subset.trans ih.1 handled.executed, List.Subset.trans ih.2 handled.skipped⟩

/-- Only popped entries are executed, if their node is enabled, or skipped. -/
structure Justified (executor : WorkflowExecutor) (runtime : Runtime World)
    (started state : State World) : Prop where
  executed : ∀ nodeId ∈ state.executedOrder, ∃ entry, Pops executor runtime started entry ∧
    entry.nodeId = nodeId ∧ executor.snapshot.isNodeDisabled nodeId = false
  skipped : ∀ nodeId ∈ state.skipped, ∃ entry, Pops executor runtime started entry ∧
    entry.nodeId = nodeId ∧ executor.snapshot.isNodeDisabled nodeId = true

theorem LoopHead.justified (fresh : started.executedOrder = [] ∧ started.skipped = [])
    {state : State World} (head : LoopHead executor runtime started state) :
    Justified executor runtime started state := by
  induction head with
  | enter =>
      constructor
      · rw [fresh.1]
        intro nodeId member
        cases member
      · rw [fresh.2]
        intro nodeId member
        cases member
  | @next state after entry rest before top fits passed ih =>
      have pops : Pops executor runtime started entry := ⟨state, rest, before, top, fits⟩
      rcases executeBody_cases passed with ⟨disabled, rfl⟩ | ⟨side, result, bus, enabled, _, rfl⟩
      · constructor
        · exact ih.executed
        · intro nodeId member
          rcases List.mem_append.mp member with old | new
          · exact ih.skipped nodeId old
          · rcases List.mem_singleton.mp new with rfl
            exact ⟨entry, pops, rfl, disabled⟩
      · constructor
        · intro nodeId member
          rcases List.mem_append.mp member with old | new
          · exact ih.executed nodeId old
          · rcases List.mem_singleton.mp new with rfl
            exact ⟨entry, pops, rfl, enabled⟩
        · exact ih.skipped

/-- Each popped entry but that of the last state is handled by the end. -/
theorem handled_at_end {state last : State World} {entry : StackEntry} {rest : List StackEntry}
    (reached : LoopHead executor runtime started state) (top : state.stack = entry :: rest)
    (arrives : LoopHead executor runtime started last)
    (ended : Ended (Passes executor runtime) last) (before : state ≠ last) :
    Handled executor entry state last := by
  obtain ⟨after, ⟨popped, others, same, _, passed⟩, onward⟩ :=
    steps_to_end passes_unique reached.reached arrives.reached ended before
  rw [top] at same
  cases same
  have handled := handled_of_passed passed
  obtain ⟨executed, skipped⟩ := grows_of_passes onward
  exact {
    executed := List.Subset.trans handled.executed executed
    skipped := List.Subset.trans handled.skipped skipped
    runs := fun enabled => executed (handled.runs enabled)
    skips := fun disabled => skipped (handled.skips disabled) }

/-!
## The end of the loop
-/

theorem ended_of_empty {last : State World} (empty : last.stack = []) :
    Ended (Passes executor runtime) last := by
  rintro next ⟨entry, rest, top, _⟩
  rw [empty] at top
  cases top

theorem ended_of_spent {last : State World} (spent : maxIterations ≤ last.iteration) :
    Ended (Passes executor runtime) last := by
  rintro next ⟨entry, rest, _, fits, _⟩
  exact absurd fits (Nat.not_lt.mpr spent)

theorem ended_of_raised {last after : State World} {entry : StackEntry}
    {rest : List StackEntry} {error : String} (top : last.stack = entry :: rest)
    (raised : executeBody executor runtime last entry rest = (after, some error)) :
    Ended (Passes executor runtime) last := by
  rintro next ⟨other, others, same, _, passed⟩
  rw [top] at same
  cases same
  rw [raised] at passed
  cases passed

/-- A loop that raises does so in the body, for an entry that it popped. -/
theorem executeLoop_raises (remaining : Nat) {state after : State World} {error : String}
    (head : LoopHead executor runtime started state)
    (fits : state.iteration + remaining ≤ maxIterations)
    (raised : executeLoop executor runtime remaining state = (after, some error)) :
    ∃ last entry rest, LoopHead executor runtime started last ∧ last.stack = entry :: rest ∧
      last.iteration < maxIterations ∧
      executeBody executor runtime last entry rest = (after, some error) := by
  induction remaining generalizing state with
  | zero => cases raised
  | succ remaining ih =>
      rw [executeLoop] at raised
      split at raised
      · cases raised
      · next entry rest top =>
          split at raised
          · next failed =>
              cases raised
              exact ⟨state, entry, rest, head, top, by omega, failed⟩
          · next later passed =>
              have counted : later.iteration = state.iteration + 1 := by
                rw [← executeBody_iteration state entry
                  rest, passed]
              refine ih (head.next top ?_ passed) ?_ raised
              · omega
              · omega

theorem LoopHead.keyed (fresh : ∀ nodeId, nodeId ∈ started.nodeOutputs.keys ↔
      nodeId ∈ started.executedOrder)
    {state : State World} (head : LoopHead executor runtime started state) (nodeId : String) :
    nodeId ∈ state.nodeOutputs.keys ↔ nodeId ∈ state.executedOrder := by
  induction head with
  | enter => exact fresh nodeId
  | @next state after entry rest _ _ _ passed ih =>
      rcases executeBody_cases passed with ⟨_, rfl⟩ | ⟨side, result, bus, _, _, rfl⟩
      · exact ih
      · simp only [State.applyRouting, State.record, State.popped, OrderedMap.mem_keys_set,
          List.mem_append, List.mem_singleton, ih]
        exact or_comm

/-- The executor keeps one output for each node executed. -/
theorem length_keys_of_keyed {state : State World}
    (keyed : ∀ nodeId, nodeId ∈ state.nodeOutputs.keys ↔ nodeId ∈ state.executedOrder) :
    state.nodeOutputs.keys.length = state.executedOrder.dedup.length := by
  refine List.Perm.length_eq ?_
  rw [List.perm_ext_iff_of_nodup state.nodeOutputs.keys_nodup (List.nodup_dedup _)]
  intro nodeId
  rw [keyed, List.mem_dedup]

/-!
## The counters
-/

section Counters

variable {world : World} {startNodes : List String} {inputData : Value}

/-- Where the loop empties its stack, the pops are the executions unless a
disabled node was popped. -/
theorem iteration_exact_iff {last : State World}
    (head : LoopHead executor runtime (State.launched world startNodes inputData) last)
    (empty : last.stack = []) :
    last.iteration = last.executedOrder.length ↔
      ∀ entry, Pops executor runtime (State.launched world startNodes inputData) entry →
        executor.snapshot.isNodeDisabled entry.nodeId = false := by
  have paced : Paced executor last := head.paced
  have counted := paced.counted
  constructor
  · intro exact entry ⟨state, rest, reached, top, fits⟩
    have none : last.skipped = [] := List.length_eq_zero_iff.mp (by omega)
    have before : state ≠ last := by
      rintro rfl
      rw [empty] at top
      cases top
    have handled := handled_at_end reached top head (ended_of_empty empty) before
    by_contra disabled
    have skipped := handled.skips (by simpa using disabled)
    rw [none] at skipped
    cases skipped
  · intro enabled
    have justified := head.justified ⟨rfl, rfl⟩
    have none : last.skipped = [] := by
      rw [List.eq_nil_iff_forall_not_mem]
      intro nodeId member
      obtain ⟨entry, pops, rfl, disabled⟩ := justified.skipped nodeId member
      rw [enabled entry pops] at disabled
      cases disabled
    rw [counted, none]
    rfl

/-- Where the loop stops without an error, nothing was executed unless an enabled
node was popped. -/
theorem nothing_executed_iff {last : State World}
    (head : LoopHead executor runtime (State.launched world startNodes inputData) last)
    (ended : Ended (Passes executor runtime) last)
    (stopped : last.stack = [] ∨ maxIterations ≤ last.iteration) :
    last.executedOrder = [] ↔
      ∀ entry, Pops executor runtime (State.launched world startNodes inputData) entry →
        executor.snapshot.isNodeDisabled entry.nodeId = true := by
  constructor
  · intro nothing entry ⟨state, rest, reached, top, fits⟩
    have before : state ≠ last := by
      rintro rfl
      rcases stopped with empty | spent
      · rw [empty] at top
        cases top
      · exact absurd fits (Nat.not_lt.mpr spent)
    have handled := handled_at_end reached top head ended before
    by_contra enabled
    have executed := handled.runs (by simpa using enabled)
    rw [nothing] at executed
    cases executed
  · intro disabled
    have justified := head.justified ⟨rfl, rfl⟩
    rw [List.eq_nil_iff_forall_not_mem]
    intro nodeId member
    obtain ⟨entry, pops, rfl, enabled⟩ := justified.executed nodeId member
    rw [disabled entry pops] at enabled
    cases enabled

/-- There is one end of the loop, so a loop that ends otherwise does not finish. -/
theorem not_finishes {last : State World} (head : LoopHead executor runtime started last)
    (ended : Ended (Passes executor runtime) last)
    (otherwise : last.stack ≠ [] ∨ maxIterations ≤ last.iteration ∨
      ∃ error, runtime.display (collectFinalOutput executor last) = .error error) :
    ¬ Finishes executor runtime started := by
  rintro ⟨other, reached, empty, fits, output, displayed⟩
  have same : other = last :=
    end_unique passes_unique head.reached ended reached.reached (ended_of_empty empty)
  subst same
  rcases otherwise with left | spent | ⟨error, fails⟩
  · exact left empty
  · exact absurd fits (Nat.not_lt.mpr spent)
  · rw [displayed] at fails
    cases fails

/-- A loop that raises has executed a node, the one that raised. -/
theorem raised_exact_iff {last : State World} {error : String}
    (ended : executeLoop executor runtime maxIterations
      (State.launched world startNodes inputData) = (last, some error)) :
    last.executedOrder = [] ↔
      ∀ entry, Pops executor runtime (State.launched world startNodes inputData) entry →
        (executor.snapshot.isNodeDisabled entry.nodeId = true ↔
          ¬ Finishes executor runtime (State.launched world startNodes inputData)) := by
  obtain ⟨before, entry, rest, head, top, fits, raised⟩ :=
    executeLoop_raises maxIterations .enter (Nat.zero_add _).le ended
  obtain ⟨enabled, _, _, order⟩ := executeBody_raises raised
  have unfinished := not_finishes head (ended_of_raised top raised)
    (.inl (by rw [top]; exact List.cons_ne_nil _ _))
  refine iff_of_false ?_ ?_
  · rw [order]
    exact List.concat_ne_nil _ _
  · intro agrees
    have disabled := (agrees entry ⟨before, rest, head, top, fits⟩).mpr unfinished
    rw [enabled] at disabled
    cases disabled

theorem capped_exact_iff {last : State World}
    (ended : executeLoop executor runtime maxIterations
      (State.launched world startNodes inputData) = (last, none))
    (spent : maxIterations ≤ last.iteration) :
    last.executedOrder = [] ↔
      ∀ entry, Pops executor runtime (State.launched world startNodes inputData) entry →
        (executor.snapshot.isNodeDisabled entry.nodeId = true ↔
          ¬ Finishes executor runtime (State.launched world startNodes inputData)) := by
  have head := executeLoop_head maxIterations .enter (Nat.zero_add _).le ended
  have unfinished := not_finishes head (ended_of_spent spent) (.inr (.inl spent))
  rw [nothing_executed_iff head (ended_of_spent spent) (.inr spent)]
  simp only [unfinished, not_false_eq_true, iff_true]

/-- A loop that ends before its last iteration has emptied its stack. -/
theorem stack_empty_of_few {last : State World}
    (ended : executeLoop executor runtime maxIterations
      (State.launched world startNodes inputData) = (last, none))
    (few : last.iteration < maxIterations) : last.stack = [] := by
  rcases executeLoop_ends maxIterations ended with empty | used
  · exact empty
  · have all : last.iteration = 0 + maxIterations := used
    omega

/-- A run whose output cannot be displayed is failed, so it has no counters. -/
theorem undisplayed_exact_iff {last : State World} {error : String}
    (ended : executeLoop executor runtime maxIterations
      (State.launched world startNodes inputData) = (last, none))
    (few : last.iteration < maxIterations)
    (fails : runtime.display (collectFinalOutput executor last) = .error error) :
    last.executedOrder = [] ↔
      ∀ entry, Pops executor runtime (State.launched world startNodes inputData) entry →
        (executor.snapshot.isNodeDisabled entry.nodeId = true ↔
          ¬ Finishes executor runtime (State.launched world startNodes inputData)) := by
  have head := executeLoop_head maxIterations .enter (Nat.zero_add _).le ended
  have empty := stack_empty_of_few ended few
  have unfinished := not_finishes head (ended_of_empty empty) (.inr (.inr ⟨error, fails⟩))
  rw [nothing_executed_iff head (ended_of_empty empty) (.inl empty)]
  simp only [unfinished, not_false_eq_true, iff_true]

theorem completed_exact_iff {last : State World}
    (ended : executeLoop executor runtime maxIterations
      (State.launched world startNodes inputData) = (last, none))
    (few : last.iteration < maxIterations) {output : Value}
    (displayed : runtime.display (collectFinalOutput executor last) = .ok output) :
    (last.iteration = last.executedOrder.length ∧
        last.nodeOutputs.keys.length = last.executedOrder.dedup.length) ↔
      ∀ entry, Pops executor runtime (State.launched world startNodes inputData) entry →
        (executor.snapshot.isNodeDisabled entry.nodeId = true ↔
          ¬ Finishes executor runtime (State.launched world startNodes inputData)) := by
  have head := executeLoop_head maxIterations .enter (Nat.zero_add _).le ended
  have empty := stack_empty_of_few ended few
  have finishes : Finishes executor runtime (State.launched world startNodes inputData) :=
    ⟨last, head, empty, few, output, displayed⟩
  have keyed := length_keys_of_keyed fun nodeId => head.keyed (fun _ => Iff.rfl) nodeId
  rw [iteration_exact_iff head empty, and_iff_left keyed]
  simp only [finishes, not_true_eq_false, iff_false, Bool.not_eq_true]

end Counters

variable (runtime) in
/-- An execution returns what its loop left, and an output where the loop came to
its end before the cap and the output can be displayed. -/
theorem execute_of_loop {world : World} {inputData : Value} {startNodeIds startNodes : List String}
    {last : State World} {raised : Option String}
    (found : executeStartNodes executor startNodeIds = .ok startNodes)
    (ended : executeLoop executor runtime maxIterations
      (State.launched world startNodes inputData) = (last, raised)) :
    ∃ bus, (∃ output, raised = none ∧ last.iteration < maxIterations ∧
        runtime.display (collectFinalOutput executor last) = .ok output ∧
        execute executor runtime world inputData startNodeIds =
          ({ last with bus := bus }, .ok output)) ∨
      (∃ error, (raised = none → last.iteration < maxIterations →
          runtime.display (collectFinalOutput executor last) = .error error) ∧
        execute executor runtime world inputData startNodeIds =
          ({ last with bus := bus }, .error error)) := by
  unfold State.launched at ended
  unfold execute
  rw [found]
  dsimp only
  rw [ended]
  cases raised with
  | some error =>
      dsimp only
      rw [State.busFlush_core]
      refine ⟨_, .inr ⟨error, ?_, rfl⟩⟩
      intro unraised
      cases unraised
  | none =>
      dsimp only
      split
      · next spent =>
          rw [State.busFlush_core]
          exact ⟨_, .inr ⟨_, fun _ few => absurd few (Nat.not_lt.mpr spent), rfl⟩⟩
      · next few =>
          cases displayed : runtime.display (collectFinalOutput executor last) with
          | error error =>
              dsimp only
              rw [State.busFlush_core]
              exact ⟨_, .inr ⟨error, fun _ _ => rfl, rfl⟩⟩
          | ok output =>
              dsimp only
              rw [State.busFlush_core]
              exact ⟨_, .inl ⟨output, rfl, Nat.not_le.mp few, rfl, rfl⟩⟩

section Runs

variable (runtime) (sockets : String → List String) (world : World) (runId : Nat) (notify : Bool)
  (pending : PendingRun)

/-- What the record of a failed run says of its counters. -/
theorem failed_exact_iff {error : String} {state : State World}
    (fails : execute (initExecution sockets runId notify pending) runtime world
      pending.inputData pending.startNodeIds = (state, .error error)) :
    (runPending runtime sockets world runId notify pending).CountersExact ↔
      state.executedOrder = [] := by
  unfold LaunchedRun.CountersExact runPending
  rw [fails]
  dsimp only
  constructor
  · rintro ⟨none, _⟩
    exact List.length_eq_zero_iff.mp none.symm
  · intro none
    rw [none]
    exact ⟨rfl, rfl⟩

/-- The counters of a run are exact if and only if no start node is found, or
the run finishes and pops no disabled node, or it does not finish and pops
disabled nodes only. -/
theorem counters_exact_iff :
    (runPending runtime sockets world runId notify pending).CountersExact ↔
      ∀ startNodes, executeStartNodes (initExecution sockets runId notify pending)
          pending.startNodeIds = .ok startNodes →
        ∀ entry, Pops (initExecution sockets runId notify pending) runtime
            (State.launched world startNodes pending.inputData) entry →
          (pending.snapshot.isNodeDisabled entry.nodeId = true ↔
            ¬ Finishes (initExecution sockets runId notify pending) runtime
              (State.launched world startNodes pending.inputData)) := by
  cases found : executeStartNodes (initExecution sockets runId notify pending)
      pending.startNodeIds with
  | error error =>
      have fails : execute (initExecution sockets runId notify pending) runtime world
          pending.inputData pending.startNodeIds =
            ((State.initial world).busFlush (initExecution sockets runId notify pending) none
              (some (.failed error)), .error error) := by
        unfold execute
        rw [found]
      rw [failed_exact_iff runtime sockets world runId notify pending fails, State.busFlush_core]
      refine iff_of_true rfl ?_
      intro startNodes other
      cases other
  | ok startNodes =>
      have only : ∀ claim : List String → Prop, (∀ others,
          Except.ok (ε := String) startNodes = .ok others → claim others) ↔ claim startNodes := by
        simp
      rw [only]
      cases ended : executeLoop (initExecution sockets runId notify pending) runtime maxIterations
          (State.launched world startNodes pending.inputData) with
      | mk last raised =>
          obtain ⟨bus, ⟨output, unraised, few, displayed, returns⟩ | ⟨error, undisplayed, fails⟩⟩ :=
            execute_of_loop runtime found ended
          · subst unraised
            unfold LaunchedRun.CountersExact runPending
            rw [returns]
            exact completed_exact_iff ended few displayed
          · rw [failed_exact_iff runtime sockets world runId notify pending fails]
            cases raised with
            | none =>
                rcases Nat.lt_or_ge last.iteration maxIterations with few | spent
                · have failed := undisplayed_exact_iff ended few (undisplayed rfl few)
                  exact failed
                · have capped := capped_exact_iff ended spent
                  exact capped
            | some raised =>
                have failed := raised_exact_iff ended
                exact failed

end Runs

/-- A world in which each node raises. -/
def failingRuntime : Runtime Unit where
  executeNodeCore := fun world _ _ => (world, .error "boom")
  emitRunEvent := fun world _ => (world, .ok ())
  getPinData := fun _ _ => .ok none
  busShouldFlush := fun _ => false
  display := .ok
  display_empty := echoRuntime.display_empty

/-- One enabled manual trigger. -/
def loneTrigger : Snapshot where
  nodes := [⟨"n_1", "manual_trigger", none, [], []⟩]
  connections := []

def buttonRun : LaunchRequest where
  inputData := .dict []
  executionMode := "manual"
  startNodeIds := []
  notifyUser := false

/-- A run that skips its only node counts one execution, and one whose only node
raises counts none. -/
theorem skipped_counted_failed_uncounted :
    (∃ run, launch echoRuntime (fun _ => ["result"]) () 1 (some disabledTrigger) buttonRun =
        .ok run ∧ run.status = .completed ∧ run.executionCount = 1 ∧
        run.state.executedOrder = [] ∧ ¬ run.CountersExact) ∧
      ∃ run, launch failingRuntime (fun _ => ["result"]) () 1 (some loneTrigger) buttonRun =
        .ok run ∧ run.status = .failed ∧ run.executionCount = 0 ∧ run.nodeCountExecuted = 0 ∧
        run.state.executedOrder = ["n_1"] ∧ ¬ run.CountersExact := by
  constructor
  · refine ⟨_, rfl, by decide, by decide, by decide, ?_⟩
    rintro ⟨exact, _⟩
    exact absurd exact (by decide)
  · refine ⟨_, rfl, by decide, by decide, by decide, by decide, ?_⟩
    rintro ⟨exact, _⟩
    exact absurd exact (by decide)

end WorkflowStudio.Executor
