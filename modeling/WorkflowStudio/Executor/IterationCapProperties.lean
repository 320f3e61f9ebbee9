import WorkflowStudio.Executor.LaunchProperties
import WorkflowStudio.Executor.PreviewProperties

/-! The iteration cap of the two loops. The test behind each loop looks at the
counter only, so a run that comes to its end with the last pop that it is
allowed is taken for one that has work left. -/

set_option autoImplicit false

namespace WorkflowStudio.Executor

open Lib

/-!
## How the methods end
-/

/-- The ways in which `execute` ends. -/
inductive ExecuteEnd where
  | notStarted (error : String)
  | nodeFailed (error : String)
  | exceeded
  | outputFailed (error : String)
  | completed (output : Value)

/-- The ways in which `execute_until` ends. -/
inductive UntilEnd where
  | notStarted (error : String)
  | exceeded
  | notReached
  | nodeFailed (nodeId error : String)
  | reached (result : NodeOutput)

def ExecuteEnd.outcome : ExecuteEnd → Except String Value
  | .notStarted error | .nodeFailed error | .outputFailed error => .error error
  | .exceeded => .error exceededError
  | .completed output => .ok output

def UntilEnd.outcome (targetNodeId : String) : UntilEnd → Except String PreviewStatus
  | .notStarted error => .error error
  | .exceeded => .error exceededError
  | .notReached => .error ("Target node " ++ targetNodeId ++ " was not reached")
  | .nodeFailed nodeId error => .ok (.failed nodeId error)
  | .reached result => .ok (.completed result)

section Ends

variable {World : Type} (executor : WorkflowExecutor) (runtime : Runtime World) (world : World)
  (inputData : Value)

def executeEnd (startNodeIds : List String) : ExecuteEnd :=
  match executeStartNodes executor startNodeIds with
  | .error error => .notStarted error
  | .ok startNodes =>
      match executeLoop executor runtime maxIterations
        (State.launched world startNodes inputData) with
      | (_, some error) => .nodeFailed error
      | (state, none) =>
          if maxIterations ≤ state.iteration then .exceeded
          else
            match runtime.display (collectFinalOutput executor state) with
            | .error error => .outputFailed error
            | .ok output => .completed output

def untilEnd (targetNodeId : String) (iterations : Nat) : UntilEnd :=
  if targetNodeId = "" then .notStarted "Target node is required for preview execution"
  else
    match executor.snapshot.findStartNodesForTarget targetNodeId with
    | .error error => .notStarted error
    | .ok startNodes =>
        let left := untilRun executor runtime world targetNodeId inputData iterations startNodes
        if iterations ≤ left.1.iteration then .exceeded
        else
          match left.2 with
          | .nodeFailed nodeId error => if error = "" then .notReached else .nodeFailed nodeId error
          | .targetReached result => .reached result
          | .stackEmpty => .notReached

theorem execute_outcome (startNodeIds : List String) :
    (execute executor runtime world inputData startNodeIds).2 =
      (executeEnd executor runtime world inputData startNodeIds).outcome := by
  unfold execute executeEnd
  cases executeStartNodes executor startNodeIds with
  | error error => rfl
  | ok startNodes =>
      dsimp only [State.launched]
      cases executeLoop executor runtime maxIterations
          ((State.initial world).pushStartNodes startNodes (launchInput inputData)) with
      | mk state raised =>
          cases raised with
          | some error => rfl
          | none =>
              dsimp only
              split
              · rfl
              · cases runtime.display (collectFinalOutput executor state) with
                | error error => rfl
                | ok output => rfl

theorem executeUntil_outcome (targetNodeId : String) (iterations : Nat) :
    (executeUntil executor runtime world targetNodeId inputData iterations).2 =
      (untilEnd executor runtime world inputData targetNodeId iterations).outcome targetNodeId := by
  unfold executeUntil untilEnd
  split
  · rfl
  · cases executor.snapshot.findStartNodesForTarget targetNodeId with
    | error error => rfl
    | ok startNodes =>
        dsimp only
        split
        · rfl
        · cases (untilRun executor runtime world targetNodeId inputData iterations
              startNodes).2 with
          | nodeFailed nodeId error =>
              dsimp only
              split
              · rfl
              · rfl
          | targetReached result => rfl
          | stackEmpty => rfl

end Ends

/-!
## Which runs the cap ends
-/

section Cap

variable {World : Type} (executor : WorkflowExecutor) (runtime : Runtime World) (world : World)
  (inputData : Value)

/-- The loop of `execute`, run for the iterations that it is allowed. -/
def cappedLoop (startNodes : List String) : State World × Option String :=
  executeLoop executor runtime maxIterations (State.launched world startNodes inputData)

/-- `execute` reports the cap exactly if there is work left after the last pop that
is allowed, and reports what happens at that pop as what it is. -/
def ExecuteCapExact (startNodeIds : List String) : Prop :=
  ∀ startNodes, executeStartNodes executor startNodeIds = .ok startNodes →
    let left := cappedLoop executor runtime world inputData startNodes
    let ended := executeEnd executor runtime world inputData startNodeIds
    (ended = .exceeded ↔ left.2 = none ∧ left.1.stack ≠ []) ∧
      (left.1.iteration = maxIterations →
        (∀ error, left.2 = some error → ended = .nodeFailed error) ∧
        (left.2 = none → left.1.stack = [] → ∃ output, ended = .completed output))

/-- The last pop that `execute` is allowed leaves nothing to do. -/
def FinishesAtCap (startNodeIds : List String) : Prop :=
  ∃ startNodes, executeStartNodes executor startNodeIds = .ok startNodes ∧
    let left := cappedLoop executor runtime world inputData startNodes
    left.1.iteration = maxIterations ∧ left.2 = none ∧ left.1.stack = []

def UntilCapExact (targetNodeId : String) (iterations : Nat) : Prop :=
  ∀ startNodes, targetNodeId ≠ "" →
    executor.snapshot.findStartNodesForTarget targetNodeId = .ok startNodes →
    let left := untilRun executor runtime world targetNodeId inputData iterations startNodes
    let ended := untilEnd executor runtime world inputData targetNodeId iterations
    (ended = .exceeded ↔ left.2 = .stackEmpty ∧ left.1.stack ≠ []) ∧
      (left.1.iteration = iterations →
        (∀ result, left.2 = .targetReached result → ended = .reached result) ∧
        (∀ nodeId error, left.2 = .nodeFailed nodeId error → ended = .nodeFailed nodeId error) ∧
        (left.2 = .stackEmpty → left.1.stack = [] → ended = .notReached))

/-- The last pop that `execute_until` is allowed executes the target, fails, or
leaves nothing to do. -/
def StopsAtCap (targetNodeId : String) (iterations : Nat) : Prop :=
  ∃ startNodes, targetNodeId ≠ "" ∧
    executor.snapshot.findStartNodesForTarget targetNodeId = .ok startNodes ∧
    let left := untilRun executor runtime world targetNodeId inputData iterations startNodes
    left.1.iteration = iterations ∧ ¬ (left.2 = .stackEmpty ∧ left.1.stack ≠ [])

variable {executor runtime world inputData}

theorem executeBody_iteration (state : State World) (entry : StackEntry)
    (rest : List StackEntry) :
    (executeBody executor runtime state entry rest).1.iteration = state.iteration + 1 := by
  unfold executeBody
  dsimp only
  split
  · rfl
  · split
    · rw [State.busFlush_core]
      rfl
    · rw [State.busTick_core]
      rfl

theorem untilBody_iteration {targetNodeId : String} (state : State World) (entry : StackEntry)
    (rest : List StackEntry) :
    (untilBody executor runtime targetNodeId state entry rest).1.iteration =
      state.iteration + 1 := by
  unfold untilBody
  dsimp only
  split
  · rfl
  · split
    · rfl
    · split
      · rfl
      · rfl

theorem untilBody_exit {targetNodeId : String} {state after : State World} {entry : StackEntry}
    {rest : List StackEntry} {exit : UntilExit}
    (passed : untilBody executor runtime targetNodeId state entry rest = (after, some exit)) :
    exit ≠ .stackEmpty := by
  unfold untilBody at passed
  dsimp only at passed
  split at passed
  · cases passed
  · split at passed
    · cases passed
      simp
    · split at passed
      · cases passed
        simp
      · cases passed

variable (executor runtime) in
/-- A loop uses the iterations that it is allowed only as far as it has work, and
stops with work left only when they are used up. -/
theorem executeLoop_counted (remaining : Nat) (state : State World) :
    let left := executeLoop executor runtime remaining state
    left.1.iteration ≤ state.iteration + remaining ∧
      (left.2 = none → left.1.stack ≠ [] → left.1.iteration = state.iteration + remaining) := by
  induction remaining generalizing state with
  | zero => exact ⟨le_rfl, fun _ _ => rfl⟩
  | succ remaining ih =>
      unfold executeLoop
      cases top : state.stack with
      | nil => exact ⟨Nat.le_add_right _ _, fun _ some_left => absurd top some_left⟩
      | cons entry rest =>
          have counted : (executeBody executor runtime state entry rest).1.iteration =
              state.iteration + 1 := executeBody_iteration state entry rest
          cases passed : executeBody executor runtime state entry rest with
          | mk after raised =>
              rw [passed] at counted
              dsimp only at counted ⊢
              rw [passed]
              cases raised with
              | some error =>
                  refine ⟨?_, fun none => by cases none⟩
                  dsimp only
                  omega
              | none =>
                  have rearranged : state.iteration + (remaining + 1) =
                      after.iteration + remaining := by omega
                  rw [rearranged]
                  exact ih after

variable (executor runtime) in
theorem untilLoop_counted (targetNodeId : String) (remaining : Nat) (state : State World) :
    let left := untilLoop executor runtime targetNodeId remaining state
    left.1.iteration ≤ state.iteration + remaining ∧
      (left.2 = .stackEmpty → left.1.stack ≠ [] →
        left.1.iteration = state.iteration + remaining) := by
  induction remaining generalizing state with
  | zero => exact ⟨le_rfl, fun _ _ => rfl⟩
  | succ remaining ih =>
      unfold untilLoop
      cases top : state.stack with
      | nil => exact ⟨Nat.le_add_right _ _, fun _ some_left => absurd top some_left⟩
      | cons entry rest =>
          have counted : (untilBody executor runtime targetNodeId state entry rest).1.iteration =
              state.iteration + 1 := untilBody_iteration state entry rest
          cases passed : untilBody executor runtime targetNodeId state entry rest with
          | mk after exit =>
              rw [passed] at counted
              dsimp only at counted ⊢
              rw [passed]
              cases exit with
              | some exit =>
                  have stopped := untilBody_exit passed
                  refine ⟨?_, fun ended => absurd ended stopped⟩
                  dsimp only
                  omega
              | none =>
                  have rearranged : state.iteration + (remaining + 1) =
                      after.iteration + remaining := by omega
                  rw [rearranged]
                  exact ih after

variable (runtime world inputData) in
/-- How `execute` ends is read off the end of its loop. -/
theorem executeEnd_cases {startNodeIds startNodes : List String}
    (found : executeStartNodes executor startNodeIds = .ok startNodes) :
    let left := cappedLoop executor runtime world inputData startNodes
    let ended := executeEnd executor runtime world inputData startNodeIds
    (∀ error, left.2 = some error → ended = .nodeFailed error) ∧
      (left.2 = none → maxIterations ≤ left.1.iteration → ended = .exceeded) ∧
      (left.2 = none → left.1.iteration < maxIterations → ended ≠ .exceeded) := by
  unfold executeEnd cappedLoop
  rw [found]
  dsimp only
  cases executeLoop executor runtime maxIterations
      (State.launched world startNodes inputData) with
  | mk state raised =>
      cases raised with
      | some error =>
          refine ⟨?_, ?_, ?_⟩
          · intro other same
            rw [Option.some.inj same]
          · intro unraised
            cases unraised
          · intro unraised
            cases unraised
      | none =>
          dsimp only
          refine ⟨?_, ?_, ?_⟩
          · intro error same
            cases same
          · intro _ used
            exact if_pos used
          · intro _ few
            rw [if_neg (Nat.not_le.mpr few)]
            split
            · exact ExecuteEnd.noConfusion
            · exact ExecuteEnd.noConfusion

theorem executeCapExact_iff (startNodeIds : List String) :
    ExecuteCapExact executor runtime world inputData startNodeIds ↔
      ¬ FinishesAtCap executor runtime world inputData startNodeIds := by
  constructor
  · rintro cap ⟨startNodes, found, used, unraised, empty⟩
    have ended := (executeEnd_cases runtime world inputData found).2.1 unraised used.ge
    exact ((cap startNodes found).1.mp ended).2 empty
  · intro unfinished startNodes found
    obtain ⟨failed, exceeded, completed⟩ := executeEnd_cases runtime world inputData found
    obtain ⟨bounded, pending⟩ := executeLoop_counted executor runtime maxIterations
      (State.launched world startNodes inputData)
    change _ ≤ 0 + maxIterations at bounded
    change _ → _ → _ = 0 + maxIterations at pending
    rw [Nat.zero_add] at bounded pending
    refine ⟨⟨?_, ?_⟩, ?_⟩
    · intro ended
      have unraised : (cappedLoop executor runtime world inputData startNodes).2 = none := by
        cases raised : (cappedLoop executor runtime world inputData startNodes).2 with
        | none => rfl
        | some error =>
            rw [failed error raised] at ended
            cases ended
      have used : (cappedLoop executor runtime world inputData startNodes).1.iteration =
          maxIterations := by
        refine bounded.antisymm (not_lt.mp fun few => ?_)
        exact completed unraised few ended
      exact ⟨unraised, fun empty => unfinished ⟨startNodes, found, used, unraised, empty⟩⟩
    · rintro ⟨unraised, work⟩
      exact exceeded unraised (pending unraised work).ge
    · intro used
      exact ⟨failed, fun unraised empty =>
        absurd ⟨startNodes, found, used, unraised, empty⟩ unfinished⟩

variable (runtime world inputData) in
/-- How `execute_until` ends is read off the end of its loop. -/
theorem untilEnd_cases {targetNodeId : String} {startNodes : List String}
    (named : targetNodeId ≠ "")
    (found : executor.snapshot.findStartNodesForTarget targetNodeId = .ok startNodes)
    (iterations : Nat) :
    let left := untilRun executor runtime world targetNodeId inputData iterations startNodes
    let ended := untilEnd executor runtime world inputData targetNodeId iterations
    (iterations ≤ left.1.iteration → ended = .exceeded) ∧
      (left.1.iteration < iterations → ended ≠ .exceeded) := by
  unfold untilEnd
  rw [if_neg named, found]
  dsimp only
  constructor
  · intro used
    exact if_pos used
  · intro few
    rw [if_neg (Nat.not_le.mpr few)]
    cases (untilRun executor runtime world targetNodeId inputData iterations startNodes).2 with
    | nodeFailed nodeId error =>
        dsimp only
        split
        · simp
        · simp
    | targetReached result => simp
    | stackEmpty => simp

theorem untilCapExact_iff (targetNodeId : String) (iterations : Nat) :
    UntilCapExact executor runtime world inputData targetNodeId iterations ↔
      ¬ StopsAtCap executor runtime world inputData targetNodeId iterations := by
  constructor
  · rintro cap ⟨startNodes, named, found, used, stopped⟩
    have ended := (untilEnd_cases runtime world inputData named found iterations).1 used.ge
    exact stopped ((cap startNodes named found).1.mp ended)
  · intro goes_on startNodes named found
    obtain ⟨exceeded, unexceeded⟩ := untilEnd_cases runtime world inputData named found iterations
    obtain ⟨bounded, pending⟩ := untilLoop_counted executor runtime targetNodeId iterations
      (State.launched world startNodes inputData)
    change _ ≤ 0 + iterations at bounded
    change _ → _ → _ = 0 + iterations at pending
    rw [Nat.zero_add] at bounded pending
    have works : (untilRun executor runtime world targetNodeId inputData iterations
        startNodes).1.iteration = iterations →
          (untilRun executor runtime world targetNodeId inputData iterations startNodes).2 =
            .stackEmpty ∧
          (untilRun executor runtime world targetNodeId inputData iterations
            startNodes).1.stack ≠ [] := by
      intro used
      by_contra stopped
      exact goes_on ⟨startNodes, named, found, used, stopped⟩
    refine ⟨⟨?_, ?_⟩, ?_⟩
    · intro ended
      exact works (bounded.antisymm (not_lt.mp fun few => unexceeded few ended))
    · rintro ⟨unstopped, work⟩
      exact exceeded (pending unstopped work).ge
    · intro used
      obtain ⟨unstopped, work⟩ := works used
      refine ⟨?_, ?_, ?_⟩
      · intro result reached
        rw [unstopped] at reached
        cases reached
      · intro nodeId error failed
        rw [unstopped] at failed
        cases failed
      · intro _ empty
        exact absurd empty work

end Cap

/-- The cap is exact for the runs that do not come to their end with the very last
pop that they are allowed, and for no others. -/
theorem iterationCap_exact_iff {World : Type} (executor : WorkflowExecutor)
    (runtime : Runtime World) (world : World) (inputData : Value) (startNodeIds : List String)
    (targetNodeId : String) (iterations : Nat) :
    (ExecuteCapExact executor runtime world inputData startNodeIds ↔
        ¬ FinishesAtCap executor runtime world inputData startNodeIds) ∧
      (UntilCapExact executor runtime world inputData targetNodeId iterations ↔
        ¬ StopsAtCap executor runtime world inputData targetNodeId iterations) :=
  ⟨executeCapExact_iff startNodeIds, untilCapExact_iff targetNodeId iterations⟩

/-- A disabled node and an enabled one, without connections. -/
def twoLoneNodes : WorkflowExecutor where
  snapshot := {
    nodes := [⟨"n_1", "noop", none, [("disabled", .bool true)], []⟩, ⟨"n_2", "noop", none, [], []⟩]
    connections := [] }
  persist := false
  run := none
  notify := false
  nodeOutputSockets := fun _ => ["result"]

/-- A run that pops its thousand start nodes, and a preview of one iteration that
executes its target, are both taken for endless loops. -/
theorem cap_ends_finished_runs :
    ¬ ExecuteCapExact twoLoneNodes echoRuntime () (.int 7) (List.replicate 1000 "n_1") ∧
      ¬ UntilCapExact twoLoneNodes echoRuntime () (.int 7) "n_2" 1 := by
  constructor
  · rw [executeCapExact_iff, not_not]
    let started := State.launched () (List.replicate 1000 "n_1") (Value.int 7)
    have length : started.stack.length = maxIterations := by
      change ((List.map _ (List.replicate 1000 "n_1")).reverse ++ []).length = _
      rw [List.append_nil, List.length_reverse, List.length_map, List.length_replicate]
      rfl
    have disabled : ∀ entry ∈ started.stack,
        twoLoneNodes.snapshot.isNodeDisabled entry.nodeId = true := by
      intro entry member
      simp only [started, State.launched, State.pushStartNodes, State.initial, List.append_nil,
        List.mem_reverse, List.mem_map] at member
      obtain ⟨nodeId, started, rfl⟩ := member
      rw [List.eq_of_mem_replicate started]
      decide
    obtain ⟨after, ended, empty, _, _, counted⟩ :=
      executeLoop_skips echoRuntime maxIterations started disabled length.le
    refine ⟨List.replicate 1000 "n_1", if_pos (List.cons_ne_nil _ _), ?_⟩
    have left : cappedLoop twoLoneNodes echoRuntime () (.int 7) (List.replicate 1000 "n_1") =
        (after, none) := ended
    dsimp only
    rw [left]
    refine ⟨?_, rfl, empty⟩
    rw [counted, length]
    exact Nat.zero_add _
  · rw [untilCapExact_iff, not_not]
    exact ⟨["n_2"], by decide, by decide, by decide, by decide⟩

end WorkflowStudio.Executor
