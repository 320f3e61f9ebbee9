import WorkflowStudio.Executor.PreviewProperties
import WorkflowStudio.Executor.Savepoint

/-! When a savepoint is closed as it should be: exactly once, kept when the method
reports success and rolled back otherwise. Closing may fail, which nobody hears
of. Without faults the methods are the loops of the executor. -/

set_option autoImplicit false

namespace WorkflowStudio.Executor.Savepoint

open Lib

/-!
## Without faults
-/

section Faultless

variable {World : Type} (executor : WorkflowExecutor) (runtime : Runtime World)

theorem executeBody_none (state : State World) (entry : StackEntry) (rest : List StackEntry) :
    executeBody .none executor runtime state entry rest =
      Executor.executeBody executor runtime state entry rest := rfl

theorem executeLoop_none (remaining : Nat) (state : State World) :
    executeLoop .none executor runtime remaining state =
      Executor.executeLoop executor runtime remaining state := by
  induction remaining generalizing state with
  | zero => rfl
  | succ remaining ih =>
      unfold executeLoop Executor.executeLoop
      cases state.stack with
      | nil => rfl
      | cons entry rest =>
          dsimp only
          rw [executeBody_none]
          cases Executor.executeBody executor runtime state entry rest with
          | mk after raised =>
              cases raised with
              | some error => rfl
              | none => exact ih after

/-- Where no step raises of itself, `execute` is `execute` of the model without savepoints. -/
theorem execute_none (rollbackOnFailure : Bool) (world : World) (inputData : Value)
    (startNodeIds : List String) :
    let ended := execute .none executor runtime rollbackOnFailure world inputData startNodeIds
    (ended.state, ended.outcome) =
      Executor.execute executor runtime world inputData startNodeIds := by
  unfold execute Executor.execute
  cases executeStartNodes executor startNodeIds with
  | error error => rfl
  | ok startNodes =>
      dsimp only
      have unopened (started : State World) :
          (if rollbackOnFailure then Faults.none.savepoint started else none) = none := by
        split <;> rfl
      rw [unopened, executeLoop_none]
      dsimp only
      unfold finishExecute
      cases Executor.executeLoop executor runtime maxIterations
          ((State.initial world).pushStartNodes startNodes (launchInput inputData)) with
      | mk state raised =>
          cases raised with
          | some error => rfl
          | none =>
              dsimp only
              split
              · rfl
              · unfold displayAndNotify
                cases runtime.display (collectFinalOutput executor state) with
                | error error => rfl
                | ok output => rfl

theorem untilBody_none (targetNodeId : String) (state : State World) (entry : StackEntry)
    (rest : List StackEntry) :
    untilBody .none executor runtime targetNodeId state entry rest =
      ((Executor.untilBody executor runtime targetNodeId state entry rest).1,
        (Executor.untilBody executor runtime targetNodeId state entry rest).2.map .ok) := by
  unfold untilBody Executor.untilBody
  dsimp only [Faults.none]
  split
  · rfl
  · cases executeNode executor runtime (state.popped rest).side
        (state.popped rest).executedOrder.length entry.nodeId entry.inputData false with
    | mk side outcome =>
        cases outcome with
        | error error => rfl
        | ok result =>
            dsimp only
            split
            · rfl
            · rfl

theorem untilLoop_none (targetNodeId : String) (remaining : Nat) (state : State World) :
    untilLoop .none executor runtime targetNodeId remaining state =
      ((Executor.untilLoop executor runtime targetNodeId remaining state).1,
        .ok (Executor.untilLoop executor runtime targetNodeId remaining state).2) := by
  induction remaining generalizing state with
  | zero => rfl
  | succ remaining ih =>
      unfold untilLoop Executor.untilLoop
      cases state.stack with
      | nil => rfl
      | cons entry rest =>
          dsimp only
          rw [untilBody_none]
          cases Executor.untilBody executor runtime targetNodeId state entry rest with
          | mk after exit =>
              cases exit with
              | some exit => rfl
              | none => exact ih after

theorem executeUntil_none (rollbackOnFailure : Bool) (world : World) (targetNodeId : String)
    (inputData : Value) (iterations : Nat) :
    let ended := executeUntil .none executor runtime rollbackOnFailure world targetNodeId inputData
      iterations
    (ended.state, ended.outcome) =
      Executor.executeUntil executor runtime world targetNodeId inputData iterations := by
  unfold executeUntil Executor.executeUntil
  split
  · rfl
  · cases executor.snapshot.findStartNodesForTarget targetNodeId with
    | error error => rfl
    | ok startNodes =>
        have unopened (started : State World) :
            (if rollbackOnFailure then Faults.none.savepoint started else none) = none := by
          split <;> rfl
        dsimp only
        rw [unopened, untilLoop_none]
        dsimp only
        unfold untilRun
        cases Executor.untilLoop executor runtime targetNodeId iterations
            ((State.initial world).pushStartNodes startNodes (launchInput inputData)) with
        | mk state exit =>
            unfold finishUntil
            cases exit with
            | nodeFailed nodeId error =>
                dsimp only [Faults.none]
                split
                · rfl
                · split
                  · rfl
                  · rfl
            | targetReached result =>
                dsimp only [Faults.none]
                split
                · rfl
                · rfl
            | stackEmpty =>
                dsimp only
                split
                · rfl
                · rfl

end Faultless

/-!
## The discipline
-/

section Discipline

variable {World : Type}

/-- The savepoint is never opened, or it is opened and then closed once: kept if the
method reports success, rolled back if it raises or reports failure. -/
def Ended.Disciplined {Result : Type} (succeeds : Result → Prop) (ended : Ended World Result) :
    Prop :=
  ended.events = [] ∨
    (∃ result, ended.outcome = .ok result ∧ succeeds result) ∧
      ended.events = [.opened, .released] ∨
    (¬ ∃ result, ended.outcome = .ok result ∧ succeeds result) ∧
      ended.events = [.opened, .rolledBack]

/-- What `execute_until` reports as a success. -/
def Completed (status : PreviewStatus) : Prop := ∃ result, status = .completed result

variable (faults : Faults World) (executor : WorkflowExecutor) (runtime : Runtime World)
  (world : World) (inputData : Value)

/-- The loop of `execute` behind a savepoint that could be opened ends in this state. -/
def EndsLoop (startNodeIds : List String) (left : State World × Option String) : Prop :=
  ∃ startNodes, executeStartNodes executor startNodeIds = .ok startNodes ∧
    let started := State.launched world startNodes inputData
    faults.savepoint started = none ∧
      left = executeLoop faults executor runtime maxIterations started

/-- What closing the savepoint behind the loop of `execute` has to come to. A step
that raises behind the release is harmless only if the release has rolled back. -/
def ExecuteCloses : State World × Option String → Prop
  | (state, some _) => faults.close true state = some .rolledBack
  | (state, none) =>
      if maxIterations ≤ state.iteration then faults.close true state = some .rolledBack
      else
        match displayAndNotify faults executor runtime state with
        | .error _ => faults.close false state = some .rolledBack
        | .ok _ => faults.close false state = some .released

def EndsUntilLoop (targetNodeId : String) (iterations : Nat) (left : State World × UntilLeft) :
    Prop :=
  ∃ startNodes, targetNodeId ≠ "" ∧
    executor.snapshot.findStartNodesForTarget targetNodeId = .ok startNodes ∧
    let started := State.launched world startNodes inputData
    faults.savepoint started = none ∧
      left = untilLoop faults executor runtime targetNodeId iterations started

/-- What closing the savepoint behind the loop of `execute_until` has to come to. A
step that raises outside of `_execute_node` leaves it open. -/
def UntilCloses (iterations : Nat) : State World × UntilLeft → Prop
  | (_, .error _) => False
  | (state, .ok (.targetReached _)) =>
      if iterations ≤ state.iteration then faults.close true state = some .rolledBack
      else
        match faults.contextSnapshot state with
        | some _ => faults.close false state = some .rolledBack
        | none => faults.close false state = some .released
  | (state, .ok (.nodeFailed _ _)) | (state, .ok .stackEmpty) =>
      faults.close true state = some .rolledBack

variable {faults executor runtime world inputData}

variable (faults executor) in
theorem handleFailure_ended (held : Bool) (state : State World) (events : List Event)
    (error : String) :
    (handleFailure faults executor held state events error).events =
        events ++ releaseSavepoint faults state held true ∧
      ∃ raised, (handleFailure faults executor held state events error).outcome =
        .error raised := by
  unfold handleFailure
  dsimp only
  split
  · exact ⟨rfl, _, rfl⟩
  · exact ⟨rfl, _, rfl⟩

section Closed

variable {Result : Type} {succeeds : Result → Prop} {ended : Ended World Result}
  {closed : Option Event}

/-- A method that reports no success has to have rolled back. -/
theorem Ended.disciplined_iff_rolledBack (events : ended.events = [.opened] ++ closed.toList)
    (unreported : ¬ ∃ result, ended.outcome = .ok result ∧ succeeds result) :
    ended.Disciplined succeeds ↔ closed = some .rolledBack := by
  constructor
  · rintro (none | ⟨reported, _⟩ | ⟨_, same⟩)
    · rw [events] at none
      cases none
    · exact absurd reported unreported
    · rw [events] at same
      cases closed with
      | none => cases same
      | some event =>
          cases same
          rfl
  · rintro rfl
    exact .inr (.inr ⟨unreported, events⟩)

theorem Ended.disciplined_iff_of_error (events : ended.events = [.opened] ++ closed.toList)
    {error : String} (raised : ended.outcome = .error error) :
    ended.Disciplined succeeds ↔ closed = some .rolledBack := by
  refine ended.disciplined_iff_rolledBack events ?_
  rintro ⟨result, returned, _⟩
  rw [raised] at returned
  cases returned

/-- A method that reports success has to have released. -/
theorem Ended.disciplined_iff_released (events : ended.events = [.opened] ++ closed.toList)
    {result : Result} (returned : ended.outcome = .ok result) (reported : succeeds result) :
    ended.Disciplined succeeds ↔ closed = some .released := by
  constructor
  · rintro (none | ⟨_, same⟩ | ⟨unreported, _⟩)
    · rw [events] at none
      cases none
    · rw [events] at same
      cases closed with
      | none => cases same
      | some event =>
          cases same
          rfl
    · exact absurd ⟨result, returned, reported⟩ unreported
  · rintro rfl
    exact .inr (.inl ⟨⟨result, returned, reported⟩, events⟩)

end Closed

variable (runtime) in
theorem endsLoop_iff {startNodeIds : List String} {startNodes : List String}
    (found : executeStartNodes executor startNodeIds = .ok startNodes)
    (opening : faults.savepoint (State.launched world startNodes inputData) = none)
    (left : State World × Option String) :
    EndsLoop faults executor runtime world inputData startNodeIds left ↔
      left = executeLoop faults executor runtime maxIterations
        (State.launched world startNodes inputData) := by
  constructor
  · rintro ⟨others, starts, _, ended⟩
    rw [found, Except.ok.injEq] at starts
    rw [ended, starts]
  · intro ended
    exact ⟨startNodes, found, opening, ended⟩

variable (runtime) in
theorem endsUntilLoop_iff {targetNodeId : String} {startNodes : List String}
    (named : targetNodeId ≠ "")
    (found : executor.snapshot.findStartNodesForTarget targetNodeId = .ok startNodes)
    (opening : faults.savepoint (State.launched world startNodes inputData) = none)
    (iterations : Nat) (left : State World × UntilLeft) :
    EndsUntilLoop faults executor runtime world inputData targetNodeId iterations left ↔
      left = untilLoop faults executor runtime targetNodeId iterations
        (State.launched world startNodes inputData) := by
  constructor
  · rintro ⟨others, _, starts, _, ended⟩
    rw [found, Except.ok.injEq] at starts
    rw [ended, starts]
  · intro ended
    exact ⟨startNodes, named, found, opening, ended⟩

theorem finishExecute_disciplined_iff (left : State World × Option String) :
    (finishExecute faults executor runtime true [.opened] left).Disciplined (fun _ => True) ↔
      ExecuteCloses faults executor runtime left := by
  obtain ⟨state, raised⟩ := left
  cases raised with
  | some error =>
      obtain ⟨events, fault, outcome⟩ :=
        handleFailure_ended faults executor true state [.opened] error
      exact Ended.disciplined_iff_of_error events outcome
  | none =>
      dsimp only [finishExecute, ExecuteCloses]
      by_cases capped : maxIterations ≤ state.iteration
      · rw [if_pos capped, if_pos capped]
        obtain ⟨events, fault, outcome⟩ :=
          handleFailure_ended faults executor true state [.opened] exceededError
        exact Ended.disciplined_iff_of_error events outcome
      · rw [if_neg capped, if_neg capped]
        cases displayAndNotify faults executor runtime state with
        | error fault =>
            -- the savepoint is gone when the failure is handled
            obtain ⟨events, fault, outcome⟩ := handleFailure_ended faults executor false state
              ([.opened] ++ releaseSavepoint faults state true false) fault
            rw [show releaseSavepoint faults state false true = [] from rfl,
              List.append_nil] at events
            exact Ended.disciplined_iff_of_error events outcome
        | ok output => exact Ended.disciplined_iff_released rfl rfl trivial

theorem execute_disciplined_iff (startNodeIds : List String) :
    (execute faults executor runtime true world inputData startNodeIds).Disciplined
        (fun _ => True) ↔
      ∀ left, EndsLoop faults executor runtime world inputData startNodeIds left →
        ExecuteCloses faults executor runtime left := by
  unfold execute
  cases found : executeStartNodes executor startNodeIds with
  | error error =>
      refine iff_of_true (.inl (handleFailure_ended faults executor false _ [] error).1) ?_
      rintro left ⟨startNodes, starts, _⟩
      rw [found] at starts
      cases starts
  | ok startNodes =>
      cases opening : faults.savepoint (State.launched world startNodes inputData) with
      | some fault =>
          dsimp only
          rw [if_pos rfl, show faults.savepoint ((State.initial world).pushStartNodes startNodes
            (launchInput inputData)) = some fault from opening]
          refine iff_of_true (.inl (handleFailure_ended faults executor false _ [] fault).1) ?_
          rintro left ⟨others, starts, opened, _⟩
          rw [found, Except.ok.injEq] at starts
          rw [← starts, opening] at opened
          cases opened
      | none =>
          dsimp only
          rw [if_pos rfl, show faults.savepoint ((State.initial world).pushStartNodes startNodes
            (launchInput inputData)) = none from opening]
          dsimp only
          rw [if_pos rfl, finishExecute_disciplined_iff]
          have ends := endsLoop_iff runtime found opening
          constructor
          · intro closes left ended
            rw [(ends left).mp ended]
            exact closes
          · intro closes
            exact closes _ ((ends _).mpr rfl)

theorem finishUntil_disciplined_iff (targetNodeId : String) (iterations : Nat)
    (left : State World × UntilLeft) :
    (finishUntil faults true targetNodeId iterations [.opened] left).Disciplined Completed ↔
      UntilCloses faults iterations left := by
  obtain ⟨state, left⟩ := left
  cases left with
  | error fault =>
      refine iff_of_false ?_ id
      rintro (empty | ⟨_, closed⟩ | ⟨_, closed⟩)
      · cases empty
      · cases closed
      · cases closed
  | ok exit =>
      cases exit with
      | nodeFailed nodeId error =>
          dsimp only [finishUntil, UntilCloses]
          split
          · exact Ended.disciplined_iff_of_error rfl rfl
          · split
            · exact Ended.disciplined_iff_of_error rfl rfl
            · refine Ended.disciplined_iff_rolledBack rfl ?_
              rintro ⟨status, returned, result, completed⟩
              cases faulty : faults.contextSnapshot state with
              | some fault =>
                  rw [faulty] at returned
                  cases returned
              | none =>
                  rw [faulty, completed] at returned
                  cases returned
      | targetReached result =>
          dsimp only [finishUntil, UntilCloses]
          by_cases capped : iterations ≤ state.iteration
          · rw [if_pos capped, if_pos capped]
            exact Ended.disciplined_iff_of_error rfl rfl
          · rw [if_neg capped, if_neg capped]
            cases faults.contextSnapshot state with
            | some fault => exact Ended.disciplined_iff_of_error rfl rfl
            | none => exact Ended.disciplined_iff_released rfl rfl ⟨result, rfl⟩
      | stackEmpty => exact Ended.disciplined_iff_of_error rfl rfl

theorem executeUntil_disciplined_iff (targetNodeId : String) (iterations : Nat) :
    (executeUntil faults executor runtime true world targetNodeId inputData
        iterations).Disciplined Completed ↔
      ∀ left, EndsUntilLoop faults executor runtime world inputData targetNodeId iterations left →
        UntilCloses faults iterations left := by
  unfold executeUntil
  by_cases unnamed : targetNodeId = ""
  · dsimp only
    rw [if_pos unnamed]
    refine iff_of_true (.inl rfl) ?_
    rintro left ⟨_, named, _⟩
    exact absurd unnamed named
  · dsimp only
    rw [if_neg unnamed]
    cases found : executor.snapshot.findStartNodesForTarget targetNodeId with
    | error error =>
        refine iff_of_true (.inl rfl) ?_
        rintro left ⟨_, _, starts, _⟩
        rw [found] at starts
        cases starts
    | ok startNodes =>
        cases opening : faults.savepoint (State.launched world startNodes inputData) with
        | some fault =>
            dsimp only
            rw [if_pos rfl, show faults.savepoint ((State.initial world).pushStartNodes startNodes
              (launchInput inputData)) = some fault from opening]
            refine iff_of_true (.inl rfl) ?_
            rintro left ⟨others, _, starts, opened, _⟩
            rw [found, Except.ok.injEq] at starts
            rw [← starts, opening] at opened
            cases opened
        | none =>
            dsimp only
            rw [if_pos rfl, show faults.savepoint ((State.initial world).pushStartNodes startNodes
              (launchInput inputData)) = none from opening]
            dsimp only
            rw [if_pos rfl, finishUntil_disciplined_iff]
            have ends := endsUntilLoop_iff runtime unnamed found opening iterations
            constructor
            · intro closes left ended
              rw [(ends left).mp ended]
              exact closes
            · intro closes
              exact closes _ ((ends _).mpr rfl)

end Discipline

/-- The savepoint discipline of both methods: it is kept if and only if closing comes
to what it has to where the loop has ended, and the loop of `execute_until` does not
raise outside of `_execute_node`. -/
theorem savepoint_disciplined_iff {World : Type} (faults : Faults World)
    (executor : WorkflowExecutor) (runtime : Runtime World) (world : World) (inputData : Value)
    (startNodeIds : List String) (targetNodeId : String) (iterations : Nat) :
    ((execute faults executor runtime true world inputData startNodeIds).Disciplined
        (fun _ => True) ↔
      ∀ left, EndsLoop faults executor runtime world inputData startNodeIds left →
        ExecuteCloses faults executor runtime left) ∧
    ((executeUntil faults executor runtime true world targetNodeId inputData
        iterations).Disciplined Completed ↔
      ∀ left, EndsUntilLoop faults executor runtime world inputData targetNodeId iterations left →
        UntilCloses faults iterations left) :=
  ⟨execute_disciplined_iff startNodeIds, executeUntil_disciplined_iff targetNodeId iterations⟩

/-- A connection handle that is not a string is matched against a pattern. -/
def unroutable : Faults Unit :=
  { Faults.none with
    routeOutputs := fun _ => some "expected string or bytes-like object, got 'int'" }

/-- An output with the key `items` is normalised. -/
def abnormal : Faults Unit :=
  { Faults.none with finish := fun _ => some "'list' object is not callable" }

theorem savepoint_left_behind :
    (executeUntil unroutable twoRoots echoRuntime true () "n_2" (.int 7)).events = [.opened] ∧
      ¬ (executeUntil unroutable twoRoots echoRuntime true () "n_2" (.int 7)).Disciplined
        Completed ∧
      (execute abnormal twoRoots echoRuntime true () (.int 7) []).events = [.opened, .released] ∧
      (execute abnormal twoRoots echoRuntime true () (.int 7) []).outcome.isOk = false ∧
      ¬ (execute abnormal twoRoots echoRuntime true () (.int 7) []).Disciplined
        (fun _ => True) := by
  have opened : (executeUntil unroutable twoRoots echoRuntime true () "n_2" (.int 7)).events =
      [.opened] := by decide
  have released : (execute abnormal twoRoots echoRuntime true () (.int 7) []).events =
      [.opened, .released] := by decide
  have raised : (execute abnormal twoRoots echoRuntime true () (.int 7) []).outcome =
      .error "'list' object is not callable" := by rfl
  refine ⟨opened, ?_, released, by rw [raised]; rfl, ?_⟩
  · rintro (closed | ⟨_, closed⟩ | ⟨_, closed⟩)
    · rw [opened] at closed
      cases closed
    · rw [opened] at closed
      cases closed
    · rw [opened] at closed
      cases closed
  · rw [@Ended.disciplined_iff_of_error _ _ _ _ (some .released) released _ raised]
    intro same
    cases same

end WorkflowStudio.Executor.Savepoint
