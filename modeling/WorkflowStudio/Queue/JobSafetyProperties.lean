import WorkflowStudio.Lib.GuardedRun
import WorkflowStudio.Queue.Job

/-! A job that ended has a run that ended. The writes of the run belong to the
transaction of the job, and the synchronisation after a roll-back knows pending
runs only: the states of a run of steps are all safe exactly when no performance
fails while the run is marked as running, and no job is closed around its run. -/

set_option autoImplicit false

namespace WorkflowStudio.Queue

open Lib GuardedRun

def JobState.Terminal (state : JobState) : Prop :=
  state = .done ∨ state = .failed ∨ state = .cancelled

def RunStatus.Terminal (status : RunStatus) : Prop :=
  status = .completed ∨ status = .failed ∨ status = .cancelled

instance (status : RunStatus) : Decidable status.Terminal :=
  inferInstanceAs (Decidable (_ ∨ _))

def Database.Safe (database : Database) : Prop :=
  database.job.state.Terminal → database.run.status.Terminal

/-- The performance ends in an exception that the controller does not retry. -/
def Attempt.Fails (job : Job) (run : WorkflowRun) : Attempt → Prop
  | .executes (.returned _ _ _ _) => run.hasWorkflow = false
  | .executes (.raised _ _) | .executes (.broken _) => True
  | .retryable _ ignoreRetry => job.exhausts ignoreRetry = true
  | .conflict _ | .killed => False

/-- The job does not fail while its run is running, and it is not closed by hand,
or found dead too often, before its run ended. -/
def Step.Synchronized (database : Database) : Step → Prop
  | .setJobEnqueued | .acquireJob _ | .buttonCancelled _ _ | .requeue _ | .cancelRequested _ _ =>
      True
  | .performJob _ attempt => database.job.state = .started → database.run.status = .running →
      ¬ attempt.Fails database.job database.run
  | .requeueDeadJobs => (database.job.state = .enqueued ∨ database.job.state = .started) →
      database.job.maxRetries ≠ 0 → database.job.maxRetries < database.job.retry →
      database.run.status.Terminal
  | .buttonDone _ _ => Database.Closable database.job.state → database.run.status.Terminal

/-!
## The synchronisation
-/

theorem RunStatus.terminal_iff (status : RunStatus) :
    status.Terminal ↔ status ≠ .pending ∧ status ≠ .running := by
  cases status <;> simp [RunStatus.Terminal]

theorem sync_status (now : Nat) (job : Job) (run : WorkflowRun) :
    (syncLinkedWorkflowRun now job run).status =
      if job.state = .started ∧ run.status = .pending then .running
      else if job.state = .cancelled ∧ ¬ run.status.Terminal then .cancelled
      else if job.state = .failed ∧ run.status = .pending then .failed
      else run.status := by
  have ended : run.status.Terminal ↔
      ¬ (run.status ≠ .completed ∧ run.status ≠ .failed ∧ run.status ≠ .cancelled) := by
    cases run.status <;> simp [RunStatus.Terminal]
  unfold syncLinkedWorkflowRun
  simp only [ended, not_not]
  split
  · rfl
  · split
    · rfl
    · split <;> rfl

theorem sync_terminal {now : Nat} {job : Job} {run : WorkflowRun} (ended : run.status.Terminal) :
    (syncLinkedWorkflowRun now job run).status = run.status := by
  obtain ⟨notPending, _⟩ := run.status.terminal_iff.mp ended
  simp [sync_status, notPending, ended]

namespace Database

variable {database : Database}

theorem store_done {now : Nat} {job : Job} (state : job.state = .done) :
    (database.store now job).Safe ↔ database.run.status.Terminal := by
  have status : (database.store now job).run.status = database.run.status := by
    simp [store, sync_status, state]
  unfold Safe
  rw [status]
  constructor
  · intro safe
    exact safe (.inl state)
  · intro ended _
    exact ended

theorem store_failed {now : Nat} {job : Job} (state : job.state = .failed) :
    (database.store now job).Safe ↔ database.run.status ≠ .running := by
  have status : (database.store now job).run.status =
      if database.run.status = .pending then .failed else database.run.status := by
    simp [store, sync_status, state]
  unfold Safe
  rw [status]
  constructor
  · intro safe running
    have ended := safe (.inr (.inl state))
    simp [running, RunStatus.Terminal] at ended
  · intro notRunning _
    split
    · exact .inr (.inl rfl)
    · next notPending => exact (RunStatus.terminal_iff _).mpr ⟨notPending, notRunning⟩

theorem store_cancelled {now : Nat} {job : Job} (state : job.state = .cancelled) :
    (database.store now job).run.status.Terminal := by
  simp only [store, sync_status, state, reduceCtorEq, false_and, ↓reduceIte, true_and]
  split
  · exact .inr (.inr rfl)
  · next ended => exact not_not.mp ended

theorem safe_of_open (state : ¬ database.job.state.Terminal) : database.Safe :=
  fun ended => absurd ended state

end Database

/-!
## Performances
-/

theorem syncQueueJobLink_keeps (job : Job) (run : WorkflowRun) :
    (syncQueueJobLink job run).status = run.status ∧
      (syncQueueJobLink job run).hasWorkflow = run.hasWorkflow := by
  unfold syncQueueJobLink
  split <;> exact ⟨rfl, rfl⟩

theorem queueJobExecute_ok {now : Nat} {execution : Execution} {job : Job}
    {run performed : WorkflowRun} {result : Option String}
    (executed : queueJobExecute now execution job run = (performed, .ok result)) :
    performed.status.Terminal ∧
      (run.status = .cancelled ∨ ¬ (Attempt.executes execution).Fails job run) := by
  unfold queueJobExecute at executed
  split at executed
  · next cancelled =>
      cases executed
      exact ⟨.inr (.inr cancelled), .inl cancelled⟩
  · dsimp only at executed
    split at executed
    · cases executed
    · next present =>
        rw [(syncQueueJobLink_keeps job run).2] at present
        cases execution with
        | returned success error errorNodeId response =>
            cases success with
            | true =>
                cases executed
                exact ⟨.inl rfl, .inr present⟩
            | false =>
                cases executed
                exact ⟨.inr (.inl rfl), .inr present⟩
        | raised error errorNodeId =>
            simp only [launch] at executed
            split at executed <;> cases executed
        | broken error =>
            simp only [launch] at executed
            split at executed <;> cases executed

theorem queueJobExecute_error {now : Nat} {execution : Execution} {job : Job}
    {run performed : WorkflowRun} {message : String}
    (executed : queueJobExecute now execution job run = (performed, .error message)) :
    (Attempt.executes execution).Fails job run := by
  unfold queueJobExecute at executed
  split at executed
  · cases executed
  · dsimp only at executed
    split at executed
    · next missing =>
        rw [(syncQueueJobLink_keeps job run).2] at missing
        cases execution with
        | returned success error errorNodeId response => exact missing
        | raised error errorNodeId => trivial
        | broken error => trivial
    · cases execution with
      | returned success error errorNodeId response =>
          cases success <;> cases executed
      | raised error errorNodeId => trivial
      | broken error => trivial

namespace Database

variable {database : Database}

theorem runjob_safe (started : database.job.state = .started) (now : Nat) (attempt : Attempt) :
    (database.runjob now attempt).Safe ↔
      (database.run.status = .running → ¬ attempt.Fails database.job database.run) := by
  have failing : ∀ message, (database.fail now message).Safe ↔ database.run.status ≠ .running :=
    fun message => store_failed rfl
  have postponed : ∀ retry message, (database.postpone now retry message).Safe :=
    fun retry message => safe_of_open (by simp [postpone, store, Job.setPending, JobState.Terminal])
  cases attempt with
  | executes execution =>
      cases executed : queueJobExecute now execution database.job database.run with
      | mk performed outcome =>
          cases outcome with
          | ok result =>
              obtain ⟨ended, succeeded⟩ := queueJobExecute_ok executed
              simp only [runjob, executed]
              constructor
              · intro _ running
                rcases succeeded with cancelled | succeeded
                · rw [running] at cancelled
                  cases cancelled
                · exact succeeded
              · intro _
                exact (store_done rfl).mpr ended
          | error message =>
              have fails := queueJobExecute_error executed
              simp only [runjob, executed, failing]
              exact ⟨fun safe running => absurd running safe, fun safe running => safe running fails⟩
  | conflict message =>
      simp only [runjob, Attempt.Fails, not_false_eq_true, implies_true, iff_true]
      exact postponed _ _
  | retryable message ignoreRetry =>
      simp only [runjob, Attempt.Fails]
      split
      · next exhausted =>
          rw [failing]
          simp [exhausted]
      · next left =>
          simp only [left, Bool.false_eq_true, not_false_eq_true, implies_true, iff_true]
          exact postponed _ _
  | killed =>
      simp only [runjob, Attempt.Fails, not_false_eq_true, implies_true, iff_true]
      exact safe_of_open (by simp [started, JobState.Terminal])

/-- From a safe database, a step leads to a safe one exactly when it is synchronised. -/
theorem safe_step (safe : database.Safe) (step : Step) :
    step.Synchronized database ↔ (step.apply database).Safe := by
  cases step with
  | setJobEnqueued =>
      exact ⟨fun _ => safe_of_open (by simp [Step.apply, setJobEnqueued, JobState.Terminal]),
        fun _ => trivial⟩
  | acquireJob now =>
      refine ⟨fun _ => ?_, fun _ => trivial⟩
      simp only [Step.apply, acquireJob]
      split
      · exact safe_of_open (by simp [store, Job.setStarted, JobState.Terminal])
      · exact safe
  | performJob now attempt =>
      simp only [Step.apply, performJob, Step.Synchronized]
      split
      · next started => simp only [started, forall_const, runjob_safe started]
      · next idle => simp only [idle, false_implies, safe]
  | requeueDeadJobs =>
      simp only [Step.apply, requeueDeadJobs, Step.Synchronized]
      split
      · next found =>
          simp only [found, forall_const]
          split
          · next exceeded =>
              simp only [Safe, JobState.Terminal, exceeded.1, exceeded.2, ne_eq, not_false_eq_true,
                forall_const, reduceCtorEq, or_false, or_true]
          · next left =>
              refine ⟨fun _ => safe_of_open (by simp [JobState.Terminal]), fun _ some exceeded => ?_⟩
              exact absurd ⟨some, exceeded⟩ left
      · next lost => simp only [lost, false_implies, safe]
  | buttonDone now user =>
      simp only [Step.apply, buttonDone, Step.Synchronized]
      split
      · next closable => simp only [closable, forall_const, store_done, Job.setDone]
      · next refused => simp only [refused, false_implies, safe]
  | buttonCancelled now user =>
      refine ⟨fun _ => ?_, fun _ => trivial⟩
      simp only [Step.apply, buttonCancelled]
      split
      · exact fun _ => store_cancelled rfl
      · exact safe
  | requeue now =>
      refine ⟨fun _ => ?_, fun _ => trivial⟩
      simp only [Step.apply, requeue]
      split
      · exact safe_of_open (by simp [store, Job.setPending, JobState.Terminal])
      · exact safe
  | cancelRequested now user =>
      refine ⟨fun _ => ?_, fun _ => trivial⟩
      simp only [Step.apply, cancelRequested]
      split
      · exact fun _ => .inr (.inr rfl)
      · intro ended
        rw [(syncQueueJobLink_keeps _ _).1]
        exact safe ended

/-!
## Runs that ended stay ended
-/

theorem store_terminal {now : Nat} {job : Job} (ended : database.run.status.Terminal) :
    (database.store now job).run.status.Terminal := by
  simp only [store]
  rw [sync_terminal ended]
  exact ended

theorem runjob_terminal (ended : database.run.status.Terminal) (now : Nat) (attempt : Attempt) :
    (database.runjob now attempt).run.status.Terminal := by
  cases attempt with
  | executes execution =>
      cases executed : queueJobExecute now execution database.job database.run with
      | mk performed outcome =>
          simp only [runjob, executed]
          cases outcome with
          | ok result => exact store_terminal (queueJobExecute_ok executed).1
          | error message => exact store_terminal ended
  | conflict message => exact store_terminal ended
  | retryable message ignoreRetry =>
      simp only [runjob]
      split
      · exact store_terminal ended
      · exact store_terminal ended
  | killed => exact ended

theorem terminal_step (ended : database.run.status.Terminal) (step : Step) :
    (step.apply database).run.status.Terminal := by
  cases step with
  | setJobEnqueued => exact ended
  | acquireJob now =>
      simp only [Step.apply, acquireJob]
      split
      · exact store_terminal ended
      · exact ended
  | performJob now attempt =>
      simp only [Step.apply, performJob]
      split
      · exact runjob_terminal ended now attempt
      · exact ended
  | requeueDeadJobs =>
      simp only [Step.apply, requeueDeadJobs]
      split <;> exact ended
  | buttonDone now user =>
      simp only [Step.apply, buttonDone]
      split
      · exact store_terminal ended
      · exact ended
  | buttonCancelled now user =>
      simp only [Step.apply, buttonCancelled]
      split
      · exact store_terminal ended
      · exact ended
  | requeue now =>
      simp only [Step.apply, requeue]
      split
      · exact store_terminal ended
      · exact ended
  | cancelRequested now user =>
      simp only [Step.apply, cancelRequested]
      split
      · exact .inr (.inr rfl)
      · rw [(syncQueueJobLink_keeps _ _).1]
        exact ended

theorem terminal_run (ended : database.run.status.Terminal) (steps : List Step) :
    (GuardedRun.run Step.apply database steps).run.status.Terminal :=
  run_invariant (fun database : Database => database.run.status.Terminal)
    (fun _ step ended => terminal_step ended step) ended steps

end Database

/-- After the launch of a queued run, a job that ended has a run that ended in
every state of a run of steps just when all its steps are synchronised; and a
run that ended is never running again. -/
theorem ended_jobs_have_ended_runs (id : Nat) (uuid displayName : String) (hasWorkflow : Bool)
    (maxRetries now : Nat) (steps : List Step) :
    (Meets Step.apply Step.Synchronized
        (Database.launched id uuid displayName hasWorkflow maxRetries now) steps ↔
      ∀ before, before <+: steps → (run Step.apply
        (Database.launched id uuid displayName hasWorkflow maxRetries now) before).Safe) ∧
    ∀ before after,
      (run Step.apply (Database.launched id uuid displayName hasWorkflow maxRetries now)
        before).run.status.Terminal →
      (run Step.apply (Database.launched id uuid displayName hasWorkflow maxRetries now)
        (before ++ after)).run.status ≠ .running := by
  have started : (Database.launched id uuid displayName hasWorkflow maxRetries now).Safe :=
    Database.safe_of_open (by simp [Database.launched, Database.store, JobState.Terminal])
  constructor
  · have keeps : ∀ (database : Database) (step : Step), database.Safe →
        (step.Synchronized database ↔ (step.apply database).Safe) :=
      fun _ step safe => Database.safe_step safe step
    exact meets_iff keeps started
  · intro before after ended
    unfold run
    rw [List.foldl_append]
    have stays := Database.terminal_run ended after
    exact ((RunStatus.terminal_iff _).mp stays).2

/-- A workflow that raises: the failure of the run is rolled back with the
transaction, the job is failed, and the run is running for ever. -/
theorem failed_job_of_running_run :
    let database := run Step.apply (Database.launched 1 "uuid" "Run 1" true 5 0)
      [.setJobEnqueued, .acquireJob 1, .performJob 2 (.executes (.raised "division by zero" none))]
    database.job.state = .failed ∧ database.run.status = .running ∧ ¬ database.Safe := by
  refine ⟨rfl, rfl, fun safe => ?_⟩
  have ended := safe (.inr (.inl rfl))
  exact absurd ended (by decide)

end WorkflowStudio.Queue
