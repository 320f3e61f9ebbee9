import Mathlib.Data.List.Basic

/-! A queue job and the workflow run it executes, as the database has them
between transactions: the job runner, the controller that performs the job, the
buttons of the users, and the synchronisation of the run with its job. -/

set_option autoImplicit false

namespace WorkflowStudio.Queue

inductive JobState where
  | waitDependencies
  | pending
  | enqueued
  | started
  | done
  | cancelled
  | failed
  deriving DecidableEq

inductive RunStatus where
  | pending
  | running
  | completed
  | failed
  | cancelled
  deriving DecidableEq

/-- Times are counted from an arbitrary start. -/
structure Job where
  id : Nat
  uuid : String
  state : JobState := .pending
  retry : Nat := 0
  maxRetries : Nat
  excMessage : Option String := none
  result : Option String := none
  dateStarted : Option Nat := none
  dateCancelled : Option Nat := none

/-- `queueJobState` is the stored copy of the state of the linked job, which
only writes through the object layer refresh. -/
structure WorkflowRun where
  displayName : String
  hasWorkflow : Bool
  status : RunStatus := .pending
  startedAt : Option Nat := none
  completedAt : Option Nat := none
  errorMessage : Option String := none
  errorNodeId : Option String := none
  queueJobId : Option Nat := none
  queueJobUuid : Option String := none
  queueJobState : Option JobState := none

structure Database where
  job : Job
  run : WorkflowRun

def firstText (first second : Option String) (text : String) : String :=
  match first.filter (· ≠ ""), second.filter (· ≠ "") with
  | some found, _ => found
  | none, some found => found
  | none, none => text

/-!
## State changes of the job
-/

namespace Job

def setPending (job : Job) (result : Option String) (resetRetry : Bool) : Job :=
  { job with
    state := .pending
    dateStarted := none
    dateCancelled := none
    retry := if resetRetry then 0 else job.retry
    result := result.or job.result }

def setStarted (job : Job) (now : Nat) : Job :=
  { job with state := .started, dateStarted := some now }

def setDone (job : Job) (result : Option String) : Job :=
  { job with state := .done, result := result.or job.result }

def setCancelled (job : Job) (now : Nat) (result : Option String) : Job :=
  { job with state := .cancelled, dateCancelled := some now, result := result.or job.result }

def setFailed (job : Job) (excMessage : String) : Job :=
  { job with state := .failed, excMessage := some excMessage }

end Job

/-!
## Synchronisation of the run
-/

def syncLinkedWorkflowRun (now : Nat) (job : Job) (run : WorkflowRun) : WorkflowRun :=
  let linked := { run with queueJobId := some job.id, queueJobUuid := some job.uuid }
  if job.state = .started ∧ run.status = .pending then
    { linked with
      status := .running
      startedAt := run.startedAt.or (job.dateStarted.or (some now)) }
  else if job.state = .cancelled ∧
      run.status ≠ .completed ∧ run.status ≠ .failed ∧ run.status ≠ .cancelled then
    { linked with
      status := .cancelled
      completedAt := run.completedAt.or (job.dateCancelled.or (some now))
      errorMessage := none
      errorNodeId := none }
  else if job.state = .failed ∧ run.status = .pending then
    { linked with
      status := .failed
      completedAt := run.completedAt.or (some now)
      errorMessage := some (firstText job.excMessage job.result
        "Queued workflow job failed before execution.") }
  else linked

namespace Database

/-- `Job.store`: the write of the job synchronises the run and refreshes the
stored copy of the state. -/
def store (database : Database) (now : Nat) (job : Job) : Database where
  job := job
  run := { syncLinkedWorkflowRun now job database.run with queueJobState := some job.state }

/-!
## Performing the job
-/

end Database

/-- What the pipeline does between `_init_execution` and the end of `launch`. -/
inductive Execution where
  /-- The executor returns; `success` is what its result says. -/
  | returned (success : Bool) (error : Option String) (errorNodeId : Option String)
      (response : String)
  /-- The executor raises and `_persist_results` still runs. -/
  | raised (error : String) (errorNodeId : Option String)
  /-- A handler of the pipeline itself raises. -/
  | broken (error : String)

def launch (now : Nat) (execution : Execution) (run : WorkflowRun) :
    WorkflowRun × Except String String :=
  let running := { run with status := .running, startedAt := some now }
  match execution with
  | .returned true _ _ response =>
      ({ running with status := .completed, completedAt := some now }, .ok response)
  | .returned false error errorNodeId response =>
      ({ running with
        status := .failed
        completedAt := some now
        errorMessage := some (error.getD "")
        errorNodeId := (errorNodeId.filter (· ≠ "")).or running.errorNodeId }, .ok response)
  | .raised error errorNodeId =>
      ({ running with
        status := .failed
        completedAt := some now
        errorMessage := some error
        errorNodeId := (errorNodeId.filter (· ≠ "")).or running.errorNodeId }, .error error)
  | .broken error => (running, .error error)

/-- The link by the uuid of the job, which `store` and the launch have set before. -/
def syncQueueJobLink (job : Job) (run : WorkflowRun) : WorkflowRun :=
  if run.queueJobUuid = some job.uuid ∧ run.queueJobId = none then
    { run with queueJobId := some job.id, queueJobState := some job.state }
  else run

/-- The run in the transaction, and the result or the exception of the job;
a run that is cancelled is left alone. -/
def queueJobExecute (now : Nat) (execution : Execution) (job : Job) (run : WorkflowRun) :
    WorkflowRun × Except String (Option String) :=
  if run.status = .cancelled then (run, .ok none)
  else
    let linked := syncQueueJobLink job run
    if linked.hasWorkflow = false then
      (linked, .error s!"Workflow run '{linked.displayName}' has no workflow.")
    else
      match launch now execution linked with
      | (launched, .ok response) => (launched, .ok (some response))
      | (launched, .error error) =>
          if launched.status ≠ .failed ∧ launched.status ≠ .completed ∧
              launched.status ≠ .cancelled then
            ({ launched with
              status := .failed
              completedAt := some now
              errorMessage := some "Queued workflow execution failed before completion." },
              .error error)
          else (launched, .error error)

inductive Attempt where
  | executes (execution : Execution)
  /-- A transaction conflict, which the controller turns into a retry. -/
  | conflict (message : String)
  /-- A retryable error of the job itself. -/
  | retryable (message : String) (ignoreRetry : Bool)
  /-- The worker dies, and its transaction with it. -/
  | killed

/-- Whether the error of a `retryable` attempt becomes a failure of the job. -/
def Job.exhausts (job : Job) (ignoreRetry : Bool) : Bool :=
  !ignoreRetry && job.maxRetries != 0 && decide (job.maxRetries ≤ job.retry + 1)

namespace Database

/-- The handlers of `_runjob`: the transaction of the job is rolled back, and
the job is written in a new cursor. -/
def postpone (database : Database) (now retry : Nat) (message : String) : Database :=
  database.store now ({ database.job with retry := retry }.setPending (some message) false)

def fail (database : Database) (now : Nat) (message : String) : Database :=
  database.store now ({ database.job with retry := database.job.retry + 1 }.setFailed message)

/-- `_runjob`: the writes of the run and of the job are committed together, or
the run keeps what the database has. -/
def runjob (database : Database) (now : Nat) : Attempt → Database
  | .executes execution =>
      match queueJobExecute now execution database.job database.run with
      | (run, .ok result) =>
          { database with run := run }.store now
            ({ database.job with retry := database.job.retry + 1 }.setDone result)
      | (_, .error message) => database.fail now message
  | .conflict message => database.postpone now (database.job.retry + 1) message
  | .retryable message ignoreRetry =>
      if database.job.exhausts ignoreRetry then
        database.fail now s!"Max. retries ({database.job.maxRetries}) reached: {message}"
      else
        database.postpone now
          (if ignoreRetry then database.job.retry else database.job.retry + 1) message
  | .killed => database

/-!
## Runner and users
-/

/-- The runner writes the state in SQL. -/
def setJobEnqueued (database : Database) : Database :=
  { database with job := { database.job with state := .enqueued } }

/-- `_acquire_job`; whether the lock is obtained afterwards changes nothing here. -/
def acquireJob (database : Database) (now : Nat) : Database :=
  if database.job.state = .enqueued then database.store now (database.job.setStarted now)
  else database

def performJob (database : Database) (now : Nat) (attempt : Attempt) : Database :=
  if database.job.state = .started then database.runjob now attempt else database

/-- The runner finds the job enqueued or started and not locked; SQL again. -/
def requeueDeadJobs (database : Database) : Database :=
  if database.job.state = .enqueued ∨ database.job.state = .started then
    { database with
      job := { database.job with
        state := if database.job.maxRetries ≠ 0 ∧ database.job.maxRetries < database.job.retry then
          .failed else .pending
        retry := if database.job.state = .started then database.job.retry + 1
          else database.job.retry } }
  else database

def Closable (state : JobState) : Prop :=
  state = .waitDependencies ∨ state = .pending ∨ state = .enqueued ∨ state = .failed

instance (state : JobState) : Decidable (Closable state) :=
  inferInstanceAs (Decidable (_ ∨ _))

def buttonDone (database : Database) (now : Nat) (user : String) : Database :=
  if Closable database.job.state then
    database.store now (database.job.setDone (some s!"Manually set to done by {user}"))
  else database

def buttonCancelled (database : Database) (now : Nat) (user : String) : Database :=
  if Closable database.job.state then
    database.store now (database.job.setCancelled now (some s!"Cancelled by {user}"))
  else database

def requeue (database : Database) (now : Nat) : Database :=
  if database.job.state = .failed ∨ database.job.state = .done ∨
      database.job.state = .cancelled then
    database.store now (database.job.setPending none true)
  else database

/-- `queue_can_cancel`, from the stored copy of the state. -/
def queueCanCancel (run : WorkflowRun) : Bool :=
  run.queueJobId.isSome && (run.queueJobState == some .pending ||
    run.queueJobState == some .enqueued || run.queueJobState == some .waitDependencies)

def cancelRequested (database : Database) (now : Nat) (user : String) : Database :=
  let linked := { database with run := syncQueueJobLink database.job database.run }
  if queueCanCancel linked.run then
    let cancelled := linked.buttonCancelled now user
    { cancelled with
      run := { cancelled.run with
        status := .cancelled
        completedAt := some now
        errorMessage := none
        errorNodeId := none } }
  else linked

/-- What `_queue_intercept` leaves: the run and its job, both pending and linked. -/
def launched (id : Nat) (uuid displayName : String) (hasWorkflow : Bool) (maxRetries now : Nat) :
    Database :=
  let run : WorkflowRun := { displayName := displayName, hasWorkflow := hasWorkflow }
  let job : Job := { id := id, uuid := uuid, maxRetries := maxRetries }
  { job := job, run := run : Database }.store now job

end Database

inductive Step where
  | setJobEnqueued
  | acquireJob (now : Nat)
  | performJob (now : Nat) (attempt : Attempt)
  | requeueDeadJobs
  | buttonDone (now : Nat) (user : String)
  | buttonCancelled (now : Nat) (user : String)
  | requeue (now : Nat)
  | cancelRequested (now : Nat) (user : String)

def Step.apply (database : Database) : Step → Database
  | .setJobEnqueued => database.setJobEnqueued
  | .acquireJob now => database.acquireJob now
  | .performJob now attempt => database.performJob now attempt
  | .requeueDeadJobs => database.requeueDeadJobs
  | .buttonDone now user => database.buttonDone now user
  | .buttonCancelled now user => database.buttonCancelled now user
  | .requeue now => database.requeue now
  | .cancelRequested now user => database.cancelRequested now user

end WorkflowStudio.Queue
