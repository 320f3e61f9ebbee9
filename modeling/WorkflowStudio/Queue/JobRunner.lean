import WorkflowStudio.Queue.ChannelManager

/-! The job runner and the table of the jobs: the workers and the users write the table,
the database sends notifications of that, and the runner keeps its channel manager up to
date from them and marks the jobs that it hands out as enqueued. -/

set_option autoImplicit false

namespace WorkflowStudio.Queue

open Lib

/-- What `select_jobs` reads of a row and what may change there. The uuid and the
creation date of a job are never written again. -/
structure Values where
  channelName : Option Name
  seq : Nat
  priority : Int
  eta : Option Time
  state : JobState
  moment : eta ≠ some 0

/-- What never changes in the table: the database that it is in, and when each of its
jobs was created. -/
structure JobTable where
  dbName : String
  dateCreated : String → Time

def JobTable.jobData (table : JobTable) (uuid : String) (values : Values) : JobData where
  dbName := table.dbName
  channelName := values.channelName
  uuid
  seq := values.seq
  dateCreated := table.dateCreated uuid
  priority := values.priority
  eta := values.eta
  state := some values.state
  moment := values.moment

/-- The job is handed out. -/
def JobState.Active (state : JobState) : Prop :=
  state = .enqueued ∨ state = .started

instance (state : JobState) : Decidable state.Active :=
  inferInstanceAs (Decidable (_ ∨ _))

def notDone : List JobState := [.waitDependencies, .pending, .enqueued, .started, .failed]

/-- What the runner is doing. It does nothing else while it reads the jobs of the
database for the first time, or while it marks the jobs that were handed out. After an
error it waits before it starts again. -/
inductive Task where
  | initializeDatabases (selected : List (String × Values))
  | idle
  | runJobs (handed : List JobId)
  | failed

/-- `sent` are the notifications that the connection has not received yet. -/
structure JobRunner where
  rows : OrderedMap String Values
  sent : List String
  notifies : List String
  channelManager : ChannelManager
  task : Task

namespace JobRunner

def selectNotDone (rows : OrderedMap String Values) : List (String × Values) :=
  rows.entries.filter fun entry => decide (entry.2.state ∈ notDone)

/-- The runner has connected to the database and has selected its jobs. It listens to the
notifications since before that, so some may be about rows as they were selected. -/
def connect (manager : ChannelManager) (rows : OrderedMap String Values) (sent : List String) :
    JobRunner where
  rows
  sent
  notifies := []
  channelManager := manager
  task := .initializeDatabases (selectNotDone rows)

/-- The trigger `queue_job_notify`. -/
def triggers : Option Values → Option Values → Bool
  | none, none => false
  | some old, none => decide (old.state ≠ .done)
  | _, some _ => true

/-- A transaction of a worker or a user, or of the runner itself: a row is inserted,
updated or deleted. -/
def write (runner : JobRunner) (uuid : String) (values : Option Values) : JobRunner :=
  { runner with
    rows :=
      match values with
      | none => runner.rows.erase uuid
      | some values => runner.rows.set uuid values
    sent :=
      if triggers (runner.rows.get? uuid) values then runner.sent ++ [uuid] else runner.sent }

/-- Some of the notifications arrive, in the order in which they were sent. -/
def receive (runner : JobRunner) (count : Nat) : JobRunner :=
  { runner with
    sent := runner.sent.drop count
    notifies := runner.notifies ++ runner.sent.take count }

section Loop

variable (table : JobTable)

/-- The recovery of the outer loop of `run`, at any time: the jobs are forgotten, and the
runner connects again. -/
def restart (runner : JobRunner) (sent : List String) : JobRunner :=
  connect (runner.channelManager.removeDb table.dbName) runner.rows sent

/-- `notify`, where an assertion that fails is an error of the runner. -/
def notify (runner : JobRunner) (uuid : String) (values : Values) : JobRunner :=
  match runner.channelManager.notify (table.jobData uuid values) with
  | (manager, false) => { runner with channelManager := manager }
  | (manager, true) => { runner with channelManager := manager, task := .failed }

/-- The loop of `initialize_databases`. -/
def initializeNext (runner : JobRunner) : JobRunner :=
  match runner.task with
  | .initializeDatabases [] => { runner with task := .idle }
  | .initializeDatabases ((uuid, values) :: rest) =>
      { runner with task := .initializeDatabases rest }.notify table uuid values
  | _ => runner

/-- The loop of `process_notifications`: the last notification is taken first, and the
row is read again. -/
def processNotification (runner : JobRunner) : JobRunner :=
  match runner.task, runner.notifies.getLast? with
  | .idle, some uuid =>
      let popped := { runner with notifies := runner.notifies.dropLast }
      match runner.rows.get? uuid with
      | some values => popped.notify table uuid values
      | none => { popped with channelManager := runner.channelManager.removeJob uuid }
  | _, _ => runner

end Loop

/-- The jobs that are handed out are marked one after the other by `setJobEnqueued`. -/
def runJobs (runner : JobRunner) (now : Time) : JobRunner :=
  match runner.task with
  | .idle =>
      let outcome := runner.channelManager.getJobsToRun now
      { runner with channelManager := outcome.1, task := .runJobs outcome.2 }
  | _ => runner

/-- The row is written whatever it says by now. -/
def setJobEnqueued (runner : JobRunner) : JobRunner :=
  match runner.task with
  | .runJobs [] => { runner with task := .idle }
  | .runJobs (job :: rest) =>
      let uuid := (runner.channelManager.jobs job).uuid
      match runner.rows.get? uuid with
      | some values =>
          { runner with task := .runJobs rest }.write uuid (some { values with state := .enqueued })
      | none => { runner with task := .runJobs rest }
  | _ => runner

def waitNotification (runner : JobRunner) : JobRunner :=
  match runner.task with
  | .idle => { runner with channelManager := runner.channelManager.getWakeupTime.2 }
  | _ => runner

end JobRunner

inductive RunnerEvent where
  | write (uuid : String) (values : Option Values)
  | receive (count : Nat)
  | initializeNext
  | processNotification
  | runJobs (now : Time)
  | setJobEnqueued
  | waitNotification
  | restart (sent : List String)

namespace JobRunner

def step (table : JobTable) (runner : JobRunner) : RunnerEvent → JobRunner
  | .write uuid values => runner.write uuid values
  | .receive count => runner.receive count
  | .initializeNext => runner.initializeNext table
  | .processNotification => runner.processNotification table
  | .runJobs now => runner.runJobs now
  | .setJobEnqueued => runner.setJobEnqueued
  | .waitNotification => runner.waitNotification
  | .restart sent => runner.restart table sent

/-- The others do not hand jobs out: a worker starts a job that is enqueued, and every
other state that they write is not active. -/
def OnlyRunnerEnqueues (runner : JobRunner) : RunnerEvent → Prop
  | .write uuid (some values) =>
      values.state.Active → ∃ old, runner.rows.get? uuid = some old ∧ old.state.Active
  | _ => True

end JobRunner

end WorkflowStudio.Queue
