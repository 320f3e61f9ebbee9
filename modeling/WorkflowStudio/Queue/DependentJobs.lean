import WorkflowStudio.Queue.DependencyGraph
import WorkflowStudio.Queue.JobRunner

/-! The jobs that depend on others: the transactions of the workers and the users on the
table of the jobs, beside the runner that hands the jobs out. -/

set_option autoImplicit false

namespace WorkflowStudio.Queue

open Lib

/-- The columns `graph_uuid` and `dependencies` of a row. A job that is stored again
writes them as they were, but for jobs that no longer exist, which are skipped wherever
the columns are read. -/
structure Dependencies where
  graphUuid : Option String := none
  dependsOn : List String := []
  reverseDependsOn : List String := []

/-- A job that was built but not stored. -/
structure GeneratedJob where
  dependencies : Dependencies := {}
  state : JobState := .pending

/-- The table of the jobs with its runner. `waking` are the jobs that a worker has
committed as done, and whose dependent jobs it has yet to update. -/
structure JobQueue where
  runner : JobRunner
  dependencies : String → Dependencies
  created : List String
  waking : List String

/-!
## Building the jobs of a graph
-/

/-- `add` to a set, which is listed in the order in which it was filled. -/
def insertOnce (item : String) (items : List String) : List String :=
  if item ∈ items then items else items ++ [item]

/-- `neighbour.add_depends({vertex})`, which changes both jobs. -/
def addDepends (jobs : String → GeneratedJob) (vertex neighbour : String) :
    String → GeneratedJob := fun uuid =>
  let dependencies := (jobs uuid).dependencies
  { dependencies := { dependencies with
      dependsOn :=
        if uuid = neighbour then insertOnce vertex dependencies.dependsOn
        else dependencies.dependsOn
      reverseDependsOn :=
        if uuid = vertex then insertOnce neighbour dependencies.reverseDependsOn
        else dependencies.reverseDependsOn }
    state :=
      if uuid = neighbour ∧ (jobs vertex).state ≠ .done then .waitDependencies
      else (jobs uuid).state }

/-- The uuids of the jobs are those of the vertices. A job cannot depend on itself. -/
def buildJobs (graph : Graph String) (graphUuid : String) : Option (String → GeneratedJob) :=
  if graph.edges.any fun edge => decide (edge.1 = edge.2) then none
  else
    some (graph.edges.foldl (fun jobs edge => addDepends jobs edge.1 edge.2) fun _ =>
      { dependencies := { graphUuid := if graph.vertices.length = 1 then none else some graphUuid } })

namespace JobQueue

def values? (queue : JobQueue) (uuid : String) : Option Values :=
  queue.runner.rows.get? uuid

def write (queue : JobQueue) (uuid : String) (values : Option Values) : JobQueue :=
  { queue with runner := queue.runner.write uuid values }

/-- `store`, with nothing but the state changed. -/
def setState (queue : JobQueue) (state : JobState) (uuid : String) : JobQueue :=
  match queue.values? uuid with
  | none => queue
  | some values => queue.write uuid (some { values with state })

/-- Storing the jobs of a graph. There is an error where the graph has no vertices. -/
def delay (queue : JobQueue) (graph : Graph String) (graphUuid : String)
    (values : String → Values) : JobQueue :=
  match buildJobs graph graphUuid with
  | none => queue
  | some jobs =>
      graph.vertices.foldl (fun queue uuid =>
          queue.write uuid (some { values uuid with state := (jobs uuid).state }))
        { queue with
          dependencies := fun uuid =>
            if uuid ∈ graph.vertices then (jobs uuid).dependencies else queue.dependencies uuid
          created := queue.created ++ graph.vertices }

/-!
## Dependent jobs
-/

/-- `parent_states`, of the parents in the graph. -/
def parentStates (queue : JobQueue) (graphUuid child : String) : List JobState :=
  (queue.dependencies child).dependsOn.filterMap fun parent =>
    if (queue.dependencies parent).graphUuid = some graphUuid then
      (queue.values? parent).map Values.state
    else none

/-- `_get_common_dependent_jobs_query`: the jobs that depend on the job and wait, and all
of whose parents are in the required state. -/
def dependentJobs (queue : JobQueue) (uuid : String) (required : JobState) : List String :=
  match queue.values? uuid, (queue.dependencies uuid).graphUuid with
  | some _, some graphUuid =>
      (queue.dependencies uuid).reverseDependsOn.filter fun child =>
        decide ((queue.dependencies child).graphUuid = some graphUuid) &&
          decide ((queue.values? child).map Values.state = some .waitDependencies) &&
          decide (queue.parentStates graphUuid child ≠ []) &&
          (queue.parentStates graphUuid child).all fun state => decide (state = required)
  | _, _ => []

def updateDependentJobs (queue : JobQueue) (state : JobState) (uuid : String)
    (required : JobState) : JobQueue :=
  (queue.dependentJobs uuid required).foldl (fun queue child => queue.setState state child) queue

def enqueueWaiting (queue : JobQueue) (uuid : String) : JobQueue :=
  queue.updateDependentJobs .pending uuid .done

def cancelDependentJobs (queue : JobQueue) (uuid : String) : JobQueue :=
  queue.updateDependentJobs .cancelled uuid .cancelled

/-- The state that `set_pending` gives a job. -/
def pendingState (queue : JobQueue) (uuid : String) : JobState :=
  if (queue.dependencies uuid).dependsOn.any fun parent =>
      (queue.values? parent).any fun values => decide (values.state ≠ .done) then
    .waitDependencies
  else .pending

def setPending (queue : JobQueue) (uuid : String) : JobQueue :=
  queue.setState (queue.pendingState uuid) uuid

/-!
## The workers
-/

def hasState (queue : JobQueue) (uuid : String) (states : List JobState) : Bool :=
  (queue.values? uuid).any fun values => decide (values.state ∈ states)

def acquireJob (queue : JobQueue) (uuid : String) : JobQueue :=
  if queue.hasState uuid [.enqueued] then queue.setState .started uuid else queue

/-- `_try_perform_job` commits the job as done. The dependent jobs are updated in
another transaction, unless the worker dies before it. -/
def tryPerformJob (queue : JobQueue) (uuid : String) : JobQueue :=
  if queue.hasState uuid [.started] then
    let done := queue.setState .done uuid
    if (queue.dependencies uuid).reverseDependsOn = [] then done
    else { done with waking := uuid :: queue.waking }
  else queue

def enqueueDependentJobs (queue : JobQueue) (uuid : String) : JobQueue :=
  if uuid ∈ queue.waking then
    { queue with waking := queue.waking.erase uuid }.enqueueWaiting uuid
  else queue

def workerDies (queue : JobQueue) (uuid : String) : JobQueue :=
  { queue with waking := queue.waking.erase uuid }

/-- The job is to be tried again, but not before the eta. -/
def retryPostpone (queue : JobQueue) (uuid : String) (eta : {eta : Time // eta ≠ 0}) : JobQueue :=
  if queue.hasState uuid [.started] then
    match queue.values? uuid with
    | none => queue
    | some values =>
        queue.write uuid (some
          { values with
            state := queue.pendingState uuid
            eta := some eta.1
            moment := fun zero => eta.2 (Option.some.inj zero) })
  else queue

def fail (queue : JobQueue) (uuid : String) : JobQueue :=
  if queue.hasState uuid [.started] then queue.setState .failed uuid else queue

/-- One of the rows of `requeue_dead_jobs`. -/
def requeueDeadJob (queue : JobQueue) (uuid : String) (tooManyRetries : Bool) : JobQueue :=
  if queue.hasState uuid [.enqueued, .started] then
    queue.setState (if tooManyRetries then .failed else .pending) uuid
  else queue

/-!
## The users
-/

/-- One round of the loop of `_change_job_state`; no other state is supported. -/
def changeJobState (state : JobState) (queue : JobQueue) (uuid : String) : JobQueue :=
  match state with
  | .done => (queue.setState .done uuid).enqueueWaiting uuid
  | .pending => queue.setPending uuid
  | .cancelled => (queue.setState .cancelled uuid).cancelDependentJobs uuid
  | _ => queue

def closable : List JobState := [.waitDependencies, .pending, .enqueued, .failed]

def buttonDone (queue : JobQueue) (uuids : List String) : JobQueue :=
  (uuids.filter fun uuid => queue.hasState uuid closable).foldl (changeJobState .done) queue

def buttonCancelled (queue : JobQueue) (uuids : List String) : JobQueue :=
  (uuids.filter fun uuid => queue.hasState uuid closable).foldl (changeJobState .cancelled) queue

def requeue (queue : JobQueue) (uuids : List String) : JobQueue :=
  (uuids.filter fun uuid => queue.hasState uuid [.failed, .done, .cancelled]).foldl
    (changeJobState .pending) queue

/-- What the form of a job lets a user change. -/
def edit (queue : JobQueue) (uuid : String) (edited : Values) : JobQueue :=
  match queue.values? uuid with
  | none => queue
  | some values =>
      queue.write uuid (some { edited with state := values.state, seq := values.seq })

def unlink (queue : JobQueue) (uuid : String) : JobQueue :=
  if (queue.values? uuid).isSome then queue.write uuid none else queue

end JobQueue

inductive QueueEvent where
  | delay (graph : Graph String) (graphUuid : String) (values : String → Values)
  | acquireJob (uuid : String)
  | tryPerformJob (uuid : String)
  | enqueueDependentJobs (uuid : String)
  | workerDies (uuid : String)
  | retryPostpone (uuid : String) (eta : {eta : Time // eta ≠ 0})
  | fail (uuid : String)
  | requeueDeadJob (uuid : String) (tooManyRetries : Bool)
  | buttonDone (uuids : List String)
  | buttonCancelled (uuids : List String)
  | requeue (uuids : List String)
  | edit (uuid : String) (edited : Values)
  | unlink (uuid : String)
  /-- A step of the runner; the rows are written by the other events. -/
  | runner (event : RunnerEvent)

namespace JobQueue

def step (table : JobTable) (queue : JobQueue) : QueueEvent → JobQueue
  | .delay graph graphUuid values => queue.delay graph graphUuid values
  | .acquireJob uuid => queue.acquireJob uuid
  | .tryPerformJob uuid => queue.tryPerformJob uuid
  | .enqueueDependentJobs uuid => queue.enqueueDependentJobs uuid
  | .workerDies uuid => queue.workerDies uuid
  | .retryPostpone uuid eta => queue.retryPostpone uuid eta
  | .fail uuid => queue.fail uuid
  | .requeueDeadJob uuid tooManyRetries => queue.requeueDeadJob uuid tooManyRetries
  | .buttonDone uuids => queue.buttonDone uuids
  | .buttonCancelled uuids => queue.buttonCancelled uuids
  | .requeue uuids => queue.requeue uuids
  | .edit uuid edited => queue.edit uuid edited
  | .unlink uuid => queue.unlink uuid
  | .runner (.write _ _) => queue
  | .runner event => { queue with runner := queue.runner.step table event }

/-- The runner connects to a table without jobs. -/
def start (manager : ChannelManager) (sent : List String) : JobQueue where
  runner := .connect manager .empty sent
  dependencies := fun _ => {}
  created := []
  waking := []

end JobQueue

end WorkflowStudio.Queue
