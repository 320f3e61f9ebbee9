import WorkflowStudio.Queue.WakingProperties

/-! The workers and the users are such writers as the runner relies on: only the runner
hands jobs out. What holds of the runner beside any such writers holds of the whole
system. -/

set_option autoImplicit false

namespace WorkflowStudio.Queue

open Lib JobRunner

namespace JobQueue

variable {table : JobTable} {queue : JobQueue} {uuid : String} {state : JobState}

/-- The transactions are writes beside a runner that alone makes jobs active. -/
def Refines (table : JobTable) (before after : JobQueue) : Prop :=
  GuardedRun.Reaches (JobRunner.step table) OnlyRunnerEnqueues before.runner after.runner

theorem Refines.refl (queue : JobQueue) : Refines table queue queue :=
  GuardedRun.Reaches.refl queue.runner

theorem Refines.trans {first second third : JobQueue} (left : Refines table first second)
    (right : Refines table second third) : Refines table first third :=
  GuardedRun.Reaches.trans left right

theorem Refines.foldl {Item : Type} {change : JobQueue → Item → JobQueue}
    (refines : ∀ queue item, Refines table queue (change queue item)) (items : List Item)
    (queue : JobQueue) : Refines table queue (items.foldl change queue) :=
  @GuardedRun.Reaches.run _ _ _ _ _ _ change JobQueue.runner refines queue items

theorem refines_write {written : Option Values}
    (allowed : ∀ values, written = some values → values.state.Active →
      ∃ old, queue.values? uuid = some old ∧ old.state.Active) :
    Refines table queue (queue.write uuid written) := by
  have guarded : queue.runner.OnlyRunnerEnqueues (.write uuid written) := by
    cases written with
    | none => trivial
    | some values => exact allowed values rfl
  exact GuardedRun.Reaches.single guarded

theorem refines_setState
    (allowed : state.Active → ∀ values, queue.values? uuid = some values → values.state.Active) :
    Refines table queue (queue.setState state uuid) := by
  unfold JobQueue.setState
  cases found : queue.values? uuid with
  | none => exact Refines.refl queue
  | some values =>
      refine refines_write fun written same active => ⟨values, found, ?_⟩
      cases same
      exact allowed active values found

theorem refines_idle (idle : ¬ state.Active) (queue : JobQueue) (uuid : String) :
    Refines table queue (queue.setState state uuid) :=
  refines_setState fun active => absurd active idle

theorem refines_updateDependentJobs (idle : ¬ state.Active) (queue : JobQueue) (uuid : String)
    (required : JobState) : Refines table queue (queue.updateDependentJobs state uuid required) :=
  Refines.foldl (refines_idle idle) (queue.dependentJobs uuid required) queue

theorem pendingState_idle (queue : JobQueue) (uuid : String) :
    ¬ (queue.pendingState uuid).Active := by
  rcases queue.pendingState_eq uuid with ⟨state, _⟩ | ⟨state, _⟩
  · rw [state]
    decide
  · rw [state]
    decide

theorem refines_changeJobState (state : JobState) (queue : JobQueue) (uuid : String) :
    Refines table queue (changeJobState state queue uuid) := by
  cases state with
  | done =>
      exact (refines_idle (by decide) queue uuid).trans
        (refines_updateDependentJobs (by decide) _ uuid .done)
  | cancelled =>
      exact (refines_idle (by decide) queue uuid).trans
        (refines_updateDependentJobs (by decide) _ uuid .cancelled)
  | pending => exact refines_idle (queue.pendingState_idle uuid) queue uuid
  | _ => exact Refines.refl queue

theorem refines_foldl_write {new : String → Values} (idle : ∀ uuid, ¬ (new uuid).state.Active)
    (uuids : List String) (queue : JobQueue) :
    Refines table queue
      (uuids.foldl (fun queue uuid => queue.write uuid (some (new uuid))) queue) := by
  refine Refines.foldl (fun queue uuid => refines_write fun written same active => ?_) uuids queue
  cases same
  exact absurd active (idle uuid)

theorem refines_delay (queue : JobQueue) (graph : Graph String) (graphUuid : String)
    (values : String → Values) : Refines table queue (queue.delay graph graphUuid values) := by
  unfold JobQueue.delay
  cases result : buildJobs graph graphUuid with
  | none => exact Refines.refl queue
  | some jobs =>
      -- the columns are written first, which the runner does not see
      exact @refines_foldl_write table
        (fun uuid => { values uuid with state := (jobs uuid).state })
        (buildJobs_built result).idle graph.vertices
        { queue with
          dependencies := fun uuid =>
            if uuid ∈ graph.vertices then (jobs uuid).dependencies else queue.dependencies uuid
          created := queue.created ++ graph.vertices }

theorem refines_runner (queue : JobQueue) (event : RunnerEvent) :
    Refines table queue (queue.step table (.runner event)) := by
  have act : ∀ event, queue.runner.OnlyRunnerEnqueues event →
      Refines table queue { queue with runner := queue.runner.step table event } :=
    fun _ allowed => GuardedRun.Reaches.single allowed
  cases event with
  | write uuid values => exact Refines.refl queue
  | receive count => exact act (.receive count) trivial
  | initializeNext => exact act .initializeNext trivial
  | processNotification => exact act .processNotification trivial
  | runJobs now => exact act (.runJobs now) trivial
  | setJobEnqueued => exact act .setJobEnqueued trivial
  | waitNotification => exact act .waitNotification trivial
  | restart sent => exact act (.restart sent) trivial

/-- Every transaction, and every step of the runner, is a guarded run of the runner. -/
theorem refines_step (queue : JobQueue) (event : QueueEvent) :
    Refines table queue (queue.step table event) := by
  cases event with
  | delay graph graphUuid values => exact queue.refines_delay graph graphUuid values
  | acquireJob uuid =>
      change Refines table queue (queue.acquireJob uuid)
      unfold JobQueue.acquireJob
      split
      · rename_i enqueued
        obtain ⟨values, found, state⟩ := hasState_iff.mp enqueued
        refine refines_setState fun _ other present => ?_
        rw [found] at present
        cases present
        exact .inl (List.mem_singleton.mp state)
      · exact Refines.refl queue
  | tryPerformJob uuid =>
      change Refines table queue (queue.tryPerformJob uuid)
      have done : Refines table queue (queue.setState .done uuid) :=
        refines_idle (by decide) queue uuid
      unfold JobQueue.tryPerformJob
      split
      · simp only
        split
        · exact done
        · exact done
      · exact Refines.refl queue
  | enqueueDependentJobs uuid =>
      change Refines table queue (queue.enqueueDependentJobs uuid)
      unfold JobQueue.enqueueDependentJobs
      split
      · exact refines_updateDependentJobs (by decide)
          { queue with waking := queue.waking.erase uuid } uuid .done
      · exact Refines.refl queue
  | workerDies uuid => exact Refines.refl queue
  | retryPostpone uuid eta =>
      change Refines table queue (queue.retryPostpone uuid eta)
      unfold JobQueue.retryPostpone
      split
      · cases found : queue.values? uuid with
        | none => exact Refines.refl queue
        | some values =>
            refine refines_write fun written same active => ?_
            cases same
            exact absurd active (queue.pendingState_idle uuid)
      · exact Refines.refl queue
  | fail uuid =>
      change Refines table queue (queue.fail uuid)
      unfold JobQueue.fail
      split
      · exact refines_idle (by decide) queue uuid
      · exact Refines.refl queue
  | requeueDeadJob uuid tooManyRetries =>
      change Refines table queue (queue.requeueDeadJob uuid tooManyRetries)
      unfold JobQueue.requeueDeadJob
      split
      · cases tooManyRetries with
        | false => exact refines_idle (by decide) queue uuid
        | true => exact refines_idle (by decide) queue uuid
      · exact Refines.refl queue
  | buttonDone uuids => exact Refines.foldl (refines_changeJobState .done) _ queue
  | buttonCancelled uuids => exact Refines.foldl (refines_changeJobState .cancelled) _ queue
  | requeue uuids => exact Refines.foldl (refines_changeJobState .pending) _ queue
  | edit uuid edited =>
      change Refines table queue (queue.edit uuid edited)
      unfold JobQueue.edit
      cases found : queue.values? uuid with
      | none => exact Refines.refl queue
      | some values =>
          refine refines_write fun written same active => ⟨values, found, ?_⟩
          cases same
          exact active
  | unlink uuid =>
      change Refines table queue (queue.unlink uuid)
      unfold JobQueue.unlink
      split
      · exact refines_write fun _ absurdity => absurd absurdity.symm (Option.some_ne_none _)
      · exact Refines.refl queue
  | runner event => exact queue.refines_runner event

theorem refines_run (manager : ChannelManager) (sent : List String) (events : List QueueEvent) :
    Refines table (start manager sent) (GuardedRun.run (step table) (start manager sent) events) :=
  Refines.foldl refines_step events (start manager sent)

variable {int : Name → Except Name Int} {configString : Name} {configured : ChannelManager}
  {limit : Int}

/-- Whatever the workers, the users and the runner do, in whatever order, and whatever
graphs of jobs are delayed: no more jobs of the table are enqueued or started than the
root channel has capacity, and no job is about to be marked as enqueued that is so
already. -/
theorem enqueued_within_capacity
    (success : ChannelManager.init.simpleConfigure int configString = .ok configured)
    {root : Channel} (found : configured.channels.get? [rootName] = some root)
    (limited : root.capacity = some limit) (positive : limit ≠ 0) (sent : List String)
    (events : List QueueEvent) :
    let after := GuardedRun.run (step table) (start configured sent) events
    (∀ active : Finset String,
      (∀ uuid ∈ active, ∃ values, after.values? uuid = some values ∧ values.state.Active) →
        (active.card : Int) ≤ max limit 0) ∧
      ∀ job rest values, after.runner.task = .runJobs (job :: rest) →
        after.values? (after.runner.channelManager.jobs job).uuid = some values →
          ¬ values.state.Active := by
  intro after
  have bounded : (start configured sent).runner.Limited limit := by
    refine limited_connect success found limited fun active present => ?_
    have nothing : active = ∅ := Finset.eq_empty_of_forall_notMem fun uuid member => by
      obtain ⟨values, row, _⟩ := present uuid member
      exact Option.some_ne_none _ row.symm
    rw [nothing]
    exact le_max_right limit 0
  obtain ⟨events, allowed, reached⟩ := @refines_run table configured sent events
  have kept := GuardedRun.guarded_invariant
    (fun runner => runner.Consistent table ∧ runner.MarksIdle ∧ runner.Limited limit)
    (fun _ event kept allowed => ⟨kept.1.step allowed, kept.2.1.step kept.1 allowed,
      kept.2.2.step kept.1 positive event⟩)
    ⟨(safe_start success sent).consistent, marksIdle_of_handed rfl, bounded⟩ allowed
  rw [reached] at kept
  refine ⟨fun active all => kept.2.2.active_rows kept.1 all, fun job rest values marking row => ?_⟩
  refine kept.2.1.idle _ (List.mem_map.mpr ⟨job, ?_, rfl⟩) values row
  change job ∈ after.runner.handed
  unfold handed
  rw [marking]
  exact List.mem_cons_self

/-- Two jobs that do not depend on each other, of which one is handed out and started. -/
def freeJobsRun : List QueueEvent :=
  [.delay ((Graph.empty.addVertex "first").addVertex "second") "graph" fun _ => waitingRow,
    .runner .initializeNext, .runner (.receive 2), .runner .processNotification,
    .runner .processNotification, .runner (.runJobs 5), .runner .setJobEnqueued,
    .acquireJob "first", .acquireJob "second", .runner .setJobEnqueued, .runner (.runJobs 5)]

theorem enqueued_within_capacity_two :
    let after := GuardedRun.run (step jobTable) (start ChannelManager.init []) freeJobsRun
    (∀ active : Finset String,
      (∀ uuid ∈ active, ∃ values, after.values? uuid = some values ∧ values.state.Active) →
        (active.card : Int) ≤ max 1 0) ∧
      ∀ job rest values, after.runner.task = .runJobs (job :: rest) →
        after.values? (after.runner.channelManager.jobs job).uuid = some values →
          ¬ values.state.Active :=
  @enqueued_within_capacity jobTable (fun text => .error text) [] ChannelManager.init 1 rfl
    { capacity := some 1 } rfl rfl (by decide) [] freeJobsRun

end JobQueue

end WorkflowStudio.Queue
