import WorkflowStudio.Queue.ReadinessProperties

/-! No wake-up is lost: a job that waits for its parents always waits for one of them that
still exists, which is not done or whose worker is about to update the jobs that depend
on it. -/

set_option autoImplicit false

namespace WorkflowStudio.Queue

open Lib JobRunner

namespace JobQueue

variable {table : JobTable} {queue after : JobQueue} {uuid other parent child : String}
  {state : JobState} {values : Values} {excused : String → Prop}

/-!
## The columns, whatever happens
-/

/-- The columns are left alone, and no row is new. -/
structure Touches (before after : JobQueue) : Prop where
  dependencies : after.dependencies = before.dependencies
  created : after.created = before.created
  rows : ∀ uuid values, after.values? uuid = some values →
    ∃ old, before.values? uuid = some old

theorem Touches.refl (queue : JobQueue) : Touches queue queue :=
  ⟨rfl, rfl, fun _ values found => ⟨values, found⟩⟩

theorem Touches.trans {first second third : JobQueue} (left : Touches first second)
    (right : Touches second third) : Touches first third := by
  refine ⟨right.dependencies.trans left.dependencies, right.created.trans left.created,
    fun uuid values found => ?_⟩
  obtain ⟨old, before⟩ := right.rows uuid values found
  exact left.rows uuid old before

theorem Touches.foldl {Item : Type} {change : JobQueue → Item → JobQueue}
    (touches : ∀ queue item, Touches queue (change queue item)) (items : List Item)
    (queue : JobQueue) : Touches queue (items.foldl change queue) := by
  induction items generalizing queue with
  | nil => exact Touches.refl queue
  | cons item rest ih => exact (touches queue item).trans (ih (change queue item))

theorem touches_write {written : Option Values} (found : queue.values? uuid = some values) :
    Touches queue (queue.write uuid written) := by
  refine ⟨rfl, rfl, fun other new present => ?_⟩
  rw [values?_write] at present
  split at present
  · rename_i same
    exact ⟨values, same ▸ found⟩
  · exact ⟨new, present⟩

theorem touches_setState (queue : JobQueue) (state : JobState) (uuid : String) :
    Touches queue (queue.setState state uuid) := by
  unfold setState
  cases found : queue.values? uuid with
  | none => exact Touches.refl queue
  | some values => exact touches_write found

theorem touches_updateDependentJobs (queue : JobQueue) (state : JobState) (uuid : String)
    (required : JobState) : Touches queue (queue.updateDependentJobs state uuid required) :=
  Touches.foldl (fun queue child => queue.touches_setState state child) _ queue

theorem touches_changeJobState (state : JobState) (queue : JobQueue) (uuid : String) :
    Touches queue (changeJobState state queue uuid) := by
  cases state with
  | done => exact (queue.touches_setState .done uuid).trans (touches_updateDependentJobs _ _ _ _)
  | cancelled =>
      exact (queue.touches_setState .cancelled uuid).trans (touches_updateDependentJobs _ _ _ _)
  | pending => exact queue.touches_setState (queue.pendingState uuid) uuid
  | _ => exact Touches.refl queue

theorem touches_waking (queue : JobQueue) (waking : List String) :
    Touches queue { queue with waking } :=
  ⟨rfl, rfl, fun _ values found => ⟨values, found⟩⟩

/-- The runner writes nothing but that a job is enqueued. -/
theorem runner_step (queue : JobQueue) (table : JobTable) (event : RunnerEvent) :
    let after := queue.step table (.runner event)
    after.dependencies = queue.dependencies ∧ after.created = queue.created ∧
      after.waking = queue.waking ∧ ∀ uuid, after.values? uuid = queue.values? uuid ∨
        ∃ old, queue.values? uuid = some old ∧
          after.values? uuid = some { old with state := .enqueued } := by
  have quiet : (∀ uuid values, event ≠ .write uuid values) → event ≠ .setJobEnqueued →
      ∀ uuid, (queue.runner.step table event).rows.get? uuid = queue.values? uuid := by
    intro own marks uuid
    rw [rows_step own marks]
    rfl
  cases event with
  | write uuid values => exact ⟨rfl, rfl, rfl, fun _ => .inl rfl⟩
  | setJobEnqueued =>
      refine ⟨rfl, rfl, rfl, fun uuid => ?_⟩
      rcases rows_setJobEnqueued queue.runner uuid with same | ⟨_, _, old, _, _, row, marked⟩
      · exact .inl same
      · exact .inr ⟨old, row, marked⟩
  | receive count =>
      exact ⟨rfl, rfl, rfl, fun uuid => .inl (quiet (fun _ _ => RunnerEvent.noConfusion)
        RunnerEvent.noConfusion uuid)⟩
  | initializeNext =>
      exact ⟨rfl, rfl, rfl, fun uuid => .inl (quiet (fun _ _ => RunnerEvent.noConfusion)
        RunnerEvent.noConfusion uuid)⟩
  | processNotification =>
      exact ⟨rfl, rfl, rfl, fun uuid => .inl (quiet (fun _ _ => RunnerEvent.noConfusion)
        RunnerEvent.noConfusion uuid)⟩
  | runJobs now =>
      exact ⟨rfl, rfl, rfl, fun uuid => .inl (quiet (fun _ _ => RunnerEvent.noConfusion)
        RunnerEvent.noConfusion uuid)⟩
  | waitNotification =>
      exact ⟨rfl, rfl, rfl, fun uuid => .inl (quiet (fun _ _ => RunnerEvent.noConfusion)
        RunnerEvent.noConfusion uuid)⟩
  | restart sent =>
      exact ⟨rfl, rfl, rfl, fun uuid => .inl (quiet (fun _ _ => RunnerEvent.noConfusion)
        RunnerEvent.noConfusion uuid)⟩

/-- Only a graph that is delayed adds rows or changes columns. -/
theorem touches_step {event : QueueEvent}
    (old : ∀ graph graphUuid values, event ≠ .delay graph graphUuid values) :
    Touches queue (queue.step table event) := by
  cases event with
  | delay graph graphUuid values => exact absurd rfl (old graph graphUuid values)
  | acquireJob uuid =>
      change Touches queue (queue.acquireJob uuid)
      unfold JobQueue.acquireJob
      split
      · exact queue.touches_setState .started uuid
      · exact Touches.refl queue
  | tryPerformJob uuid =>
      change Touches queue (queue.tryPerformJob uuid)
      unfold JobQueue.tryPerformJob
      split
      · simp only
        split
        · exact queue.touches_setState .done uuid
        · exact (queue.touches_setState .done uuid).trans (touches_waking _ _)
      · exact Touches.refl queue
  | enqueueDependentJobs uuid =>
      change Touches queue (queue.enqueueDependentJobs uuid)
      unfold JobQueue.enqueueDependentJobs
      split
      · exact (queue.touches_waking _).trans (touches_updateDependentJobs _ _ _ _)
      · exact Touches.refl queue
  | workerDies uuid => exact queue.touches_waking _
  | retryPostpone uuid eta =>
      change Touches queue (queue.retryPostpone uuid eta)
      unfold JobQueue.retryPostpone
      split
      · cases found : queue.values? uuid with
        | none => exact Touches.refl queue
        | some values => exact touches_write found
      · exact Touches.refl queue
  | fail uuid =>
      change Touches queue (queue.fail uuid)
      unfold JobQueue.fail
      split
      · exact queue.touches_setState .failed uuid
      · exact Touches.refl queue
  | requeueDeadJob uuid tooManyRetries =>
      change Touches queue (queue.requeueDeadJob uuid tooManyRetries)
      unfold JobQueue.requeueDeadJob
      split
      · exact queue.touches_setState _ uuid
      · exact Touches.refl queue
  | buttonDone uuids => exact Touches.foldl (touches_changeJobState .done) _ queue
  | buttonCancelled uuids => exact Touches.foldl (touches_changeJobState .cancelled) _ queue
  | requeue uuids => exact Touches.foldl (touches_changeJobState .pending) _ queue
  | edit uuid edited =>
      change Touches queue (queue.edit uuid edited)
      unfold JobQueue.edit
      cases found : queue.values? uuid with
      | none => exact Touches.refl queue
      | some values => exact touches_write found
  | unlink uuid =>
      change Touches queue (queue.unlink uuid)
      unfold JobQueue.unlink
      split
      · rename_i present
        obtain ⟨values, found⟩ := Option.isSome_iff_exists.mp present
        exact touches_write found
      · exact Touches.refl queue
  | runner event =>
      obtain ⟨dependencies, created, _, rows⟩ := queue.runner_step table event
      refine ⟨dependencies, created, fun uuid values found => ?_⟩
      rcases rows uuid with same | ⟨old, before, _⟩
      · rw [same] at found
        exact ⟨values, found⟩
      · exact ⟨old, before⟩

theorem Related.touches (related : queue.Related) (touches : Touches queue after) :
    after.Related := by
  refine ⟨?_, ?_, ?_, ?_, fun uuid values found => ?_⟩
  · rw [touches.dependencies]
    exact related.mirrored
  · rw [touches.dependencies]
    exact related.grouped
  · rw [touches.dependencies]
    exact related.irreflexive
  · rw [touches.dependencies, touches.created]
    exact related.unrelated
  · obtain ⟨old, before⟩ := touches.rows uuid values found
    rw [touches.created]
    exact related.known uuid old before

/-!
## What a job waits for
-/

/-- The job waits for a parent that is not done, or that will wake it up. -/
def WaitsFor (queue : JobQueue) (child : String) : Prop :=
  ∃ parent ∈ (queue.dependencies child).dependsOn, ∃ values,
    queue.values? parent = some values ∧ (values.state ≠ .done ∨ parent ∈ queue.waking)

def Waiting (queue : JobQueue) (child : String) : Prop :=
  ∃ values, queue.values? child = some values ∧ values.state = .waitDependencies

/-- The invariant, but for jobs that are excused: those that depend on one that has just
been done. -/
def AttendedBut (excused : String → Prop) (queue : JobQueue) : Prop :=
  ∀ child, queue.Waiting child → queue.WaitsFor child ∨ excused child

def Attended (queue : JobQueue) : Prop :=
  queue.AttendedBut fun _ => False

theorem Attended.waitsFor (attended : queue.Attended) (waiting : queue.Waiting child) :
    queue.WaitsFor child :=
  (attended child waiting).resolve_right not_false

/-- Something is still waited for after a write that makes no job done. -/
theorem WaitsFor.write {written : Values} (waits : queue.WaitsFor child)
    (kept : written.state = .done → ∃ old, queue.values? uuid = some old ∧ old.state = .done) :
    (queue.write uuid (some written)).WaitsFor child := by
  obtain ⟨parent, depends, values, found, holds⟩ := waits
  refine ⟨parent, depends, ?_⟩
  rw [values?_write]
  split
  · rename_i same
    subst same
    refine ⟨written, rfl, or_iff_not_imp_left.mpr fun done => holds.resolve_left ?_⟩
    obtain ⟨old, before, wasDone⟩ := kept (not_not.mp done)
    rw [found] at before
    cases before
    exact not_not_intro wasDone
  · exact ⟨values, found, holds⟩

theorem AttendedBut.write {written : Values} (attended : queue.AttendedBut excused)
    (kept : written.state = .done → ∃ old, queue.values? uuid = some old ∧ old.state = .done)
    (waits : written.state = .waitDependencies → queue.WaitsFor uuid) :
    (queue.write uuid (some written)).AttendedBut excused := by
  rintro child ⟨values, found, waiting⟩
  rw [values?_write] at found
  split at found
  · rename_i same
    subst same
    cases found
    exact .inl ((waits waiting).write kept)
  · exact (attended child ⟨values, found, waiting⟩).imp_left fun before => before.write kept

theorem AttendedBut.setState (attended : queue.AttendedBut excused)
    (notDone : state ≠ .done) (waits : state = .waitDependencies → queue.WaitsFor uuid) :
    (queue.setState state uuid).AttendedBut excused := by
  unfold JobQueue.setState
  cases found : queue.values? uuid with
  | none => exact attended
  | some values => exact attended.write (fun becomes => absurd becomes notDone) waits

theorem AttendedBut.setStates (attended : queue.AttendedBut excused)
    (notDone : state ≠ .done) (wakes : state ≠ .waitDependencies) (uuids : List String) :
    (uuids.foldl (fun queue uuid => queue.setState state uuid) queue).AttendedBut excused := by
  induction uuids generalizing queue with
  | nil => exact attended
  | cons uuid rest ih => exact ih (attended.setState notDone fun waits => absurd waits wakes)

/-- A job that has just been done: those that depend on it may wait in vain. -/
theorem Attended.done (attended : queue.Attended) (uuid : String) :
    (queue.setState .done uuid).AttendedBut fun child =>
      uuid ∈ (queue.dependencies child).dependsOn := by
  have aside := queue.aside_setState .done uuid
  rintro child ⟨values, found, waiting⟩
  rw [values?_setState] at found
  split at found
  · obtain ⟨_, _, rfl⟩ := Option.map_eq_some_iff.mp found
    exact absurd waiting JobState.noConfusion
  · obtain ⟨parent, depends, old, before, holds⟩ := attended.waitsFor ⟨values, found, waiting⟩
    by_cases same : parent = uuid
    · exact .inr (same ▸ depends)
    · refine .inl ⟨parent, aside.dependencies ▸ depends, old, ?_, aside.waking ▸ holds⟩
      rw [values?_setState, if_neg same]
      exact before

/-- The update of the jobs that depend on a job that is done leaves none of them waiting
in vain. -/
theorem AttendedBut.enqueueWaiting (related : queue.Related)
    (attended : queue.AttendedBut fun child => uuid ∈ (queue.dependencies child).dependsOn)
    (present : (queue.values? uuid).isSome = true) : (queue.enqueueWaiting uuid).Attended := by
  have aside := queue.aside_updateDependentJobs .pending uuid .done
  have updated : (queue.enqueueWaiting uuid).AttendedBut fun child =>
      uuid ∈ (queue.dependencies child).dependsOn :=
    attended.setStates (by decide) (by decide) _
  intro child waiting
  refine .inl ((updated child waiting).elim id fun depends => ?_)
  obtain ⟨values, found, waits⟩ := waiting
  have rows := values?_foldl_setState .pending (queue.dependentJobs uuid .done) queue
  change ((queue.dependentJobs uuid .done).foldl _ queue).values? child = some values at found
  rw [rows child] at found
  split at found
  · obtain ⟨_, _, rfl⟩ := Option.map_eq_some_iff.mp found
    exact absurd waits JobState.noConfusion
  · rename_i notWoken
    have blocked : ¬ ∀ parent ∈ (queue.dependencies child).dependsOn, ∀ values,
        queue.values? parent = some values → values.state = .done := fun all =>
      notWoken (related.mem_dependentJobs.mpr ⟨depends, present, ⟨values, found, waits⟩, all⟩)
    by_contra vain
    refine blocked fun parent depends old before => ?_
    by_contra notDone
    refine vain ⟨parent, aside.dependencies ▸ depends, ?_⟩
    change ∃ values, ((queue.dependentJobs uuid .done).foldl _ queue).values? parent =
      some values ∧ _
    rw [rows parent, before]
    split
    · exact ⟨_, rfl, .inl JobState.noConfusion⟩
    · exact ⟨old, rfl, .inl notDone⟩

/-- Without a row of the job there is nothing to update. -/
theorem updateDependentJobs_absent {required : JobState} (absent : queue.values? uuid = none) :
    queue.updateDependentJobs state uuid required = queue := by
  unfold updateDependentJobs dependentJobs
  rw [absent]
  rfl

/-!
## The transactions
-/

theorem waitsFor_of_pendingState (waits : queue.pendingState uuid = .waitDependencies) :
    queue.WaitsFor uuid := by
  rcases queue.pendingState_eq uuid with ⟨state, _⟩ | ⟨_, parent, depends, values, found, notDone⟩
  · rw [state] at waits
    exact absurd waits JobState.noConfusion
  · exact ⟨parent, depends, values, found, .inl notDone⟩

theorem Attended.setPending (attended : queue.Attended) (uuid : String) :
    (queue.setPending uuid).Attended :=
  AttendedBut.setState attended (queue.pendingState_ne_done uuid) waitsFor_of_pendingState

theorem Attended.changeDone (attended : queue.Attended) (related : queue.Related) (uuid : String) :
    (changeJobState .done queue uuid).Attended := by
  change ((queue.setState .done uuid).enqueueWaiting uuid).Attended
  cases found : queue.values? uuid with
  | none =>
      have unchanged : queue.setState .done uuid = queue := by
        unfold JobQueue.setState
        rw [found]
      rw [unchanged, JobQueue.enqueueWaiting, updateDependentJobs_absent found]
      exact attended
  | some values =>
      refine AttendedBut.enqueueWaiting (related.touches (queue.touches_setState .done uuid)) ?_ ?_
      · rw [(queue.aside_setState .done uuid).dependencies]
        exact attended.done uuid
      · rw [values?_setState, if_pos rfl, found]
        rfl

theorem Attended.changeCancelled (attended : queue.Attended) (uuid : String) :
    (changeJobState .cancelled queue uuid).Attended :=
  AttendedBut.setStates (AttendedBut.setState attended (by decide) fun waits =>
    absurd waits JobState.noConfusion) (by decide) (by decide) _

/-- Whatever wakes nothing up: a job of which the dependent jobs are still to be updated. -/
theorem Attended.tryPerformJob (attended : queue.Attended) (related : queue.Related)
    (uuid : String) : (queue.tryPerformJob uuid).Attended := by
  unfold JobQueue.tryPerformJob
  split
  · rename_i started
    obtain ⟨values, found, _⟩ := hasState_iff.mp started
    have done := attended.done uuid
    have aside := queue.aside_setState .done uuid
    simp only
    split
    · rename_i none
      intro child waiting
      refine .inl ((done child waiting).elim id fun depends => ?_)
      have listed := (related.mirrored uuid child).mpr depends
      rw [none] at listed
      exact absurd listed List.not_mem_nil
    · intro child waiting
      refine .inl ?_
      rcases done child waiting with ⟨parent, depends, old, before, holds⟩ | depends
      · rw [aside.waking] at holds
        exact ⟨parent, depends, old, before, holds.imp_right (List.mem_cons_of_mem uuid)⟩
      · have row := queue.values?_setState .done uuid uuid
        rw [if_pos rfl, found] at row
        exact ⟨uuid, aside.dependencies ▸ depends, _, row, .inr List.mem_cons_self⟩
  · exact attended

theorem Attended.enqueueDependentJobs (attended : queue.Attended) (related : queue.Related)
    (uuid : String) : (queue.enqueueDependentJobs uuid).Attended := by
  unfold JobQueue.enqueueDependentJobs
  split
  · have without : AttendedBut (fun child => uuid ∈ (queue.dependencies child).dependsOn ∧
        (queue.values? uuid).isSome = true)
        { queue with waking := queue.waking.erase uuid } := by
      intro child waiting
      obtain ⟨parent, depends, values, found, holds⟩ := attended.waitsFor waiting
      by_cases same : parent = uuid
      · subst same
        refine .inr ⟨depends, ?_⟩
        rw [found]
        rfl
      · exact .inl ⟨parent, depends, values, found,
          holds.imp_right (List.mem_erase_of_ne same).mpr⟩
    cases found : queue.values? uuid with
    | none =>
        have unchanged : ({ queue with waking := queue.waking.erase uuid }).enqueueWaiting uuid =
            { queue with waking := queue.waking.erase uuid } :=
          updateDependentJobs_absent found
        rw [unchanged]
        intro child waiting
        refine (without child waiting).imp_right fun both => ?_
        rw [found] at both
        exact absurd both.2 Bool.false_ne_true
    | some values =>
        have present : (queue.values? uuid).isSome = true := by
          rw [found]
          rfl
        exact AttendedBut.enqueueWaiting (related.touches (queue.touches_waking _))
          (fun child waiting => (without child waiting).imp_right And.left) present
  · exact attended

theorem Attended.acquireJob (attended : queue.Attended) (uuid : String) :
    (queue.acquireJob uuid).Attended := by
  unfold JobQueue.acquireJob
  split
  · exact AttendedBut.setState attended (by decide) fun waits => absurd waits JobState.noConfusion
  · exact attended

theorem Attended.retryPostpone (attended : queue.Attended) (uuid : String)
    (eta : {eta : Time // eta ≠ 0}) : (queue.retryPostpone uuid eta).Attended := by
  unfold JobQueue.retryPostpone
  split
  · cases found : queue.values? uuid with
    | none => exact attended
    | some values =>
        exact AttendedBut.write attended
          (fun done => absurd done (queue.pendingState_ne_done uuid)) waitsFor_of_pendingState
  · exact attended

theorem Attended.fail (attended : queue.Attended) (uuid : String) :
    (queue.fail uuid).Attended := by
  unfold JobQueue.fail
  split
  · exact AttendedBut.setState attended (by decide) fun waits => absurd waits JobState.noConfusion
  · exact attended

theorem Attended.requeueDeadJob (attended : queue.Attended) (uuid : String)
    (tooManyRetries : Bool) : (queue.requeueDeadJob uuid tooManyRetries).Attended := by
  unfold JobQueue.requeueDeadJob
  split
  · cases tooManyRetries with
    | false =>
        exact AttendedBut.setState attended (by decide) fun waits =>
          absurd waits JobState.noConfusion
    | true =>
        exact AttendedBut.setState attended (by decide) fun waits =>
          absurd waits JobState.noConfusion
  · exact attended

theorem Attended.buttonDone (attended : queue.Attended) (related : queue.Related)
    (uuids : List String) : (queue.buttonDone uuids).Attended := by
  unfold JobQueue.buttonDone
  generalize uuids.filter _ = chosen
  induction chosen generalizing queue with
  | nil => exact attended
  | cons uuid rest ih =>
      exact ih (attended.changeDone related uuid)
        (related.touches (touches_changeJobState .done queue uuid))

theorem Attended.buttonCancelled (attended : queue.Attended) (uuids : List String) :
    (queue.buttonCancelled uuids).Attended := by
  unfold JobQueue.buttonCancelled
  generalize uuids.filter _ = chosen
  induction chosen generalizing queue with
  | nil => exact attended
  | cons uuid rest ih => exact ih (attended.changeCancelled uuid)

theorem Attended.requeue (attended : queue.Attended) (uuids : List String) :
    (queue.requeue uuids).Attended := by
  unfold JobQueue.requeue
  generalize uuids.filter _ = chosen
  induction chosen generalizing queue with
  | nil => exact attended
  | cons uuid rest ih => exact ih (attended.setPending uuid)

theorem Attended.edit (attended : queue.Attended) (uuid : String) (edited : Values) :
    (queue.edit uuid edited).Attended := by
  unfold JobQueue.edit
  cases found : queue.values? uuid with
  | none => exact attended
  | some values =>
      exact AttendedBut.write attended (fun done => ⟨values, found, done⟩) fun waits =>
        attended.waitsFor ⟨values, found, waits⟩

/-- The row may go that nothing waits for any more. -/
theorem Attended.unlink (attended : queue.Attended) (related : queue.Related)
    (idle : (queue.dependencies uuid).reverseDependsOn = [] ∨
      uuid ∉ queue.waking ∧ ∀ values, queue.values? uuid = some values → values.state = .done) :
    (queue.unlink uuid).Attended := by
  unfold JobQueue.unlink
  split
  · rintro child ⟨values, found, waits⟩
    refine .inl ?_
    rw [values?_write] at found
    split at found
    · exact absurd found.symm (Option.some_ne_none _)
    · obtain ⟨parent, depends, old, before, holds⟩ := attended.waitsFor ⟨values, found, waits⟩
      have different : parent ≠ uuid := by
        rintro rfl
        rcases idle with none | ⟨asleep, done⟩
        · have listed := (related.mirrored parent child).mpr depends
          rw [none] at listed
          exact absurd listed List.not_mem_nil
        · exact holds.elim (absurd (done old before)) asleep
      refine ⟨parent, depends, old, ?_, holds⟩
      rw [values?_write, if_neg different]
      exact before
  · exact attended

theorem Attended.delay (attended : queue.Attended) (related : queue.Related)
    {graph : Graph String} (fresh : ∀ uuid ∈ graph.vertices, uuid ∉ queue.created)
    (graphUuid : String) (values : String → Values) :
    (queue.delay graph graphUuid values).Attended := by
  cases result : buildJobs graph graphUuid with
  | none =>
      unfold JobQueue.delay
      simp only [result]
      exact attended
  | some jobs =>
      have delayed := delay_delayed result queue values
      rintro child ⟨row, found, waits⟩
      refine .inl ?_
      by_cases isNew : child ∈ graph.vertices
      · obtain ⟨new, present, ⟨pending, _⟩ | ⟨_, some_⟩⟩ := delayed.state child isNew
        · rw [found] at present
          cases present
          rw [waits] at pending
          exact absurd pending JobState.noConfusion
        · -- its parents are stored with it, and none of them as done
          obtain ⟨parent, depends⟩ := List.exists_mem_of_ne_nil _ some_
          have edge := (delayed.dependsOn parent child isNew).mp depends
          obtain ⟨first, stored, state⟩ :=
            delayed.state parent (Graph.mem_vertices.mpr (Graph.has_of_neighbour edge))
          refine ⟨parent, depends, first, stored, .inl fun done => ?_⟩
          rcases state with ⟨pending, _⟩ | ⟨waiting, _⟩
          · rw [done] at pending
            exact absurd pending JobState.noConfusion
          · rw [done] at waiting
            exact absurd waiting JobState.noConfusion
      · rw [(delayed.elsewhere child isNew).2] at found
        obtain ⟨parent, depends, old, before, holds⟩ := attended.waitsFor ⟨row, found, waits⟩
        have isOld : parent ∉ graph.vertices := fun member =>
          fresh parent member (related.parent_created depends)
        refine ⟨parent, ?_, old, ?_, ?_⟩
        · rw [(delayed.elsewhere child isNew).1]
          exact depends
        · rw [(delayed.elsewhere parent isOld).2]
          exact before
        · rw [delayed.waking]
          exact holds

theorem Attended.runner (attended : queue.Attended) (event : RunnerEvent) :
    (queue.step table (.runner event)).Attended := by
  obtain ⟨dependencies, _, waking, rows⟩ := queue.runner_step table event
  rintro child ⟨values, found, waits⟩
  refine .inl ?_
  have before : queue.values? child = some values := by
    rcases rows child with same | ⟨old, _, marked⟩
    · rwa [same] at found
    · rw [marked] at found
      cases found
      exact absurd waits JobState.noConfusion
  obtain ⟨parent, depends, old, present, holds⟩ := attended.waitsFor ⟨values, before, waits⟩
  refine ⟨parent, dependencies ▸ depends, ?_⟩
  rcases rows parent with same | ⟨_, _, marked⟩
  · exact ⟨old, same.trans present, waking ▸ holds⟩
  · exact ⟨_, marked, .inl JobState.noConfusion⟩

/-!
## Whole runs
-/

/-- The uuids of new jobs are new, no worker dies between the two transactions in which a
job is done and the jobs that depend on it are updated, and no job is deleted that
another one may be waiting for. -/
def Careful (queue : JobQueue) : QueueEvent → Prop
  | .delay graph _ _ => ∀ uuid ∈ graph.vertices, uuid ∉ queue.created
  | .workerDies uuid => uuid ∉ queue.waking
  | .unlink uuid => (queue.dependencies uuid).reverseDependsOn = [] ∨
      uuid ∉ queue.waking ∧ ∀ values, queue.values? uuid = some values → values.state = .done
  | _ => True

theorem Related.step (related : queue.Related) {event : QueueEvent}
    (careful : queue.Careful event) : (queue.step table event).Related := by
  cases event with
  | delay graph graphUuid values =>
      change (queue.delay graph graphUuid values).Related
      cases result : buildJobs graph graphUuid with
      | none =>
          unfold JobQueue.delay
          simp only [result]
          exact related
      | some jobs =>
          exact related.delayed careful (not_self_of_built result)
            (delay_delayed result queue values)
  | _ => exact related.touches (touches_step fun _ _ _ => QueueEvent.noConfusion)

theorem Attended.step (attended : queue.Attended) (related : queue.Related) {event : QueueEvent}
    (careful : queue.Careful event) : (queue.step table event).Attended := by
  cases event with
  | delay graph graphUuid values => exact attended.delay related careful graphUuid values
  | acquireJob uuid => exact attended.acquireJob uuid
  | tryPerformJob uuid => exact attended.tryPerformJob related uuid
  | enqueueDependentJobs uuid => exact attended.enqueueDependentJobs related uuid
  | workerDies uuid =>
      change JobQueue.Attended { queue with waking := queue.waking.erase uuid }
      rw [List.erase_of_not_mem careful]
      exact attended
  | retryPostpone uuid eta => exact attended.retryPostpone uuid eta
  | fail uuid => exact attended.fail uuid
  | requeueDeadJob uuid tooManyRetries => exact attended.requeueDeadJob uuid tooManyRetries
  | buttonDone uuids => exact attended.buttonDone related uuids
  | buttonCancelled uuids => exact attended.buttonCancelled uuids
  | requeue uuids => exact attended.requeue uuids
  | edit uuid edited => exact attended.edit uuid edited
  | unlink uuid => exact attended.unlink related careful
  | runner event => exact attended.runner event

/-- Whatever the workers, the users and the runner do, in whatever order their
transactions are committed: every job that waits for its parents waits for one that still
exists, and that is not done or has a worker which is about to update the jobs that
depend on it. -/
theorem waiting_job_waits (manager : ChannelManager) (sent : List String)
    (events : List QueueEvent)
    (careful : GuardedRun.Meets (step table) Careful (start manager sent) events)
    (child : String) (values : Values) :
    let after := GuardedRun.run (step table) (start manager sent) events
    after.values? child = some values → values.state = .waitDependencies →
      ∃ parent ∈ (after.dependencies child).dependsOn, ∃ parentValues,
        after.values? parent = some parentValues ∧
          (parentValues.state ≠ .done ∨ parent ∈ after.waking) := by
  intro after found waits
  have both : after.Related ∧ after.Attended :=
    GuardedRun.guarded_invariant (fun queue => queue.Related ∧ queue.Attended)
      (fun _ _ both careful => ⟨both.1.step careful, both.2.step both.1 careful⟩)
      ⟨related_start manager sent, fun _ waiting =>
        absurd waiting.choose_spec.1.symm (Option.some_ne_none _)⟩ careful
  exact both.2.waitsFor ⟨values, found, waits⟩

/-- The worker has committed the first job as done, and has yet to wake up the second. -/
def wakingRun : List QueueEvent :=
  [.delay twoJobs "graph" fun _ => waitingRow, .runner .initializeNext, .runner (.receive 2),
    .runner .processNotification, .runner .processNotification, .runner (.runJobs 5),
    .runner .setJobEnqueued, .acquireJob "first", .tryPerformJob "first"]

theorem waiting_job_waits_two :
    let after := GuardedRun.run (step jobTable) (start ChannelManager.init []) wakingRun
    ∃ parent ∈ (after.dependencies "second").dependsOn, ∃ parentValues,
      after.values? parent = some parentValues ∧
        (parentValues.state ≠ .done ∨ parent ∈ after.waking) :=
  @waiting_job_waits jobTable ChannelManager.init [] wakingRun
    ⟨fun _ _ => List.not_mem_nil, trivial, trivial, trivial, trivial, trivial, trivial, trivial,
      trivial, trivial⟩ "second" { waitingRow with state := .waitDependencies } rfl rfl

end JobQueue

end WorkflowStudio.Queue
