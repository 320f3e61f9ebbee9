import WorkflowStudio.Queue.DependentJobs
import WorkflowStudio.Queue.RunnerProperties

/-! No job runs before the jobs that it depends on: in every run of the table with its
workers, users and runner, a job that is pending, enqueued or started has parents that
are done, as long as no parent is taken back. -/

set_option autoImplicit false

namespace WorkflowStudio.Queue

open Lib

/-!
## The jobs that are built
-/

theorem not_self_of_built {graph : Graph String} {graphUuid : String}
    {jobs : String → GeneratedJob} (built : buildJobs graph graphUuid = some jobs) :
    ∀ edge ∈ graph.edges, edge.1 ≠ edge.2 := by
  intro edge member same
  unfold buildJobs at built
  rw [if_pos (List.any_eq_true.mpr ⟨edge, member, decide_eq_true same⟩)] at built
  exact Option.some_ne_none _ built.symm

/-- What the jobs are after some of the edges. -/
structure Built (graphUuid : Option String) (edges : List (String × String))
    (jobs : String → GeneratedJob) : Prop where
  graphUuid : ∀ uuid, (jobs uuid).dependencies.graphUuid = graphUuid
  dependsOn : ∀ parent child,
    parent ∈ (jobs child).dependencies.dependsOn ↔ (parent, child) ∈ edges
  reverseDependsOn : ∀ parent child,
    child ∈ (jobs parent).dependencies.reverseDependsOn ↔ (parent, child) ∈ edges
  free : ∀ uuid, (jobs uuid).dependencies.dependsOn = [] → (jobs uuid).state = .pending
  waits : ∀ uuid, (jobs uuid).dependencies.dependsOn ≠ [] → (jobs uuid).state = .waitDependencies

theorem Built.notDone {graphUuid : Option String} {edges : List (String × String)}
    {jobs : String → GeneratedJob} (built : Built graphUuid edges jobs) (uuid : String) :
    (jobs uuid).state ≠ .done := by
  by_cases free : (jobs uuid).dependencies.dependsOn = []
  · rw [built.free uuid free]
    decide
  · rw [built.waits uuid free]
    decide

theorem Built.idle {graphUuid : Option String} {edges : List (String × String)}
    {jobs : String → GeneratedJob} (built : Built graphUuid edges jobs) (uuid : String) :
    ¬ (jobs uuid).state.Active := by
  by_cases free : (jobs uuid).dependencies.dependsOn = []
  · rw [built.free uuid free]
    decide
  · rw [built.waits uuid free]
    decide

theorem mem_insertOnce {items : List String} {item other : String} :
    other ∈ insertOnce item items ↔ other ∈ items ∨ other = item := by
  unfold insertOnce
  split
  · rename_i present
    exact (or_iff_left_of_imp fun same => same ▸ present).symm
  · rw [List.mem_append, List.mem_singleton]

theorem built_addDepends {graphUuid : Option String} {edges : List (String × String)}
    {jobs : String → GeneratedJob} (built : Built graphUuid edges jobs)
    (vertex neighbour : String) :
    Built graphUuid (edges ++ [(vertex, neighbour)]) (addDepends jobs vertex neighbour) := by
  have edge : ∀ {parent child : String}, (parent, child) ∈ edges ++ [(vertex, neighbour)] ↔
      (parent, child) ∈ edges ∨ (parent = vertex ∧ child = neighbour) := by
    intro parent child
    rw [List.mem_append, List.mem_singleton, Prod.mk.injEq]
  have depends : ∀ uuid, (addDepends jobs vertex neighbour uuid).dependencies.dependsOn =
      if uuid = neighbour then insertOnce vertex (jobs uuid).dependencies.dependsOn
      else (jobs uuid).dependencies.dependsOn := fun _ => rfl
  refine ⟨built.graphUuid, fun parent child => ?_, fun parent child => ?_, fun uuid free => ?_,
    fun uuid waits => ?_⟩
  · rw [edge, ← built.dependsOn parent child]
    unfold addDepends
    simp only
    split
    · rename_i same
      rw [mem_insertOnce]
      exact or_congr_right (and_iff_left same).symm
    · rename_i different
      exact (or_iff_left fun both => different both.2).symm
  · rw [edge, ← built.reverseDependsOn parent child]
    unfold addDepends
    simp only
    split
    · rename_i same
      rw [mem_insertOnce]
      exact or_congr_right (and_iff_right same).symm
    · rename_i different
      exact (or_iff_left fun both => different both.1).symm
  · rw [depends] at free
    by_cases same : uuid = neighbour
    · rw [if_pos same] at free
      exact absurd free (List.ne_nil_of_mem (mem_insertOnce.mpr (.inr rfl)))
    · rw [if_neg same] at free
      exact (if_neg fun both => same both.1).trans (built.free uuid free)
  · rw [depends] at waits
    by_cases same : uuid = neighbour
    · exact if_pos ⟨same, built.notDone vertex⟩
    · rw [if_neg same] at waits
      exact (if_neg fun both => same both.1).trans (built.waits uuid waits)

theorem built_foldl {graphUuid : Option String} (edges : List (String × String))
    {before : List (String × String)} {jobs : String → GeneratedJob}
    (built : Built graphUuid before jobs) :
    Built graphUuid (before ++ edges)
      (edges.foldl (fun jobs edge => addDepends jobs edge.1 edge.2) jobs) := by
  induction edges generalizing before jobs with
  | nil => rwa [List.append_nil]
  | cons edge rest ih =>
      have again := ih (built_addDepends built edge.1 edge.2)
      rwa [List.append_assoc, List.singleton_append] at again

/-- The jobs depend on each other as the edges of the graph say. -/
theorem buildJobs_built {graph : Graph String} {graphUuid : String}
    {jobs : String → GeneratedJob} (result : buildJobs graph graphUuid = some jobs) :
    Built (if graph.vertices.length = 1 then none else some graphUuid) graph.edges jobs := by
  unfold buildJobs at result
  split at result
  · exact (Option.some_ne_none _ result.symm).elim
  · cases result
    refine @built_foldl _ graph.edges [] _ ⟨fun _ => rfl, fun _ _ => ?_, fun _ _ => ?_,
      fun _ _ => rfl, fun _ waits => absurd rfl waits⟩
    · exact iff_of_false List.not_mem_nil List.not_mem_nil
    · exact iff_of_false List.not_mem_nil List.not_mem_nil

namespace JobQueue

variable {table : JobTable} {queue : JobQueue} {uuid other parent child : String}
  {state : JobState} {values : Values}

/-!
## What the transactions write
-/

theorem values?_write (queue : JobQueue) (uuid other : String) (values : Option Values) :
    (queue.write uuid values).values? other =
      if other = uuid then values else queue.values? other :=
  queue.runner.get?_write uuid other values

theorem values?_setState (queue : JobQueue) (state : JobState) (uuid other : String) :
    (queue.setState state uuid).values? other =
      if other = uuid then (queue.values? uuid).map fun values => { values with state }
      else queue.values? other := by
  unfold setState
  cases found : queue.values? uuid with
  | none =>
      simp only
      split
      · rename_i same
        rw [same, found]
        rfl
      · rfl
  | some values => exact queue.values?_write uuid other _

/-- The rest of the queue is left alone. -/
structure Aside (before after : JobQueue) : Prop where
  dependencies : after.dependencies = before.dependencies
  created : after.created = before.created
  waking : after.waking = before.waking
  channelManager : after.runner.channelManager = before.runner.channelManager
  task : after.runner.task = before.runner.task

theorem Aside.refl (queue : JobQueue) : Aside queue queue :=
  ⟨rfl, rfl, rfl, rfl, rfl⟩

theorem Aside.trans {first second third : JobQueue} (left : Aside first second)
    (right : Aside second third) : Aside first third :=
  ⟨right.dependencies.trans left.dependencies, right.created.trans left.created,
    right.waking.trans left.waking, right.channelManager.trans left.channelManager,
    right.task.trans left.task⟩

theorem aside_write (queue : JobQueue) (uuid : String) (values : Option Values) :
    Aside queue (queue.write uuid values) :=
  ⟨rfl, rfl, rfl, rfl, rfl⟩

theorem aside_setState (queue : JobQueue) (state : JobState) (uuid : String) :
    Aside queue (queue.setState state uuid) := by
  unfold setState
  cases queue.values? uuid with
  | none => exact Aside.refl queue
  | some values => exact queue.aside_write uuid _

theorem aside_foldl {Item : Type} {change : JobQueue → Item → JobQueue}
    (aside : ∀ queue item, Aside queue (change queue item)) (items : List Item)
    (queue : JobQueue) : Aside queue (items.foldl change queue) := by
  induction items generalizing queue with
  | nil => exact Aside.refl queue
  | cons item rest ih => exact (aside queue item).trans (ih (change queue item))

theorem aside_updateDependentJobs (queue : JobQueue) (state : JobState) (uuid : String)
    (required : JobState) : Aside queue (queue.updateDependentJobs state uuid required) :=
  aside_foldl (fun queue child => queue.aside_setState state child) _ queue

theorem values?_foldl_setState (state : JobState) (uuids : List String) (queue : JobQueue)
    (other : String) :
    (uuids.foldl (fun queue uuid => queue.setState state uuid) queue).values? other =
      if other ∈ uuids then (queue.values? other).map fun values => { values with state }
      else queue.values? other := by
  induction uuids generalizing queue with
  | nil => rfl
  | cons uuid rest ih =>
      rw [List.foldl_cons, ih, values?_setState]
      by_cases same : other = uuid
      · subst same
        rw [if_pos rfl, if_pos List.mem_cons_self]
        split
        · rw [Option.map_map]
          rfl
        · rfl
      · rw [if_neg same]
        simp only [List.mem_cons, same, false_or]

/-!
## The columns of the dependencies
-/

/-- The columns agree with each other, and only jobs that were created have some. -/
structure Related (queue : JobQueue) : Prop where
  mirrored : ∀ parent child, child ∈ (queue.dependencies parent).reverseDependsOn ↔
    parent ∈ (queue.dependencies child).dependsOn
  grouped : ∀ parent child, parent ∈ (queue.dependencies child).dependsOn →
    ∃ graphUuid, (queue.dependencies child).graphUuid = some graphUuid ∧
      (queue.dependencies parent).graphUuid = some graphUuid
  irreflexive : ∀ uuid, uuid ∉ (queue.dependencies uuid).dependsOn
  unrelated : ∀ uuid, uuid ∉ queue.created → queue.dependencies uuid = {}
  known : ∀ uuid values, queue.values? uuid = some values → uuid ∈ queue.created

theorem Related.child_created (related : queue.Related)
    (depends : parent ∈ (queue.dependencies child).dependsOn) : child ∈ queue.created := by
  by_contra absent
  rw [related.unrelated child absent] at depends
  exact List.not_mem_nil depends

theorem Related.parent_created (related : queue.Related)
    (depends : parent ∈ (queue.dependencies child).dependsOn) : parent ∈ queue.created := by
  by_contra absent
  have listed := (related.mirrored parent child).mpr depends
  rw [related.unrelated parent absent] at listed
  exact List.not_mem_nil listed

theorem Related.aside {after : JobQueue} (related : queue.Related) (aside : Aside queue after)
    (known : ∀ uuid values, after.values? uuid = some values → uuid ∈ queue.created) :
    after.Related := by
  refine ⟨?_, ?_, ?_, ?_, ?_⟩
  · rw [aside.dependencies]
    exact related.mirrored
  · rw [aside.dependencies]
    exact related.grouped
  · rw [aside.dependencies]
    exact related.irreflexive
  · rw [aside.dependencies, aside.created]
    exact related.unrelated
  · rw [aside.created]
    exact known

/-- In the graph of the job, the states of all its parents are asked for. -/
theorem Related.mem_parentStates (related : queue.Related) {graphUuid : String}
    (graph : (queue.dependencies child).graphUuid = some graphUuid) :
    state ∈ queue.parentStates graphUuid child ↔
      ∃ parent ∈ (queue.dependencies child).dependsOn, ∃ values,
        queue.values? parent = some values ∧ values.state = state := by
  unfold parentStates
  rw [List.mem_filterMap]
  refine exists_congr fun parent => and_congr_right fun depends => ?_
  obtain ⟨same, childGraph, parentGraph⟩ := related.grouped parent child depends
  rw [if_pos (parentGraph.trans (childGraph.symm.trans graph)), Option.map_eq_some_iff]

/-- The dependent jobs that are updated, without the graphs. -/
theorem Related.mem_dependentJobs (related : queue.Related) {required : JobState} :
    child ∈ queue.dependentJobs uuid required ↔
      uuid ∈ (queue.dependencies child).dependsOn ∧ (queue.values? uuid).isSome = true ∧
        (∃ values, queue.values? child = some values ∧ values.state = .waitDependencies) ∧
        ∀ parent ∈ (queue.dependencies child).dependsOn, ∀ values,
          queue.values? parent = some values → values.state = required := by
  unfold dependentJobs
  constructor
  · intro member
    cases found : queue.values? uuid with
    | none =>
        simp only [found] at member
        exact absurd member List.not_mem_nil
    | some values =>
        cases graph : (queue.dependencies uuid).graphUuid with
        | none =>
            simp only [found, graph] at member
            exact absurd member List.not_mem_nil
        | some graphUuid =>
            simp only [found, graph, List.mem_filter, Bool.and_eq_true, decide_eq_true_eq,
              List.all_eq_true, Option.map_eq_some_iff] at member
            obtain ⟨listed, ⟨⟨childGraph, waits⟩, _⟩, all⟩ := member
            refine ⟨(related.mirrored uuid child).mp listed, rfl, waits, ?_⟩
            intro parent depends values present
            exact all values.state
              ((related.mem_parentStates childGraph).mpr ⟨parent, depends, values, present, rfl⟩)
  · rintro ⟨depends, present, waits, all⟩
    obtain ⟨graphUuid, childGraph, graph⟩ := related.grouped uuid child depends
    obtain ⟨values, found⟩ := Option.isSome_iff_exists.mp present
    have own : values.state ∈ queue.parentStates graphUuid child :=
      (related.mem_parentStates childGraph).mpr ⟨uuid, depends, values, found, rfl⟩
    simp only [found, graph, List.mem_filter, Bool.and_eq_true, decide_eq_true_eq,
      List.all_eq_true, Option.map_eq_some_iff]
    refine ⟨(related.mirrored uuid child).mpr depends,
      ⟨⟨childGraph, waits⟩, List.ne_nil_of_mem own⟩, fun state member => ?_⟩
    obtain ⟨parent, depends, values, found, rfl⟩ :=
      (related.mem_parentStates childGraph).mp member
    exact all parent depends values found

/-- A dependent job that is updated was waiting. -/
theorem Related.dependent_waits (related : queue.Related) {required : JobState}
    (member : child ∈ queue.dependentJobs uuid required)
    (found : queue.values? child = some values) : values.state = .waitDependencies := by
  obtain ⟨_, _, ⟨same, present, state⟩, _⟩ := related.mem_dependentJobs.mp member
  rw [found] at present
  cases present
  exact state

/-- A job is sent back to wait for its parents exactly when one of them is not done. -/
theorem pendingState_eq (queue : JobQueue) (uuid : String) :
    (queue.pendingState uuid = .pending ∧
      ∀ parent ∈ (queue.dependencies uuid).dependsOn, ∀ values,
        queue.values? parent = some values → values.state = .done) ∨
    (queue.pendingState uuid = .waitDependencies ∧
      ∃ parent ∈ (queue.dependencies uuid).dependsOn, ∃ values,
        queue.values? parent = some values ∧ values.state ≠ .done) := by
  unfold pendingState
  split
  · rename_i waits
    obtain ⟨parent, depends, notDone⟩ := List.any_eq_true.mp waits
    obtain ⟨values, found, state⟩ := (Option.any_eq_true _ _).mp notDone
    exact .inr ⟨rfl, parent, depends, values, found, of_decide_eq_true state⟩
  · rename_i free
    refine .inl ⟨rfl, fun parent depends values found => ?_⟩
    by_contra notDone
    refine free (List.any_eq_true.mpr ⟨parent, depends, ?_⟩)
    rw [found]
    exact decide_eq_true notDone

end JobQueue

/-!
## The jobs that may be handed out
-/

/-- On its way to a worker, or with one. -/
def JobState.Runnable (state : JobState) : Prop :=
  state = .pending ∨ state = .enqueued ∨ state = .started

instance (state : JobState) : Decidable state.Runnable :=
  inferInstanceAs (Decidable (_ ∨ _))

theorem JobState.runnable_of_active {state : JobState} (active : state.Active) :
    state.Runnable :=
  .inr active

namespace ChannelManager

variable {manager before after : ChannelManager} {uuid other : String} {data : JobData}

/-- The channels have a job with the uuid that has not failed. -/
def Queues (manager : ChannelManager) (uuid : String) : Prop :=
  ∃ job, manager.channels.Holds job ∧ ¬ manager.channels.Fails job ∧
    (manager.jobs job).uuid = uuid

theorem Beside.queues (beside : Beside uuid before after) (queues : after.Queues uuid) :
    before.Queues uuid := by
  obtain ⟨job, holds, notFailed, named⟩ := queues
  obtain ⟨held, same⟩ := beside.back job holds named
  exact ⟨job, held, mt (beside.kept job held same).2.2.2.mpr notFailed, same⟩

theorem Sound.not_queues_removeJob (sound : manager.Sound) :
    ¬ (manager.removeJob uuid).Queues uuid := by
  rintro ⟨job, holds, _, named⟩
  exact sound.unused_removeJob uuid job holds named

/-- A notification that a job waits for its parents queues nothing. -/
theorem notify_waiting (sound : manager.Sound) (waits : data.state = some .waitDependencies)
    (queues : (manager.notify data).1.Queues data.uuid) : manager.Queues data.uuid := by
  have created : ∀ (manager : ChannelManager) (channel : Path), manager.Sound →
      ((manager.createJob data channel).transition manager.nextId data.state).Queues data.uuid →
        manager.Queues data.uuid := by
    intro manager channel sound queues
    rw [waits] at queues
    exact (createJob_beside sound data channel).queues queues
  unfold ChannelManager.notify at queues
  cases found : manager.channels.getChannelByName data.channelName false true with
  | none =>
      rw [found] at queues
      exact queues
  | some outcome =>
      have looked := sound.lookup found
      refine (lookup_beside found).queues ?_
      rw [found] at queues
      simp only at queues
      split at queues
      · exact created _ outcome.1 looked queues
      · split at queues
        · exact queues
        · split at queues
          · exact absurd (created _ outcome.1 (looked.removeJob data.uuid) queues)
              looked.not_queues_removeJob
          · rw [waits] at queues
            exact queues

/-- A notification queues its job only if that is on its way to a worker. -/
theorem notify_queues (sound : manager.Sound) (soundAfter : (manager.notify data).1.Sound)
    (shown : (manager.notify data).1.Shows data)
    (queues : (manager.notify data).1.Queues other) :
    manager.Queues other ∨
      (other = data.uuid ∧ ∃ state : JobState, data.state = some state ∧ state.Runnable) := by
  by_cases different : data.uuid = other
  · subst different
    obtain ⟨job, holds, notFailed, named⟩ := queues
    unfold Shows at shown
    cases state : data.state with
    | none =>
        rw [state] at shown
        exact absurd named (shown job holds)
    | some current =>
        rw [state] at shown
        cases current with
        | waitDependencies =>
            exact .inl (notify_waiting sound state ⟨job, holds, notFailed, named⟩)
        | pending => exact .inr ⟨rfl, .pending, rfl, .inl rfl⟩
        | enqueued => exact .inr ⟨rfl, .enqueued, rfl, .inr (.inl rfl)⟩
        | started => exact .inr ⟨rfl, .started, rfl, .inr (.inr rfl)⟩
        | done => exact absurd named (shown job holds)
        | cancelled => exact absurd named (shown job holds)
        | failed =>
            obtain ⟨failed, mirrors, fails⟩ := shown
            have same := soundAfter.unique holds (Channels.holds_of_fails fails)
              (named.trans mirrors.uuid.symm)
            exact absurd (same ▸ fails) notFailed
  · exact .inl ((notify_beside sound different).queues queues)

theorem getJobsToRun_queues (sound : manager.Sound) {now : Time}
    (queues : (manager.getJobsToRun now).1.Queues uuid) : manager.Queues uuid := by
  by_cases handed : ∃ job ∈ (manager.getJobsToRun now).2, (manager.jobs job).uuid = uuid
  · obtain ⟨job, handed, named⟩ := handed
    refine ⟨job, (handed_out sound handed).2.1, fun fails => ?_, named⟩
    exact (sound.getJobsToRun now).flows.not_runs_of_fails
      (Channels.fails_getJobsToRun.mpr fails)
      ((Channels.runs_getJobsToRun sound.flows).mpr (.inr handed))
  · exact (getJobsToRun_beside sound fun job member named =>
      handed ⟨job, member, named⟩).queues queues

end ChannelManager

namespace JobRunner

open ChannelManager

variable {table : JobTable} {runner : JobRunner} {uuid : String}

/-- The job is on its way to a worker: its row says so, the channels have it, or the
runner has read that and is about to notify them. -/
def Live (runner : JobRunner) (uuid : String) : Prop :=
  (∃ values, runner.rows.get? uuid = some values ∧ values.state.Runnable) ∨
    runner.channelManager.Queues uuid ∨
      ∃ read, (uuid, read) ∈ runner.selected ∧ read.state.Runnable

theorem Consistent.queues_of_runs (consistent : runner.Consistent table) {job : JobId}
    (runs : runner.channelManager.channels.Runs job) :
    runner.channelManager.Queues (runner.channelManager.jobs job).uuid :=
  ⟨job, Channels.holds_of_runs runs, fun fails =>
    consistent.sound.flows.not_runs_of_fails fails runs, rfl⟩

theorem live_notified (consistent : runner.Consistent table) {values : Values} {other : String}
    (live : values.state.Runnable → runner.Live uuid)
    (ready : values.state.Active → ∀ job, runner.channelManager.channels.Holds job →
      (runner.channelManager.jobs job).uuid = uuid → runner.channelManager.channels.Runs job)
    (queues : (runner.channelManager.notify (table.jobData uuid values)).1.Queues other) :
    runner.Live other := by
  obtain ⟨_, shown, sound, _⟩ := consistent.notified ready
  rcases notify_queues consistent.sound sound shown queues with before | ⟨rfl, state, same, runs⟩
  · exact .inr (.inl before)
  · cases same
    exact live runs

/-- No step of the runner sends a job on its way. -/
theorem live_step (consistent : runner.Consistent table) {event : RunnerEvent}
    (own : ∀ uuid values, event ≠ .write uuid values)
    (live : (runner.step table event).Live uuid) : runner.Live uuid := by
  obtain ⟨rows, sent, notifies, manager, task⟩ := runner
  cases event with
  | write uuid values => exact absurd rfl (own uuid values)
  | receive count => exact live
  | waitNotification =>
      cases task with
      | failed => exact live
      | initializeDatabases selected => exact live
      | runJobs handed => exact live
      | idle => exact live.imp_right (Or.imp_left (getWakeupTime_beside consistent.sound).queues)
  | runJobs now =>
      cases task with
      | failed => exact live
      | initializeDatabases selected => exact live
      | runJobs handed => exact live
      | idle => exact live.imp_right (Or.imp_left (getJobsToRun_queues consistent.sound))
  | restart sent =>
      rcases live with row | ⟨job, holds, _⟩ | ⟨read, among, runnable⟩
      · exact .inl row
      · refine absurd holds (not_holds_removeDb consistent.sound ?_)
        exact fun held holds => (consistent.ours _ held (consistent.sound.indexed held holds)).1
      · exact .inl ⟨read, OrderedMap.get?_eq_some_iff.mpr (List.mem_filter.mp among).1, runnable⟩
  | setJobEnqueued =>
      cases task with
      | failed => exact live
      | initializeDatabases selected => exact live
      | idle => exact live
      | runJobs handed =>
          cases handed with
          | nil => exact live
          | cons job rest =>
              change Live (JobRunner.setJobEnqueued
                ⟨rows, sent, notifies, manager, .runJobs (job :: rest)⟩) uuid at live
              unfold JobRunner.setJobEnqueued at live
              simp only at live
              cases found : rows.get? (manager.jobs job).uuid with
              | none =>
                  rw [found] at live
                  exact live
              | some values =>
                  rw [found] at live
                  rcases live with ⟨written, row, runnable⟩ | elsewhere
                  · rw [get?_write] at row
                    split at row
                    · rename_i same
                      subst same
                      exact .inr (.inl (consistent.queues_of_runs
                        (consistent.unmarked job List.mem_cons_self).1))
                    · exact .inl ⟨written, row, runnable⟩
                  · exact .inr elsewhere
  | initializeNext =>
      cases task with
      | failed => exact live
      | idle => exact live
      | runJobs handed => exact live
      | initializeDatabases selected =>
          cases selected with
          | nil => exact live
          | cons entry rest =>
              obtain ⟨read, values⟩ := entry
              have here : (read, values) ∈ (read, values) :: rest := List.mem_cons_self
              have unread := consistent.unread _ here
              have ready : values.state.Active → ∀ job, manager.channels.Holds job →
                  (manager.jobs job).uuid = read → manager.channels.Runs job :=
                fun _ job holds named => absurd named (unread.1 job holds)
              change Live (JobRunner.notify table
                ⟨rows, sent, notifies, manager, .initializeDatabases rest⟩ read values) uuid at live
              rw [notify_quiet ⟨rows, sent, notifies, manager, .initializeDatabases rest⟩
                (consistent.notified ready).1] at live
              rcases live with row | queues | ⟨other, among, runnable⟩
              · exact .inl row
              · exact live_notified consistent
                  (fun runnable => .inr (.inr ⟨values, here, runnable⟩)) ready queues
              · exact .inr (.inr ⟨other, List.mem_cons_of_mem _ among, runnable⟩)
  | processNotification =>
      cases task with
      | failed => exact live
      | initializeDatabases selected => exact live
      | runJobs handed => exact live
      | idle =>
          change Live (JobRunner.processNotification table
            ⟨rows, sent, notifies, manager, .idle⟩) uuid at live
          cases last : notifies.getLast? with
          | none =>
              unfold JobRunner.processNotification at live
              simp only [last] at live
              exact live
          | some read =>
              unfold JobRunner.processNotification at live
              simp only [last] at live
              cases found : rows.get? read with
              | none =>
                  simp only [found] at live
                  rcases live with row | queues | among
                  · exact .inl row
                  · by_cases same : read = uuid
                    · exact absurd (same ▸ queues) consistent.sound.not_queues_removeJob
                    · exact .inr (.inl ((removeJob_beside consistent.sound same).queues queues))
                  · exact .inr (.inr among)
              | some values =>
                  simp only [found] at live
                  have ready := @Consistent.runs_of_active _ _ consistent rfl _ _ found
                  rw [notify_quiet ⟨rows, sent, notifies.dropLast, manager, .idle⟩
                    (consistent.notified ready).1] at live
                  rcases live with row | queues | among
                  · exact .inl row
                  · exact live_notified consistent
                      (fun runnable => .inl ⟨values, found, runnable⟩) ready queues
                  · exact .inr (.inr among)

end JobRunner

end WorkflowStudio.Queue
