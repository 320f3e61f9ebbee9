import WorkflowStudio.Queue.AgreementProperties

/-! A job that a worker may be running is never enqueued a second time: where the runner
marks a job as enqueued, whatever it says in the row by then, the row was not active. -/

set_option autoImplicit false

namespace WorkflowStudio.Queue

open Lib PriorityQueue

namespace JobRunner

variable {table : JobTable} {runner : JobRunner}

/-- The uuids of the jobs that are handed out, but not marked. -/
def unmarkedUuids (runner : JobRunner) : List String :=
  runner.handed.map fun job => (runner.channelManager.jobs job).uuid

/-- The invariant: the rows of the jobs that are yet to be marked are not active. -/
structure MarksIdle (runner : JobRunner) : Prop where
  distinct : runner.unmarkedUuids.Nodup
  idle : ∀ uuid ∈ runner.unmarkedUuids, ∀ values,
    runner.rows.get? uuid = some values → ¬ values.state.Active

theorem marksIdle_of_handed (none : runner.handed = []) : runner.MarksIdle := by
  have empty : runner.unmarkedUuids = [] := congrArg (List.map _) none
  refine ⟨empty ▸ List.nodup_nil, fun uuid member => ?_⟩
  rw [empty] at member
  exact absurd member List.not_mem_nil

/-- Whether the assertions hold or not, a notification hands out no jobs. -/
theorem handed_notify (runner : JobRunner) (uuid : String) (values : Values)
    (none : runner.handed = []) : (runner.notify table uuid values).handed = [] := by
  unfold JobRunner.notify
  generalize runner.channelManager.notify (table.jobData uuid values) = outcome
  obtain ⟨manager, failed⟩ := outcome
  cases failed with
  | false => exact none
  | true => rfl

/-- What the channels hand out is not active: its job would be running there. -/
theorem Consistent.not_active_of_handed (consistent : runner.Consistent table)
    (idle : runner.selected = []) {now : Time} {job : JobId}
    (handed : job ∈ (runner.channelManager.getJobsToRun now).2) {values : Values}
    (found : runner.rows.get? (runner.channelManager.jobs job).uuid = some values) :
    ¬ values.state.Active := by
  intro active
  obtain ⟨rests, holds, _⟩ := ChannelManager.handed_out consistent.sound handed
  exact rests (consistent.runs_of_active idle found active job holds rfl)

theorem Consistent.marksIdle_runJobs (consistent : runner.Consistent table)
    (marks : runner.MarksIdle) (now : Time) : (runner.runJobs now).MarksIdle := by
  obtain ⟨rows, sent, notifies, manager, task⟩ := runner
  cases task with
  | failed => exact marks
  | initializeDatabases selected => exact marks
  | runJobs handed => exact marks
  | idle =>
      have sound : manager.Sound := consistent.sound
      have delivered := @Channels.getJobsToRun_delivered _ _ _ _ now sound.flows
      obtain ⟨moved, store, _⟩ := delivered.store
      have same : ∀ job,
          ((manager.getJobsToRun now).1.jobs job).uuid = (manager.jobs job).uuid := by
        intro job
        change ((manager.channels.getJobsToRun now manager.jobs).1 job).uuid = _
        rw [store, Jobs.uuid_cleared]
      have holds : ∀ job ∈ (manager.getJobsToRun now).2, manager.channels.Holds job :=
        fun job handed => (ChannelManager.handed_out sound handed).2.1
      refine ⟨List.Nodup.map_on (fun first handed other also named => ?_) delivered.nodup,
        fun uuid member values found => ?_⟩
      · change ((manager.getJobsToRun now).1.jobs first).uuid =
          ((manager.getJobsToRun now).1.jobs other).uuid at named
        rw [same, same] at named
        exact sound.unique (holds first handed) (holds other also) named
      · obtain ⟨job, handed, rfl⟩ := List.mem_map.mp member
        change rows.get? ((manager.getJobsToRun now).1.jobs job).uuid = some values at found
        rw [same] at found
        exact consistent.not_active_of_handed rfl handed found

theorem MarksIdle.write (marks : runner.MarksIdle) {uuid : String} {values : Option Values}
    (allowed : runner.OnlyRunnerEnqueues (.write uuid values)) :
    (runner.write uuid values).MarksIdle := by
  refine ⟨marks.distinct, fun other member written found active => ?_⟩
  rw [get?_write] at found
  split at found
  · rename_i same
    subst same
    subst found
    obtain ⟨old, before, wasActive⟩ := allowed active
    exact marks.idle other member old before wasActive
  · exact marks.idle other member written found active

/-- The row that is marked becomes active, but none of the others that are to follow. -/
theorem MarksIdle.setJobEnqueued (marks : runner.MarksIdle) : runner.setJobEnqueued.MarksIdle := by
  obtain ⟨rows, sent, notifies, manager, task⟩ := runner
  cases task with
  | failed => exact marks
  | idle => exact marks
  | initializeDatabases selected => exact marks
  | runJobs handed =>
      cases handed with
      | nil => exact marksIdle_of_handed rfl
      | cons job rest =>
          obtain ⟨first, distinct⟩ := List.nodup_cons.mp marks.distinct
          have later : MarksIdle ⟨rows, sent, notifies, manager, .runJobs rest⟩ :=
            ⟨distinct, fun uuid member => marks.idle uuid (List.mem_cons_of_mem _ member)⟩
          unfold JobRunner.setJobEnqueued
          simp only
          cases found : rows.get? (manager.jobs job).uuid with
          | none => exact later
          | some values =>
              refine ⟨distinct, fun uuid member written present => ?_⟩
              have other : uuid ≠ (manager.jobs job).uuid := by
                rintro rfl
                exact first member
              rw [get?_write, if_neg other] at present
              exact later.idle uuid member written present

theorem MarksIdle.step (marks : runner.MarksIdle) (consistent : runner.Consistent table)
    {event : RunnerEvent} (allowed : runner.OnlyRunnerEnqueues event) :
    (runner.step table event).MarksIdle := by
  cases event with
  | write uuid values => exact marks.write allowed
  | receive count => exact ⟨marks.distinct, marks.idle⟩
  | runJobs now => exact consistent.marksIdle_runJobs marks now
  | setJobEnqueued => exact marks.setJobEnqueued
  | restart sent => exact marksIdle_of_handed rfl
  | waitNotification =>
      obtain ⟨rows, sent, notifies, manager, task⟩ := runner
      cases task with
      | failed => exact marks
      | initializeDatabases selected => exact marks
      | runJobs handed => exact marks
      | idle => exact marksIdle_of_handed rfl
  | initializeNext =>
      obtain ⟨rows, sent, notifies, manager, task⟩ := runner
      cases task with
      | failed => exact marks
      | idle => exact marks
      | runJobs handed => exact marks
      | initializeDatabases selected =>
          cases selected with
          | nil => exact marksIdle_of_handed rfl
          | cons entry rest => exact marksIdle_of_handed (handed_notify _ entry.1 entry.2 rfl)
  | processNotification =>
      obtain ⟨rows, sent, notifies, manager, task⟩ := runner
      cases task with
      | failed => exact marks
      | initializeDatabases selected => exact marks
      | runJobs handed => exact marks
      | idle =>
          change (JobRunner.processNotification table
            ⟨rows, sent, notifies, manager, .idle⟩).MarksIdle
          cases last : notifies.getLast? with
          | none =>
              unfold JobRunner.processNotification
              simp only [last]
              exact marks
          | some uuid =>
              unfold JobRunner.processNotification
              simp only [last]
              cases found : rows.get? uuid with
              | none => exact marksIdle_of_handed rfl
              | some values => exact marksIdle_of_handed (handed_notify _ uuid values rfl)

variable {int : Name → Except Name Int} {configString : Name} {configured : ChannelManager}

/-- Whatever is written between the hand-out and the mark, and however stale what the
runner knows is: no row that it marks as enqueued is enqueued or started already. -/
theorem active_not_enqueued_again
    (success : ChannelManager.init.simpleConfigure int configString = .ok configured)
    (rows : OrderedMap String Values) (sent : List String) (events : List RunnerEvent)
    (allowed : GuardedRun.Meets (step table) OnlyRunnerEnqueues (connect configured rows sent) events)
    (job : JobId) (rest : List JobId) (values : Values) :
    let after := GuardedRun.run (step table) (connect configured rows sent) events
    after.task = .runJobs (job :: rest) →
      after.rows.get? (after.channelManager.jobs job).uuid = some values →
        ¬ values.state.Active := by
  intro after marking found
  have started : (connect configured rows sent).Consistent table :=
    @consistent_run table rows sent int configString configured success [] trivial
  have kept := GuardedRun.guarded_invariant
    (fun runner => runner.Consistent table ∧ runner.MarksIdle)
    (fun _ event kept allowed => ⟨kept.1.step allowed, kept.2.step kept.1 allowed⟩)
    ⟨started, marksIdle_of_handed rfl⟩ allowed
  refine kept.2.idle _ (List.mem_map.mpr ⟨job, ?_, rfl⟩) values found
  change job ∈ after.handed
  unfold handed
  rw [marking]
  exact List.mem_cons_self

theorem active_not_enqueued_again_waiting :
    ¬ waitingRow.state.Active := by
  refine @active_not_enqueued_again jobTable (fun text => .error text) [] ChannelManager.init rfl
    .empty [] [.initializeNext, .write "a" (some waitingRow), .receive 1, .processNotification,
      .runJobs 5] ?_ 0 [] waitingRow rfl rfl
  exact ⟨trivial, fun active => absurd active (by decide), trivial, trivial, trivial, trivial⟩

end JobRunner

end WorkflowStudio.Queue

/-! The capacity of the root channel bounds the jobs of the database itself: never more
of them are enqueued or started, whatever is written and whenever the runner restarts. -/

namespace WorkflowStudio.Queue

open Lib PriorityQueue

namespace Channels

/-- What holds of the first channel of the list, which is the root of the tree. -/
def AtRoot (holds : Channel → Prop) : Channels → Prop
  | .nil => False
  | .cons _ channel _ _ => holds channel

def rootRunning : Channels → Finset JobId
  | .nil => ∅
  | .cons _ channel _ _ => channel.running

variable {holds : Channel → Prop} {channels : Channels} {jobs : Jobs} {job : JobId}

theorem Rooted.mem_rootRunning (rooted : channels.Rooted) :
    job ∈ channels.rootRunning ↔ channels.Runs job := by
  cases channels with
  | nil => exact (List.cons_ne_nil _ _ rooted.symm).elim
  | cons name channel children siblings =>
      cases siblings with
      | nil => exact (or_iff_left id).symm
      | cons _ _ _ _ => exact (List.cons_ne_nil _ _ (List.cons.inj rooted).2).elim

theorem AtRoot.climb {own above : Channel → Option Channel} {path : Path}
    (atRoot : channels.AtRoot holds)
    (atOwn : ∀ channel changed, own channel = some changed → holds channel → holds changed)
    (atAbove : ∀ channel changed, above channel = some changed → holds channel → holds changed) :
    (channels.climb own above path).1.AtRoot holds := by
  cases channels with
  | nil => exact atRoot
  | cons name channel children siblings =>
      cases path with
      | nil => exact atRoot
      | cons first rest =>
          rw [Channels.climb]
          split
          · split
            · cases result : own channel with
              | none => exact atRoot
              | some changed => exact atOwn channel changed result atRoot
            · simp only
              split
              · cases result : above channel with
                | none => exact atRoot
                | some changed => exact atAbove channel changed result atRoot
              · exact atRoot
          · exact atRoot

theorem AtRoot.ensure (atRoot : channels.AtRoot holds) (path : Path) :
    (channels.ensure path).AtRoot holds := by
  cases channels with
  | nil => exact atRoot.elim
  | cons name channel children siblings =>
      cases path with
      | nil => exact atRoot
      | cons first rest =>
          rw [Channels.ensure]
          split
          · exact atRoot
          · exact atRoot

/-- The root yields no more jobs than it may run. -/
theorem rootRunning_getJobsToRun {now : Time} {limit : Int} (positive : limit ≠ 0)
    (limited : channels.AtRoot fun channel => channel.capacity = some limit)
    (within : (channels.rootRunning.card : Int) ≤ max limit 0) :
    ((channels.getJobsToRun now jobs).2.1.rootRunning.card : Int) ≤ max limit 0 := by
  cases channels with
  | nil => exact within
  | cons name channel children siblings =>
      obtain ⟨moved, advances⟩ := (channel.enqueue (children.getJobsToRun now jobs).1
        (children.getJobsToRun now jobs).2.2).dispatch_advances now
          (children.getJobsToRun now jobs).1
      exact advances.within limit limited positive within

end Channels

namespace ChannelManager

variable {manager before middle after : ChannelManager} {data : JobData} {uuid : String}
  {limit : Int}

/-- The jobs that the root is running were running before, under the same uuids. -/
def Fewer (before after : ChannelManager) : Prop :=
  ∀ job, after.channels.Runs job →
    before.channels.Runs job ∧ (after.jobs job).uuid = (before.jobs job).uuid

theorem Fewer.trans (first : Fewer before middle) (second : Fewer middle after) :
    Fewer before after := by
  intro job runs
  obtain ⟨then_, same⟩ := second job runs
  obtain ⟨now, again⟩ := first job then_
  exact ⟨now, same.trans again⟩

theorem Fewer.hands (fewer : Fewer before after) (hands : after.Hands uuid) : before.Hands uuid := by
  obtain ⟨job, named, runs⟩ := hands
  obtain ⟨ran, same⟩ := fewer job runs
  exact ⟨job, same.symm.trans named, ran⟩

theorem transition_fewer (manager : ChannelManager) (job : JobId) {state : Option JobState}
    (idle : ¬ (state = some .enqueued ∨ state = some .started)) :
    Fewer manager (manager.transition job state) := by
  have dropped : ∀ held, ∀ channel changed : Channel, some (channel.drop job) = some changed →
      held ∈ changed.running → held ∈ channel.running := by
    rintro held channel _ ⟨⟩ member
    exact Finset.mem_of_mem_erase member
  have removed : Fewer manager (manager.removeFromChannel job) := fun held runs =>
    ⟨Channels.runs_climb (dropped held) (dropped held) runs, rfl⟩
  have pends : ∀ held, ∀ channel changed : Channel,
      channel.setPending manager.jobs job = some changed →
        held ∈ changed.running → held ∈ channel.running := by
    intro held channel changed result member
    unfold Channel.setPending at result
    split at result
    · exact (Option.some_ne_none _ result.symm).elim
    · cases result
      exact Finset.mem_of_mem_erase member
  have breaks : ∀ held, ∀ channel changed : Channel, channel.setFailed job = some changed →
      held ∈ changed.running → held ∈ channel.running := by
    intro held channel changed result member
    unfold Channel.setFailed at result
    split at result
    · exact (Option.some_ne_none _ result.symm).elim
    · cases result
      exact Finset.mem_of_mem_erase member
  cases state with
  | none => exact removed
  | some state =>
      cases state with
      | waitDependencies => exact fun held runs => ⟨runs, rfl⟩
      | enqueued => exact absurd (.inl rfl) idle
      | started => exact absurd (.inr rfl) idle
      | done => exact removed
      | cancelled => exact removed
      | pending =>
          exact fun held runs => ⟨Channels.runs_climb (pends held) (dropped held) runs, rfl⟩
      | failed =>
          exact fun held runs => ⟨Channels.runs_climb (breaks held) (dropped held) runs, rfl⟩

theorem createJob_fewer (sound : manager.Sound) (data : JobData) (channel : Path) :
    Fewer manager (manager.createJob data channel) := fun job runs => by
  have bound := sound.bounded job (Channels.references_of_holds (Channels.holds_of_runs runs))
  exact ⟨runs, congrArg ChannelJob.uuid (if_neg (Nat.ne_of_lt bound))⟩

theorem removeJob_fewer (manager : ChannelManager) (uuid : String) :
    Fewer manager (manager.removeJob uuid) := by
  unfold ChannelManager.removeJob
  cases manager.findJob uuid with
  | none => exact fun job runs => ⟨runs, rfl⟩
  | some job =>
      have removed := @transition_fewer manager job none (by simp)
      exact fun held runs => removed held runs

/-- A notification that a job is not active starts no job. -/
theorem notify_fewer (sound : manager.Sound)
    (idle : ¬ (data.state = some .enqueued ∨ data.state = some .started)) :
    Fewer manager (manager.notify data).1 := by
  unfold ChannelManager.notify
  cases found : manager.channels.getChannelByName data.channelName false true with
  | none => exact fun job runs => ⟨runs, rfl⟩
  | some outcome =>
      have looked := sound.lookup found
      have same : Fewer manager { manager with channels := outcome.2 } := fun job runs => by
        obtain ⟨path, created⟩ := getChannelByName_channels found
        refine ⟨?_, rfl⟩
        change outcome.2.Runs job at runs
        rw [created, (manager.channels.ensure_same path job).2.1] at runs
        exact runs
      refine same.trans ?_
      simp only
      split
      · exact (createJob_fewer looked data _).trans (transition_fewer _ _ idle)
      · split
        · exact fun job runs => ⟨runs, rfl⟩
        · split
          · exact ((removeJob_fewer _ _).trans (createJob_fewer (looked.removeJob _) data _)).trans
              (transition_fewer _ _ idle)
          · exact transition_fewer _ _ idle

/-- The uuids of the jobs that are handed out. -/
def handedUuids (manager : ChannelManager) : Finset String :=
  manager.channels.rootRunning.image fun job => (manager.jobs job).uuid

theorem mem_handedUuids (rooted : manager.channels.Rooted) :
    uuid ∈ manager.handedUuids ↔ manager.Hands uuid := by
  simp only [handedUuids, Finset.mem_image, rooted.mem_rootRunning, Hands, and_comm]

/-- There are as many of them as jobs. -/
theorem Sound.card_handedUuids (sound : manager.Sound) (rooted : manager.channels.Rooted) :
    manager.handedUuids.card = manager.channels.rootRunning.card := by
  refine Finset.card_image_of_injOn fun first runs second also same => ?_
  have runs := rooted.mem_rootRunning.mp (Finset.mem_coe.mp runs)
  have also := rooted.mem_rootRunning.mp (Finset.mem_coe.mp also)
  exact sound.unique (Channels.holds_of_runs runs) (Channels.holds_of_runs also) same

/-- No event changes the capacity of the root. -/
theorem limited_step (sound : manager.Sound)
    (limited : manager.channels.AtRoot fun channel => channel.capacity = some limit)
    (event : Event) :
    (manager.step event).channels.AtRoot fun channel => channel.capacity = some limit := by
  have dropped : ∀ (job : JobId) (channel changed : Channel),
      some (channel.drop job) = some changed →
        channel.capacity = some limit → changed.capacity = some limit := by
    rintro job channel _ ⟨⟩ same
    exact same
  have starts : ∀ (job : JobId) (channel changed : Channel),
      channel.setRunning job = some changed →
        channel.capacity = some limit → changed.capacity = some limit := by
    intro job channel changed result same
    unfold Channel.setRunning at result
    split at result
    · exact (Option.some_ne_none _ result.symm).elim
    · cases result
      exact same
  have pends : ∀ (jobs : Jobs) (job : JobId) (channel changed : Channel),
      channel.setPending jobs job = some changed →
        channel.capacity = some limit → changed.capacity = some limit := by
    intro jobs job channel changed result same
    unfold Channel.setPending at result
    split at result
    · exact (Option.some_ne_none _ result.symm).elim
    · cases result
      exact same
  have breaks : ∀ (job : JobId) (channel changed : Channel),
      channel.setFailed job = some changed →
        channel.capacity = some limit → changed.capacity = some limit := by
    intro job channel changed result same
    unfold Channel.setFailed at result
    split at result
    · exact (Option.some_ne_none _ result.symm).elim
    · cases result
      exact same
  refine sound.tree_invariant limited (fun channels limited name outcome found => ?_)
    (fun manager limited job state => ?_) (fun now => ?_) ?_ event
  · obtain ⟨path, created⟩ := getChannelByName_channels found
    rw [created]
    exact limited.ensure path
  · have removed : (manager.removeFromChannel job).channels.AtRoot
        fun channel => channel.capacity = some limit :=
      Channels.AtRoot.climb limited (dropped job) (dropped job)
    cases state with
    | none => exact removed
    | some state =>
        cases state with
        | waitDependencies => exact limited
        | enqueued => exact Channels.AtRoot.climb limited (starts job) (starts job)
        | started => exact Channels.AtRoot.climb limited (starts job) (starts job)
        | done => exact removed
        | cancelled => exact removed
        | pending => exact Channels.AtRoot.climb limited (pends manager.jobs job) (dropped job)
        | failed => exact Channels.AtRoot.climb limited (breaks job) (dropped job)
  · change (manager.channels.getJobsToRun now manager.jobs).2.1.AtRoot _
    cases tree : manager.channels with
    | nil =>
        rw [tree] at limited
        exact limited
    | cons name channel children siblings =>
        rw [tree] at limited
        obtain ⟨moved, advances⟩ := (channel.enqueue (children.getJobsToRun now manager.jobs).1
          (children.getJobsToRun now manager.jobs).2.2).dispatch_advances now
            (children.getJobsToRun now manager.jobs).1
        exact advances.capacity.trans limited
  · change (manager.channels.getWakeupTime manager.jobs 0).2.AtRoot _
    cases tree : manager.channels with
    | nil =>
        rw [tree] at limited
        exact limited
    | cons name channel children siblings =>
        rw [tree] at limited
        rw [Channels.getWakeupTime]
        split
        · split
          · exact limited
          · exact limited
        · exact limited

end ChannelManager

namespace JobRunner

open ChannelManager

variable {table : JobTable} {runner after : JobRunner} {limit : Int}

/-- The job of the uuid takes a place of the root channel, or will when the row that was
read is notified. -/
def TakesPlace (runner : JobRunner) (uuid : String) : Prop :=
  runner.channelManager.Hands uuid ∨ ∃ read, (uuid, read) ∈ runner.selected ∧ read.state.Active

/-- The invariant: the places of the root channel are enough for the jobs that take one. -/
structure Limited (limit : Int) (runner : JobRunner) : Prop where
  capacity : runner.channelManager.channels.AtRoot fun channel => channel.capacity = some limit
  within : ∃ places : Finset String, (places.card : Int) ≤ max limit 0 ∧
    ∀ uuid, runner.TakesPlace uuid → uuid ∈ places

theorem Limited.fewer (limited : runner.Limited limit)
    (capacity : after.channelManager.channels.AtRoot fun channel => channel.capacity = some limit)
    (fewer : ∀ uuid, after.TakesPlace uuid → runner.TakesPlace uuid) : after.Limited limit := by
  obtain ⟨places, within, all⟩ := limited.within
  exact ⟨capacity, places, within, fun uuid takes => all uuid (fewer uuid takes)⟩

/-- A row that is notified: if it is active, its job had a place. -/
theorem hands_notify (consistent : runner.Consistent table) {uuid other : String}
    {values : Values} (had : values.state.Active → runner.TakesPlace uuid)
    (hands : (runner.channelManager.notify (table.jobData uuid values)).1.Hands other) :
    runner.TakesPlace other := by
  by_cases active : values.state.Active
  · by_cases same : uuid = other
    · exact same ▸ had active
    · exact .inl ((notify_beside consistent.sound same).hands.mp hands)
  · exact .inl ((notify_fewer consistent.sound fun busy => active (jobData_active.mp busy)).hands
      hands)

theorem Limited.initializeNext (limited : runner.Limited limit)
    (consistent : runner.Consistent table) : (runner.initializeNext table).Limited limit := by
  obtain ⟨rows, sent, notifies, manager, task⟩ := runner
  cases task with
  | failed => exact limited
  | idle => exact limited
  | runJobs handed => exact limited
  | initializeDatabases selected =>
      cases selected with
      | nil => exact limited.fewer limited.capacity fun _ takes => takes
      | cons entry rest =>
          obtain ⟨uuid, values⟩ := entry
          have here : (uuid, values) ∈ (uuid, values) :: rest := List.mem_cons_self
          have unread := consistent.unread _ here
          obtain ⟨quiet, _⟩ := @Consistent.notified _ _ consistent uuid values
            fun _ job holds named => absurd named (unread.1 job holds)
          change Limited limit (JobRunner.notify table
            ⟨rows, sent, notifies, manager, .initializeDatabases rest⟩ uuid values)
          rw [notify_quiet ⟨rows, sent, notifies, manager, .initializeDatabases rest⟩ quiet]
          refine limited.fewer (limited_step consistent.sound limited.capacity
            (.notify (table.jobData uuid values))) fun other takes => ?_
          rcases takes with hands | ⟨read, among, active⟩
          · exact hands_notify consistent (fun active => .inr ⟨values, here, active⟩) hands
          · exact .inr ⟨read, List.mem_cons_of_mem _ among, active⟩

theorem Limited.processNotification (limited : runner.Limited limit)
    (consistent : runner.Consistent table) : (runner.processNotification table).Limited limit := by
  obtain ⟨rows, sent, notifies, manager, task⟩ := runner
  cases task with
  | failed => exact limited
  | initializeDatabases selected => exact limited
  | runJobs handed => exact limited
  | idle =>
      cases last : notifies.getLast? with
      | none =>
          unfold JobRunner.processNotification
          simp only [last]
          exact limited
      | some uuid =>
          unfold JobRunner.processNotification
          simp only [last]
          cases found : rows.get? uuid with
          | none =>
              refine limited.fewer (limited_step consistent.sound limited.capacity
                (.removeJob uuid)) fun other takes => ?_
              exact takes.imp_left (removeJob_fewer manager uuid).hands
          | some values =>
              have had : values.state.Active →
                  TakesPlace ⟨rows, sent, notifies, manager, .idle⟩ uuid :=
                consistent.active uuid values found
              obtain ⟨quiet, _⟩ := @Consistent.notified _ _ consistent uuid values
                (consistent.runs_of_active rfl found)
              change Limited limit (JobRunner.notify table
                ⟨rows, sent, notifies.dropLast, manager, .idle⟩ uuid values)
              rw [notify_quiet ⟨rows, sent, notifies.dropLast, manager, .idle⟩ quiet]
              refine limited.fewer (limited_step consistent.sound limited.capacity
                (.notify (table.jobData uuid values))) fun other takes => ?_
              rcases takes with hands | read
              · exact hands_notify consistent had hands
              · exact .inr read

/-- The channels that the runner starts again with hand out nothing, and the rows that it
reads again had their places. -/
theorem Limited.restart (limited : runner.Limited limit) (consistent : runner.Consistent table) (sent : List String) :
    (runner.restart table sent).Limited limit := by
  refine limited.fewer (limited_step consistent.sound limited.capacity (.removeDb table.dbName))
    fun uuid takes => ?_
  rcases takes with ⟨job, _, runs⟩ | ⟨read, among, active⟩
  · refine absurd (Channels.holds_of_runs runs) (not_holds_removeDb consistent.sound ?_)
    exact fun held holds => (consistent.ours _ held (consistent.sound.indexed held holds)).1
  · have present : (uuid, read) ∈ runner.rows.entries := (List.mem_filter.mp among).1
    exact consistent.active uuid read (OrderedMap.get?_eq_some_iff.mpr present) active

/-- The only step that fills places, and never more than there are. -/
theorem Limited.runJobs (limited : runner.Limited limit) (consistent : runner.Consistent table)
    (positive : limit ≠ 0) (now : Time) : (runner.runJobs now).Limited limit := by
  obtain ⟨rows, sent, notifies, manager, task⟩ := runner
  cases task with
  | failed => exact limited
  | initializeDatabases selected => exact limited
  | runJobs handed => exact limited
  | idle =>
      have sound : manager.Sound := consistent.sound
      have rooted : manager.channels.Rooted := consistent.rooted
      have capacity : manager.channels.AtRoot fun channel => channel.capacity = some limit :=
        limited.capacity
      obtain ⟨places, enough, all⟩ := limited.within
      have handed : manager.handedUuids ⊆ places := fun uuid member =>
        all uuid (.inl ((mem_handedUuids rooted).mp member))
      have within : (manager.channels.rootRunning.card : Int) ≤ max limit 0 := by
        rw [← sound.card_handedUuids rooted]
        exact le_trans (Int.ofNat_le.mpr (Finset.card_le_card handed)) enough
      have soundThen := sound.getJobsToRun now
      have rootedThen := rooted_step sound rooted (.getJobsToRun now)
      refine ⟨limited_step sound capacity (.getJobsToRun now),
        (manager.getJobsToRun now).1.handedUuids, ?_, fun uuid takes => ?_⟩
      · rw [soundThen.card_handedUuids rootedThen]
        exact Channels.rootRunning_getJobsToRun positive capacity within
      · rcases takes with hands | ⟨_, among, _⟩
        · exact (mem_handedUuids rootedThen).mpr hands
        · exact absurd among List.not_mem_nil

theorem Limited.step (limited : runner.Limited limit) (consistent : runner.Consistent table)
    (positive : limit ≠ 0) (event : RunnerEvent) : (runner.step table event).Limited limit := by
  cases event with
  | write uuid values => exact limited.fewer limited.capacity fun _ takes => takes
  | receive count => exact limited.fewer limited.capacity fun _ takes => takes
  | initializeNext => exact limited.initializeNext consistent
  | processNotification => exact limited.processNotification consistent
  | runJobs now => exact limited.runJobs consistent positive now
  | restart sent => exact limited.restart consistent sent
  | setJobEnqueued =>
      obtain ⟨rows, sent, notifies, manager, task⟩ := runner
      cases task with
      | failed => exact limited
      | idle => exact limited
      | initializeDatabases selected => exact limited
      | runJobs handed =>
          cases handed with
          | nil => exact limited.fewer limited.capacity fun _ takes => takes
          | cons job rest =>
              change (JobRunner.setJobEnqueued
                ⟨rows, sent, notifies, manager, .runJobs (job :: rest)⟩).Limited limit
              unfold JobRunner.setJobEnqueued
              simp only
              cases found : rows.get? (manager.jobs job).uuid with
              | none => exact limited.fewer limited.capacity fun _ takes => takes
              | some values => exact limited.fewer limited.capacity fun _ takes => takes
  | waitNotification =>
      obtain ⟨rows, sent, notifies, manager, task⟩ := runner
      cases task with
      | failed => exact limited
      | initializeDatabases selected => exact limited
      | runJobs handed => exact limited
      | idle =>
          refine limited.fewer (limited_step consistent.sound limited.capacity .getWakeupTime)
            fun uuid takes => ?_
          exact takes.imp_left (getWakeupTime_beside consistent.sound).hands.mp

variable {int : Name → Except Name Int} {configString : Name} {configured : ChannelManager}

theorem atRoot_of_get {holds : Channel → Prop} {channels : Channels} {root : Channel}
    (rooted : channels.Rooted) (found : channels.get? [rootName] = some root)
    (here : holds root) : channels.AtRoot holds := by
  cases channels with
  | nil => exact (Option.some_ne_none _ found.symm).elim
  | cons name channel children siblings =>
      have named : name = rootName := (List.cons.inj rooted).1
      rw [Channels.get?, if_pos named, if_pos rfl] at found
      cases found
      exact here

theorem limited_connect
    (success : ChannelManager.init.simpleConfigure int configString = .ok configured)
    {root : Channel} (found : configured.channels.get? [rootName] = some root)
    (limited : root.capacity = some limit) {rows : OrderedMap String Values}
    {sent : List String} (start : ∀ active : Finset String,
      (∀ uuid ∈ active, ∃ values, rows.get? uuid = some values ∧ values.state.Active) →
        (active.card : Int) ≤ max limit 0) :
    (connect configured rows sent).Limited limit := by
  refine ⟨atRoot_of_get (rooted_simpleConfigure success) found limited,
    ((rows.entries.filter fun entry => decide entry.2.state.Active).map Prod.fst).toFinset,
    start _ fun uuid member => ?_, fun uuid takes => ?_⟩
  · obtain ⟨⟨_, values⟩, present, rfl⟩ := List.mem_map.mp (List.mem_toFinset.mp member)
    obtain ⟨among, active⟩ := List.mem_filter.mp present
    exact ⟨values, OrderedMap.get?_eq_some_iff.mpr among, of_decide_eq_true active⟩
  · rcases takes with ⟨job, _, runs⟩ | ⟨read, among, active⟩
    · exact absurd (Channels.holds_of_runs runs) ((empty_simpleConfigure success).2 job)
    · refine List.mem_toFinset.mpr (List.mem_map.mpr ⟨(uuid, read), ?_, rfl⟩)
      exact List.mem_filter.mpr ⟨(List.mem_filter.mp among).1, decide_eq_true active⟩

theorem Limited.active_rows {runner : JobRunner} (bounded : runner.Limited limit)
    (consistent : runner.Consistent table) {active : Finset String}
    (all : ∀ uuid ∈ active, ∃ values, runner.rows.get? uuid = some values ∧ values.state.Active) :
    (active.card : Int) ≤ max limit 0 := by
  obtain ⟨places, enough, taken⟩ := bounded.within
  have among : active ⊆ places := fun uuid member => by
    obtain ⟨values, present, isActive⟩ := all uuid member
    exact taken uuid (consistent.active uuid values present isActive)
  exact le_trans (Int.ofNat_le.mpr (Finset.card_le_card among)) enough

/-- As long as only the runner makes rows active, the capacity of the root channel bounds
the active rows of the database itself: however late the notifications arrive, whatever
else is written, and whenever the runner starts again. -/
theorem active_rows_within_capacity
    (success : ChannelManager.init.simpleConfigure int configString = .ok configured)
    {root : Channel} (found : configured.channels.get? [rootName] = some root)
    (limited : root.capacity = some limit) (positive : limit ≠ 0)
    (rows : OrderedMap String Values) (sent : List String)
    (start : ∀ active : Finset String,
      (∀ uuid ∈ active, ∃ values, rows.get? uuid = some values ∧ values.state.Active) →
        (active.card : Int) ≤ max limit 0)
    (events : List RunnerEvent)
    (allowed : GuardedRun.Meets (step table) OnlyRunnerEnqueues (connect configured rows sent) events) :
    let after := GuardedRun.run (step table) (connect configured rows sent) events
    ∀ active : Finset String,
      (∀ uuid ∈ active, ∃ values, after.rows.get? uuid = some values ∧ values.state.Active) →
        (active.card : Int) ≤ max limit 0 := by
  intro after active all
  have started : (connect configured rows sent).Consistent table :=
    @consistent_run table rows sent int configString configured success [] trivial
  have kept := GuardedRun.guarded_invariant
    (fun runner => runner.Consistent table ∧ runner.Limited limit)
    (fun _ event kept allowed => ⟨kept.1.step allowed, kept.2.step kept.1 positive event⟩)
    ⟨started, limited_connect success found limited start⟩ allowed
  exact kept.2.active_rows kept.1 all

theorem active_rows_within_capacity_two :
    let after := GuardedRun.run (step jobTable) (connect ChannelManager.init .empty [])
      [.initializeNext, .write "a" (some waitingRow), .write "b" (some waitingRow), .receive 2,
        .processNotification, .processNotification, .runJobs 5, .setJobEnqueued, .restart []]
    ∀ active : Finset String,
      (∀ uuid ∈ active, ∃ values, after.rows.get? uuid = some values ∧ values.state.Active) →
        (active.card : Int) ≤ max 1 0 := by
  refine @active_rows_within_capacity jobTable 1 (fun text => .error text) []
    ChannelManager.init rfl { capacity := some 1 } rfl rfl (by decide) .empty []
    (fun active present => ?_) _ ?_
  · have nothing : active = ∅ := Finset.eq_empty_of_forall_notMem fun uuid member => by
      obtain ⟨values, found, _⟩ := present uuid member
      exact Option.some_ne_none _ found.symm
    rw [nothing]
    decide
  · exact ⟨trivial, fun active => absurd active (by decide), fun active => absurd active (by decide),
      trivial, trivial, trivial, trivial, trivial, trivial, trivial⟩

end JobRunner

end WorkflowStudio.Queue
