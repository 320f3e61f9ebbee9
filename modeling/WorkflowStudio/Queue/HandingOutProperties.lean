import WorkflowStudio.Queue.ManagerProperties

/-! What every run of the channel manager keeps: a job is running in a channel just when
the parent has it, and it is handed out once until something is heard of it. -/

set_option autoImplicit false

namespace WorkflowStudio.Queue

open Lib PriorityQueue

namespace Channels

variable {jobs : Jobs} {parent : Path} {passed : JobId → Prop} {channels : Channels}

theorem Flows.sound_of_get (flows : Flows jobs parent passed channels) {path : Path}
    {channel : Channel} (found : channels.get? path = some channel) :
    channel.Sound jobs (parent ++ path) := by
  induction flows generalizing path with
  | nil => exact (Option.some_ne_none _ found.symm).elim
  | @cons parent passed name here children siblings sound running arrived distinct below
      beside belowIh besideIh =>
      cases path with
      | nil => exact (Option.some_ne_none _ found.symm).elim
      | cons first rest =>
          rw [get?] at found
          by_cases named : name = first
          · rw [if_pos named] at found
            subst named
            by_cases last : rest = []
            · rw [if_pos last] at found
              cases found
              rw [last]
              exact sound
            · rw [if_neg last] at found
              have child := belowIh found
              rw [List.append_assoc, List.singleton_append] at child
              exact child
          · rw [if_neg named] at found
            exact besideIh found

/-- The parent of a list that has a channel with this name has its jobs. -/
theorem Flows.running_of_get (flows : Flows jobs parent passed channels) {name : Name}
    {channel : Channel} (found : channels.get? [name] = some channel) {job : JobId}
    (within : parent ++ [name] <+: (jobs job).channel) : job ∈ channel.running ↔ passed job := by
  induction flows with
  | nil => exact (Option.some_ne_none _ found.symm).elim
  | @cons parent passed other here children siblings sound running arrived distinct below
      beside belowIh besideIh =>
      rw [get?] at found
      by_cases named : other = name
      · rw [if_pos named, if_pos rfl] at found
        cases found
        exact running job (named ▸ within)
      · rw [if_neg named] at found
        exact besideIh found within

theorem Flows.passes (flows : Flows jobs parent passed channels) {path : Path} {name : Name}
    {above below : Channel} (foundAbove : channels.get? path = some above)
    (foundBelow : channels.get? (path ++ [name]) = some below) {job : JobId}
    (within : parent ++ path ++ [name] <+: (jobs job).channel) :
    job ∈ below.running ↔ above.Has job := by
  induction flows generalizing path with
  | nil => exact (Option.some_ne_none _ foundAbove.symm).elim
  | @cons parent passed other here children siblings sound running arrived distinct flowsBelow
      beside belowIh besideIh =>
      cases path with
      | nil => exact (Option.some_ne_none _ foundAbove.symm).elim
      | cons first rest =>
          rw [List.cons_append, get?] at foundBelow
          rw [get?] at foundAbove
          have longer : rest ++ [name] ≠ [] := List.append_ne_nil_of_right_ne_nil rest
            (List.cons_ne_nil name [])
          by_cases named : other = first
          · rw [if_pos named] at foundAbove foundBelow
            rw [if_neg longer] at foundBelow
            subst named
            by_cases last : rest = []
            · rw [if_pos last] at foundAbove
              cases foundAbove
              subst last
              exact flowsBelow.running_of_get foundBelow within
            · rw [if_neg last] at foundAbove
              refine belowIh foundAbove foundBelow ?_
              rw [List.append_assoc parent, List.singleton_append]
              exact within
          · rw [if_neg named] at foundAbove foundBelow
            exact besideIh foundAbove foundBelow within

end Channels

namespace ChannelManager

variable {int : Name → Except Name Int} {configString : Name} {configured : ChannelManager}

/-- A job of the root channel, as a notification about it reads it. -/
def rootJob (uuid : String) (state : JobState) : JobData where
  dbName := "db"
  channelName := none
  uuid
  seq := 1
  dateCreated := 0
  priority := 10
  eta := none
  state := some state
  moment := no_eta

theorem some_ne_zero {eta : Time} (later : eta ≠ 0) : some eta ≠ some 0 :=
  fun zero => later (Option.some.inj zero)

/-- The job of `rootJob`, to be run at a time. -/
def laterJob (uuid : String) (eta : Time) (later : eta ≠ 0) : JobData :=
  { rootJob uuid .pending with eta := some eta, moment := some_ne_zero later }

def subJob (uuid : String) (state : JobState) : JobData :=
  { rootJob uuid state with channelName := some ['s', 'u', 'b'] }

def oneOrTwo : Name → Except Name Int
  | ['1'] => .ok 1
  | ['2'] => .ok 2
  | text => .error text

/-- What `root:2,sub:1` configures. -/
def twoChannels : ChannelManager :=
  { init with
    channels := .cons rootName { capacity := some 2 }
      (.cons ['s', 'u', 'b'] { capacity := some 1 } .nil .nil) .nil }

/-- Whatever happens, a job below a channel is running there just when the parent of the
channel has it in its queue or running, and a channel has a job in one place only. -/
theorem jobs_flow (success : init.simpleConfigure int configString = .ok configured)
    (events : List Event) :
    let after := GuardedRun.run step configured events
    (∀ path name parent channel, after.channels.get? path = some parent →
      after.channels.get? (path ++ [name]) = some channel →
      ∀ job, path ++ [name] <+: (after.jobs job).channel →
        (job ∈ channel.running ↔ job ∈ parent.queue.objects ∨ job ∈ parent.running)) ∧
      ∀ path channel, after.channels.get? path = some channel → ∀ job,
        (job ∈ channel.running → job ∉ channel.queue.objects) ∧
          (job ∈ channel.failed → (after.jobs job).channel = path ∧
            job ∉ channel.queue.objects ∧ job ∉ channel.running) := by
  intro after
  have sound : after.Sound := (sound_simpleConfigure success).run events
  refine ⟨fun path name parent channel above below job within => ?_,
    fun path channel found job => ?_⟩
  · exact sound.flows.passes above below within
  · have here : channel.Sound after.jobs path := sound.flows.sound_of_get found
    refine ⟨here.runningApart job, fun failed => ⟨here.failedOwn job failed, ?_⟩⟩
    exact not_or.mp (here.failedApart job failed)

theorem jobs_flow_started :
    let after := GuardedRun.run step twoChannels
      [.notify (subJob "a" .pending), .notify (subJob "b" .pending), .getJobsToRun 5,
        .notify (subJob "c" .failed), .notify (subJob "a" .started)]
    (∀ path name parent channel, after.channels.get? path = some parent →
      after.channels.get? (path ++ [name]) = some channel →
      ∀ job, path ++ [name] <+: (after.jobs job).channel →
        (job ∈ channel.running ↔ job ∈ parent.queue.objects ∨ job ∈ parent.running)) ∧
      ∀ path channel, after.channels.get? path = some channel → ∀ job,
        (job ∈ channel.running → job ∉ channel.queue.objects) ∧
          (job ∈ channel.failed → (after.jobs job).channel = path ∧
            job ∉ channel.queue.objects ∧ job ∉ channel.running) :=
  @jobs_flow oneOrTwo "root:2,sub:1".toList twoChannels rfl _

/-- Whatever happens, a heap of a channel has only jobs with an eta or only jobs without
one, removed jobs included, so that no two of its jobs fail to compare. -/
theorem jobs_compare (success : init.simpleConfigure int configString = .ok configured)
    (events : List Event) :
    let after := GuardedRun.run step configured events
    ∀ path channel, after.channels.get? path = some channel →
      (∀ job ∈ channel.queue.etaQueue.heap,
        (after.jobs job).eta ≠ none ∧ (after.jobs job).channel = path) ∧
      ∀ job ∈ channel.queue.queue.heap, (after.jobs job).eta = none := by
  intro after path channel found
  have sound : after.Sound := (sound_simpleConfigure success).run events
  have here : channel.Sound after.jobs path := sound.flows.sound_of_get found
  refine ⟨fun job pushed => ?_, fun job pushed => ?_⟩
  · have known := (channel.queue.etaQueue.knows job).mpr pushed
    exact ⟨here.keyed.etaSet job known, here.etaOwn job known⟩
  · exact here.keyed.etaUnset job ((channel.queue.queue.knows job).mpr pushed)

theorem jobs_compare_pending :
    let after := GuardedRun.run step init
      [.notify (rootJob "a" .pending), .notify (laterJob "b" 9 (by decide)), .removeJob "a"]
    let channel := (after.channels.get? [rootName]).getD {}
    (∀ job ∈ channel.queue.etaQueue.heap,
        (after.jobs job).eta ≠ none ∧ (after.jobs job).channel = [rootName]) ∧
      ∀ job ∈ channel.queue.queue.heap, (after.jobs job).eta = none :=
  @jobs_compare (fun text => .error text) [] init rfl _ [rootName] _ rfl

/-!
## Handing a job out once
-/

/-- Something is heard of the job, or its database is closed. -/
def Concerns (uuid dbName : String) : Event → Prop
  | .notify data => data.uuid = uuid
  | .removeJob other => other = uuid
  | .removeDb other => other = dbName
  | .getJobsToRun _ => False
  | .getWakeupTime => False

/-- The job is running in the root channel, and it is the job with the uuid. -/
structure Runs (job : JobId) (uuid dbName : String) (manager : ChannelManager) : Prop where
  sound : manager.Sound
  runs : manager.channels.Runs job
  uuid : (manager.jobs job).uuid = uuid
  dbName : (manager.jobs job).dbName = dbName

variable {job : JobId} {uuid dbName : String} {manager : ChannelManager}

theorem Runs.indexed (running : Runs job uuid dbName manager) :
    manager.jobsByUuid.get? uuid = some job := by
  have known := running.sound.indexed job (Channels.holds_of_runs running.runs)
  rwa [running.uuid] at known

theorem Runs.bounded (running : Runs job uuid dbName manager) : job < manager.nextId :=
  running.sound.bounded job
    (Channels.references_of_holds (Channels.holds_of_runs running.runs))

/-- A method that climbs for another job does not concern it. -/
theorem Runs.climbed {passed : JobId → Prop} {runs : Prop} {other : JobId}
    {outcome : Channels × Bool} (running : Runs job uuid dbName manager) (different : job ≠ other)
    (sound : Sound { manager with channels := outcome.1 })
    (climbed : Channels.Climbed manager.jobs [] passed other runs manager.channels outcome) :
    Runs job uuid dbName { manager with channels := outcome.1 } :=
  ⟨sound, (climbed.running job different).mpr running.runs, running.uuid, running.dbName⟩

theorem Runs.transition {other : JobId} (running : Runs job uuid dbName manager)
    (different : job ≠ other)
    (known : manager.jobsByUuid.get? (manager.jobs other).uuid = some other)
    (state : Option JobState) : Runs job uuid dbName (manager.transition other state) := by
  have target : (manager.jobs other).channel = [] ++ (manager.jobs other).channel :=
    (List.nil_append _).symm
  have flows := running.sound.flows
  have sound := running.sound.transition known
  have removed := running.climbed different (sound none) (Channels.remove_climbed flows target)
  have started := running.climbed different (sound (some .started))
    (Channels.setRunning_climbed flows target)
  cases state with
  | none => exact removed
  | some state =>
      cases state with
      | waitDependencies => exact running
      | pending =>
          exact running.climbed different (sound (some .pending))
            (Channels.setPending_climbed flows target)
      | enqueued => exact started
      | started => exact started
      | done => exact removed
      | cancelled => exact removed
      | failed =>
          exact running.climbed different (sound (some .failed))
            (Channels.setFailed_climbed flows target)

theorem Runs.forget {other : JobId} (running : Runs job uuid dbName manager)
    (different : job ≠ other) (sound : (manager.forget other).Sound) :
    Runs job uuid dbName (manager.forget other) := by
  have target : (manager.jobs other).channel = [] ++ (manager.jobs other).channel :=
    (List.nil_append _).symm
  have climbed := Channels.remove_climbed running.sound.flows target
  exact ⟨sound, (climbed.running job different).mpr running.runs, running.uuid, running.dbName⟩

theorem Runs.removeJob {other : String} (running : Runs job uuid dbName manager)
    (different : other ≠ uuid) : Runs job uuid dbName (manager.removeJob other) := by
  have sound := running.sound.removeJob other
  unfold ChannelManager.removeJob at sound ⊢
  cases found : manager.findJob other with
  | none => exact running
  | some removed =>
      rw [found] at sound
      refine running.forget (fun same => different ?_) sound
      subst same
      rw [← running.uuid]
      exact (running.sound.named other job (findJob_eq_some_iff.mp found).1).1.symm

theorem Runs.removeDb {other : String} (running : Runs job uuid dbName manager)
    (different : other ≠ dbName) : Runs job uuid dbName (manager.removeDb other) := by
  have keeps : ∀ after, Runs job uuid dbName after ∧ after.jobs = manager.jobs →
      ∀ removed ∈ manager.jobsOfDb other, removed < after.nextId → after.Alone removed →
        Runs job uuid dbName (after.forget removed) ∧
          (after.forget removed).jobs = manager.jobs := by
    rintro after ⟨runs, same⟩ removed member bound alone
    refine ⟨runs.forget (fun this => different ?_) (runs.sound.forget bound alone), same⟩
    rw [← (running.sound.removed member).1, ← this, ← same, runs.dbName]
  exact (forgetAll_invariant keeps ⟨running, rfl⟩
    (fun removed member => (running.sound.removed member).2.1)
    fun removed member => (running.sound.removed member).2.2).1

/-- A new job under another uuid. -/
theorem Runs.createAndMove {data : JobData} (running : Runs job uuid dbName manager)
    (channel : Path)
    (unused : ∀ other, manager.channels.Holds other → (manager.jobs other).uuid ≠ data.uuid) :
    Runs job uuid dbName
      ((manager.createJob data channel).transition manager.nextId data.state) := by
  have different : job ≠ manager.nextId := Nat.ne_of_lt running.bounded
  have old : (manager.createJob data channel).jobs job = manager.jobs job := if_neg different
  have created : Runs job uuid dbName (manager.createJob data channel) :=
    ⟨running.sound.createJob channel unused, running.runs, old ▸ running.uuid,
      old ▸ running.dbName⟩
  refine created.transition different ?_ data.state
  simp only [ChannelManager.createJob, if_true, OrderedMap.get?_set_self]

theorem Runs.notify {data : JobData} (running : Runs job uuid dbName manager)
    (different : data.uuid ≠ uuid) : Runs job uuid dbName (manager.notify data).1 := by
  unfold ChannelManager.notify
  cases found : manager.channels.getChannelByName data.channelName false true with
  | none => exact running
  | some outcome =>
      have looked : Runs job uuid dbName { manager with channels := outcome.2 } := by
        obtain ⟨path, created⟩ := getChannelByName_channels found
        refine ⟨running.sound.lookup found, ?_, running.uuid, running.dbName⟩
        rw [created]
        exact (manager.channels.ensure_same path job).2.1.mpr running.runs
      simp only
      cases present : ChannelManager.findJob { manager with channels := outcome.2 } data.uuid with
      | none => exact looked.createAndMove outcome.1 (looked.sound.unused present)
      | some other =>
          simp only
          split
          · exact looked
          · split
            · exact (looked.removeJob different).createAndMove outcome.1
                (looked.sound.unused_removeJob data.uuid)
            · have known := (findJob_eq_some_iff.mp present).1
              have named := (looked.sound.named _ _ known).1
              refine looked.transition (fun same => different ?_) ?_ data.state
              · rw [← named, ← same, looked.uuid]
              · rw [named]
                exact known

theorem Runs.getJobsToRun (running : Runs job uuid dbName manager) (now : Time) :
    Runs job uuid dbName (manager.getJobsToRun now).1 := by
  have delivered := @Channels.getJobsToRun_delivered _ _ _ _ now running.sound.flows
  obtain ⟨moved, store, _⟩ := delivered.store
  have under := running.sound.flows.under_of_holds (Channels.holds_of_runs running.runs)
  have underAfter : Channels.Under (manager.channels.getJobsToRun now manager.jobs).1 []
      (manager.channels.getJobsToRun now manager.jobs).2.1 job := by
    rw [store, Channels.under_cleared, Channels.under_congr delivered.names]
    exact under
  refine ⟨running.sound.getJobsToRun now, ?_, ?_, ?_⟩
  · exact (delivered.flows.passed_iff_runs underAfter).mp (.inl running.runs)
  · change ((manager.channels.getJobsToRun now manager.jobs).1 job).uuid = uuid
    rw [store, Jobs.uuid_cleared]
    exact running.uuid
  · change ((manager.channels.getJobsToRun now manager.jobs).1 job).dbName = dbName
    rw [store, Jobs.dbName_cleared]
    exact running.dbName

/-- A job stays running in the root channel through every event that is not about it. -/
theorem Runs.step (running : Runs job uuid dbName manager) {event : Event}
    (other : ¬ Concerns uuid dbName event) : Runs job uuid dbName (manager.step event) := by
  cases event with
  | notify data => exact running.notify other
  | removeJob removed => exact running.removeJob other
  | removeDb removed => exact running.removeDb other
  | getJobsToRun now => exact running.getJobsToRun now
  | getWakeupTime =>
      have cleaned := Channels.getWakeupTime_cleaned running.sound.flows 0
      exact ⟨running.sound.getWakeupTime, (cleaned.runs job).mpr running.runs, running.uuid,
        running.dbName⟩

theorem Runs.run (running : Runs job uuid dbName manager) {events : List Event}
    (others : ∀ event ∈ events, ¬ Concerns uuid dbName event) :
    Runs job uuid dbName (GuardedRun.run ChannelManager.step manager events) := by
  induction events generalizing manager with
  | nil => exact running
  | cons event rest ih =>
      refine ih (running.step (others event List.mem_cons_self)) fun later member => ?_
      exact others later (List.mem_cons_of_mem event member)

/-- A job that is handed out is running in the root channel then, and was not before. -/
theorem handed_out (sound : manager.Sound) {now : Time}
    (handed : job ∈ (manager.getJobsToRun now).2) :
    ¬ manager.channels.Runs job ∧ manager.channels.Holds job ∧
      Runs job (manager.jobs job).uuid (manager.jobs job).dbName (manager.getJobsToRun now).1 := by
  have delivered := @Channels.getJobsToRun_delivered _ _ _ _ now sound.flows
  obtain ⟨moved, store, _⟩ := delivered.store
  have underAfter : Channels.Under (manager.channels.getJobsToRun now manager.jobs).1 []
      (manager.channels.getJobsToRun now manager.jobs).2.1 job := by
    rw [store, Channels.under_cleared, Channels.under_congr delivered.names]
    exact delivered.under job handed
  refine ⟨delivered.new job handed, (Channels.getJobsToRun_parts sound.flows job).2.2 handed,
    sound.getJobsToRun now, ?_, ?_, ?_⟩
  · exact (delivered.flows.passed_iff_runs underAfter).mp (.inr handed)
  · change ((manager.channels.getJobsToRun now manager.jobs).1 job).uuid = _
    rw [store, Jobs.uuid_cleared]
  · change ((manager.channels.getJobsToRun now manager.jobs).1 job).dbName = _
    rw [store, Jobs.dbName_cleared]

/-- Between two hand-outs of jobs with one uuid something is heard of the job, however
the events before, between and after them are ordered. -/
theorem handed_out_once (success : init.simpleConfigure int configString = .ok configured)
    (before between : List Event) (first second : Time) (job again : JobId) :
    let start := GuardedRun.run step configured before
    let later := GuardedRun.run step (start.getJobsToRun first).1 between
    job ∈ (start.getJobsToRun first).2 → again ∈ (later.getJobsToRun second).2 →
      (later.jobs again).uuid = (start.jobs job).uuid →
      ∃ event ∈ between, Concerns (start.jobs job).uuid (start.jobs job).dbName event := by
  intro start later handed handedAgain sameUuid
  have sound : start.Sound := (sound_simpleConfigure success).run before
  obtain ⟨_, _, running⟩ := handed_out sound handed
  by_contra unheard
  have kept : Runs job (start.jobs job).uuid (start.jobs job).dbName later :=
    running.run fun event member concerns => unheard ⟨event, member, concerns⟩
  obtain ⟨idle, holds, _⟩ := handed_out kept.sound handedAgain
  have found := kept.sound.indexed again holds
  rw [sameUuid, kept.indexed] at found
  exact idle ((Option.some_inj.mp found) ▸ kept.runs)

theorem handed_out_once_done :
    ∃ event ∈ [Event.notify (rootJob "a" .done), .notify (rootJob "a" .pending)],
      Concerns "a" "db" event :=
  @handed_out_once (fun text => .error text) [] init rfl [.notify (rootJob "a" .pending)]
    [.notify (rootJob "a" .done), .notify (rootJob "a" .pending)] 5 6 0 1 (by decide)
    (by decide) rfl

/-- No uuid is handed out twice in one go. -/
theorem handed_out_distinct (success : init.simpleConfigure int configString = .ok configured)
    (before : List Event) (now : Time) :
    let start := GuardedRun.run step configured before
    ((start.getJobsToRun now).2.map fun job => (start.jobs job).uuid).Nodup := by
  intro start
  have sound : start.Sound := (sound_simpleConfigure success).run before
  have delivered := @Channels.getJobsToRun_delivered _ _ _ _ now sound.flows
  refine List.Nodup.map_on (fun job handed other also same => ?_) delivered.nodup
  have found := sound.indexed job (handed_out sound handed).2.1
  rw [same, sound.indexed other (handed_out sound also).2.1] at found
  exact (Option.some_inj.mp found).symm

theorem handed_out_distinct_two :
    let start := GuardedRun.run step twoChannels
      [.notify (rootJob "a" .pending), .notify (rootJob "b" .pending)]
    ((start.getJobsToRun 5).2.map fun job => (start.jobs job).uuid).Nodup :=
  @handed_out_distinct oneOrTwo "root:2,sub:1".toList twoChannels rfl _ 5

/-!
## Handing no job out before its eta
-/

/-- Only etas that are past were cleared. -/
def Ripens (now : Time) (before after : Jobs) : Prop :=
  ∀ job, (after job).eta = (before job).eta ∨
    ((after job).eta = none ∧ (before job).eta.getD 0 ≤ now)

theorem Ripens.refl (now : Time) (jobs : Jobs) : Ripens now jobs jobs :=
  fun _ => .inl rfl

theorem Ripens.trans {now : Time} {first second third : Jobs} (left : Ripens now first second)
    (right : Ripens now second third) : Ripens now first third := by
  intro job
  rcases left job with same | ⟨cleared, past⟩
  · rw [← same]
    exact right job
  · refine .inr ⟨?_, past⟩
    rcases right job with same | ⟨again, _⟩
    · exact same.trans cleared
    · exact again

theorem ripens_dispatch (now : Time) (jobs : Jobs) (channel : Channel) :
    Ripens now jobs (channel.dispatch now jobs).1 := by
  obtain ⟨moved, advances⟩ := channel.dispatch_advances now jobs
  intro job
  rw [advances.store, Jobs.eta_cleared]
  split
  · rename_i ripe
    exact .inr ⟨rfl, (ChannelQueue.mem_ripe.mp (advances.moved_ripe ripe)).2⟩
  · exact .inl rfl

theorem ripens_getJobsToRun (now : Time) (channels : Channels) (jobs : Jobs) :
    Ripens now jobs (channels.getJobsToRun now jobs).1 := by
  induction channels generalizing jobs with
  | nil => exact Ripens.refl now jobs
  | cons name channel children siblings belowIh besideIh =>
      exact ((belowIh jobs).trans (ripens_dispatch now _ _)).trans (besideIh _)

/-- The job with the uuid, if there is one, has the eta, or that is past. -/
def Timed (uuid : String) (eta : Option Time) (now : Time) (manager : ChannelManager) : Prop :=
  ∀ job, manager.jobsByUuid.get? uuid = some job →
    (manager.jobs job).eta = eta ∨ ((manager.jobs job).eta = none ∧ eta.getD 0 ≤ now)

/-- The manager has the same job under the uuid, with the same eta, or none any more. -/
def Same (uuid : String) (before after : ChannelManager) : Prop :=
  ∀ job, after.jobsByUuid.get? uuid = some job →
    before.jobsByUuid.get? uuid = some job ∧ (after.jobs job).eta = (before.jobs job).eta

theorem Same.refl (uuid : String) (manager : ChannelManager) : Same uuid manager manager :=
  fun _ found => ⟨found, rfl⟩

theorem Same.trans {first second third : ChannelManager} (left : Same uuid first second)
    (right : Same uuid second third) : Same uuid first third := by
  intro job found
  obtain ⟨before, eta⟩ := right job found
  obtain ⟨start, first⟩ := left job before
  exact ⟨start, eta.trans first⟩

theorem Timed.same {eta : Option Time} {now : Time} {after : ChannelManager}
    (timed : Timed uuid eta now manager) (same : Same uuid manager after) :
    Timed uuid eta now after := by
  intro job found
  obtain ⟨before, unchanged⟩ := same job found
  rw [unchanged]
  exact timed job before

theorem same_transition (manager : ChannelManager) (job : JobId) (state : Option JobState) :
    Same uuid manager (manager.transition job state) := by
  cases state with
  | none => exact Same.refl uuid manager
  | some state => cases state <;> exact Same.refl uuid manager

theorem same_forget (manager : ChannelManager) (job : JobId) :
    Same uuid manager (manager.forget job) := by
  intro other found
  change (manager.jobsByUuid.erase (manager.jobs job).uuid).get? uuid = some other at found
  rw [OrderedMap.get?_erase] at found
  split at found
  · exact (Option.some_ne_none _ found.symm).elim
  · exact ⟨found, rfl⟩

theorem same_removeJob (manager : ChannelManager) (other : String) :
    Same uuid manager (manager.removeJob other) := by
  unfold ChannelManager.removeJob
  cases manager.findJob other with
  | none => exact Same.refl uuid manager
  | some job => exact manager.same_forget job

theorem same_removeDb (manager : ChannelManager) (dbName : String) :
    Same uuid manager (manager.removeDb dbName) := by
  unfold ChannelManager.removeDb
  generalize (List.filter _ _ : List JobId) = forgotten
  induction forgotten generalizing manager with
  | nil => exact Same.refl uuid manager
  | cons job rest ih => exact (manager.same_forget job).trans (ih (manager.forget job))

/-- A job that is created has another identity than all that the dictionary has. -/
theorem same_createJob (sound : manager.Sound) {data : JobData} (different : data.uuid ≠ uuid)
    (channel : Path) : Same uuid manager (manager.createJob data channel) := by
  intro job found
  change (manager.jobsByUuid.set data.uuid manager.nextId).get? uuid = some job at found
  rw [OrderedMap.get?_set, if_neg different.symm] at found
  refine ⟨found, ?_⟩
  have old : job ≠ manager.nextId := Nat.ne_of_lt (sound.named uuid job found).2
  exact congrArg ChannelJob.eta (if_neg old)

theorem same_notify (sound : manager.Sound) {data : JobData} (different : data.uuid ≠ uuid) :
    Same uuid manager (manager.notify data).1 := by
  unfold ChannelManager.notify
  cases found : manager.channels.getChannelByName data.channelName false true with
  | none => exact Same.refl uuid manager
  | some outcome =>
      have looked := sound.lookup found
      have created : ∀ manager : ChannelManager, manager.Sound →
          Same uuid manager ((manager.createJob data outcome.1).transition manager.nextId
            data.state) := fun manager sound =>
        (same_createJob sound different outcome.1).trans (same_transition _ _ _)
      simp only
      cases ChannelManager.findJob { manager with channels := outcome.2 } data.uuid with
      | none => exact created _ looked
      | some job =>
          simp only
          split
          · exact Same.refl uuid manager
          · split
            · exact (same_removeJob { manager with channels := outcome.2 } data.uuid).trans
                (created _ (looked.removeJob data.uuid))
            · exact same_transition { manager with channels := outcome.2 } job data.state

/-- A notification that is accepted leaves a job with its eta, or no job. -/
theorem timed_notify {data : JobData} (accepted : (manager.notify data).2 = false) (now : Time) :
    Timed data.uuid data.eta now (manager.notify data).1 := by
  have created : ∀ manager : ChannelManager, ∀ channel,
      Timed data.uuid data.eta now
        ((manager.createJob data channel).transition manager.nextId data.state) := by
    intro manager channel
    refine Timed.same (fun job found => .inl ?_) (same_transition _ _ _)
    change (manager.jobsByUuid.set data.uuid manager.nextId).get? data.uuid = some job at found
    rw [OrderedMap.get?_set, if_pos rfl] at found
    cases found
    exact congrArg ChannelJob.eta (if_pos rfl)
  unfold ChannelManager.notify at accepted ⊢
  cases found : manager.channels.getChannelByName data.channelName false true with
  | none =>
      rw [found] at accepted
      exact absurd accepted.symm Bool.false_ne_true
  | some outcome =>
      rw [found] at accepted
      simp only at accepted ⊢
      cases known : ChannelManager.findJob { manager with channels := outcome.2 } data.uuid with
      | none => exact created _ outcome.1
      | some job =>
          rw [known] at accepted
          simp only at accepted ⊢
          split at accepted
          · exact absurd accepted.symm Bool.false_ne_true
          · rename_i invariants
            rw [if_neg invariants]
            split
            · exact created _ outcome.1
            · rename_i unchanged
              refine Timed.same (fun other present => .inl ?_) (same_transition _ job data.state)
              have first := (findJob_eq_some_iff.mp known).1
              change manager.jobsByUuid.get? data.uuid = some other at present
              rw [first] at present
              cases present
              by_contra eta
              refine unchanged ?_
              unfold rescheduled
              rw [decide_eq_true (Ne.symm eta), Bool.or_true, Bool.true_or]

/-- Nothing is heard of the job, and the clock is not ahead of the time. -/
def Undisturbed (uuid : String) (now : Time) : Event → Prop
  | .notify data => data.uuid ≠ uuid
  | .getJobsToRun time => time ≤ now
  | _ => True

theorem Timed.step {eta : Option Time} {now : Time} (timed : Timed uuid eta now manager)
    (sound : manager.Sound) {event : Event} (undisturbed : Undisturbed uuid now event) :
    Timed uuid eta now (manager.step event) := by
  cases event with
  | notify data => exact timed.same (same_notify sound undisturbed)
  | removeJob removed => exact timed.same (manager.same_removeJob removed)
  | removeDb dbName => exact timed.same (manager.same_removeDb dbName)
  | getWakeupTime => exact timed.same (Same.refl uuid manager)
  | getJobsToRun time =>
      intro job found
      have before := timed job found
      rcases ripens_getJobsToRun time manager.channels manager.jobs job with same | ⟨cleared, past⟩
      · exact before.imp same.trans (And.imp_left same.trans)
      · refine .inr ⟨cleared, ?_⟩
        rcases before with same | ⟨_, already⟩
        · rw [← same]
          exact past.trans undisturbed
        · exact already

theorem Timed.run {eta : Option Time} {now : Time} (timed : Timed uuid eta now manager)
    (sound : manager.Sound) {events : List Event}
    (undisturbed : ∀ event ∈ events, Undisturbed uuid now event) :
    Timed uuid eta now (GuardedRun.run ChannelManager.step manager events) := by
  induction events generalizing manager with
  | nil => exact timed
  | cons event rest ih =>
      exact ih (timed.step sound (undisturbed event List.mem_cons_self)) (sound.step event)
        fun later member => undisturbed later (List.mem_cons_of_mem event member)

/-- No job is handed out before the eta that the last notification about it gave it,
however the other events are ordered, as long as the clock was not ahead before. -/
theorem handed_out_after_eta (success : init.simpleConfigure int configString = .ok configured)
    (before between : List Event) (data : JobData) (now eta : Time) (job : JobId) :
    let heard := GuardedRun.run step configured before
    let start := GuardedRun.run step (heard.notify data).1 between
    (heard.notify data).2 = false → (∀ event ∈ between, Undisturbed data.uuid now event) →
      job ∈ (start.getJobsToRun now).2 → (start.jobs job).uuid = data.uuid →
        data.eta = some eta → eta ≤ now := by
  intro heard start accepted undisturbed handed named timed
  have sound : heard.Sound := (sound_simpleConfigure success).run before
  have soundStart : start.Sound := (sound.step (.notify data)).run between
  have kept : Timed data.uuid data.eta now start :=
    (timed_notify accepted now).run (sound.step (.notify data)) undisturbed
  have found := soundStart.indexed job (handed_out soundStart handed).2.1
  rw [named] at found
  have unset := (@Channels.getJobsToRun_delivered _ _ _ _ now soundStart.flows).unset job handed
  rcases kept job found with same | ⟨_, past⟩
  · rcases ripens_getJobsToRun now start.channels start.jobs job with unchanged | ⟨_, past⟩
    · rw [unset, same, timed] at unchanged
      exact (Option.some_ne_none _ unchanged.symm).elim
    · rw [same, timed] at past
      exact past
  · rw [timed] at past
    exact past

theorem handed_out_after_eta_later : (4 : Time) ≤ 5 := by
  refine @handed_out_after_eta (fun text => .error text) [] init rfl
    [.notify (rootJob "a" .pending)]
    [.getJobsToRun 3, .notify (rootJob "b" .done), .getWakeupTime]
    (laterJob "a" 4 (by decide)) 5 4 1 rfl ?_ (by decide) rfl rfl
  refine List.forall_mem_cons.mpr ⟨?_, List.forall_mem_cons.mpr ⟨?_, List.forall_mem_cons.mpr
    ⟨trivial, fun _ none => absurd none List.not_mem_nil⟩⟩⟩
  · exact (by decide : (3 : Time) ≤ 5)
  · exact (by decide : "b" ≠ "a")

end ChannelManager

end WorkflowStudio.Queue
