import WorkflowStudio.Lib.GuardedRun
import WorkflowStudio.Queue.ChannelTreeProperties

/-! The whole runs of the channel manager: whatever is notified, removed and handed out,
in any order, the jobs flow through the channels as they should, and no job is handed
out again before something is heard of it. -/

set_option autoImplicit false

namespace WorkflowStudio.Queue

open Lib PriorityQueue

/-- What happens to the manager while the runner runs. -/
inductive Event where
  | notify (data : JobData)
  | removeJob (uuid : String)
  | removeDb (dbName : String)
  | getJobsToRun (now : Time)
  | getWakeupTime

namespace ChannelManager

def step (manager : ChannelManager) : Event → ChannelManager
  | .notify data => (manager.notify data).1
  | .removeJob uuid => manager.removeJob uuid
  | .removeDb dbName => manager.removeDb dbName
  | .getJobsToRun now => (manager.getJobsToRun now).1
  | .getWakeupTime => manager.getWakeupTime.2

/-- What holds between any two events. A job that is somewhere in the channels is the
one that the dictionary has under its uuid. -/
structure Sound (manager : ChannelManager) : Prop where
  flows : Channels.Flows manager.jobs [] manager.channels.Runs manager.channels
  bounded : ∀ job, manager.channels.references job = true → job < manager.nextId
  indexed : ∀ job, manager.channels.Holds job →
    manager.jobsByUuid.get? (manager.jobs job).uuid = some job
  named : ∀ uuid job, manager.jobsByUuid.get? uuid = some job →
    (manager.jobs job).uuid = uuid ∧ job < manager.nextId

variable {manager : ChannelManager} {job : JobId}

theorem findJob_eq_some_iff {uuid : String} :
    manager.findJob uuid = some job ↔
      manager.jobsByUuid.get? uuid = some job ∧ manager.channels.references job = true := by
  rw [findJob, Option.filter_eq_some_iff]

/-- The tree is changed by a method that climbed from the channel of the job. -/
theorem Sound.climbed {passed : JobId → Prop} {runs : Prop} {outcome : Channels × Bool}
    (sound : manager.Sound)
    (climbed : Channels.Climbed manager.jobs [] passed job runs manager.channels outcome)
    (known : manager.jobsByUuid.get? (manager.jobs job).uuid = some job) :
    Sound { manager with channels := outcome.1 } := by
  obtain ⟨_, flows⟩ := climbed.flows
  refine ⟨flows.runs, fun other referenced => ?_, fun other holds => ?_, sound.named⟩
  · rcases climbed.references other referenced with before | rfl
    · exact sound.bounded other before
    · exact (sound.named _ _ known).2
  · by_cases same : other = job
    · exact same ▸ known
    · exact sound.indexed other ((climbed.holds other same).mp holds)

theorem Sound.transition (sound : manager.Sound)
    (known : manager.jobsByUuid.get? (manager.jobs job).uuid = some job)
    (state : Option JobState) : (manager.transition job state).Sound := by
  have target : (manager.jobs job).channel = [] ++ (manager.jobs job).channel :=
    (List.nil_append _).symm
  have removed := sound.climbed (Channels.remove_climbed sound.flows target) known
  have running := sound.climbed (Channels.setRunning_climbed sound.flows target) known
  cases state with
  | none => exact removed
  | some state =>
      cases state with
      | waitDependencies => exact sound
      | pending => exact sound.climbed (Channels.setPending_climbed sound.flows target) known
      | enqueued => exact running
      | started => exact running
      | done => exact removed
      | cancelled => exact removed
      | failed => exact sound.climbed (Channels.setFailed_climbed sound.flows target) known

/-- The dictionary has no other job under the uuid of this one. -/
def Alone (manager : ChannelManager) (job : JobId) : Prop :=
  ∀ other, manager.jobsByUuid.get? (manager.jobs job).uuid = some other → other = job

/-- A job that is forgotten is in no channel any more. -/
theorem Sound.forget (sound : manager.Sound) (bound : job < manager.nextId)
    (alone : manager.Alone job) : (manager.forget job).Sound := by
  have target : (manager.jobs job).channel = [] ++ (manager.jobs job).channel :=
    (List.nil_append _).symm
  have climbed := Channels.remove_climbed sound.flows target
  have gone := Channels.not_holds_remove sound.flows target
  obtain ⟨_, flows⟩ := climbed.flows
  refine ⟨flows.runs, fun other referenced => ?_, fun other holds => ?_,
    fun uuid other found => ?_⟩
  · rcases climbed.references other referenced with before | rfl
    · exact sound.bounded other before
    · exact bound
  · have different : other ≠ job := fun same => gone (same ▸ holds)
    have before := sound.indexed other ((climbed.holds other different).mp holds)
    change (manager.jobsByUuid.erase (manager.jobs job).uuid).get? (manager.jobs other).uuid = _
    rw [OrderedMap.get?_erase, if_neg, before]
    exact fun same => different (alone other (same ▸ before))
  · change (manager.jobsByUuid.erase (manager.jobs job).uuid).get? uuid = some other at found
    rw [OrderedMap.get?_erase] at found
    split at found
    · exact (Option.some_ne_none _ found.symm).elim
    · exact sound.named uuid other found

theorem Sound.removeJob (sound : manager.Sound) (uuid : String) :
    (manager.removeJob uuid).Sound := by
  unfold ChannelManager.removeJob
  cases found : manager.findJob uuid with
  | none => exact sound
  | some job =>
      have known := (findJob_eq_some_iff.mp found).1
      have named := sound.named uuid job known
      refine sound.forget named.2 fun other again => ?_
      rw [named.1, known] at again
      exact (Option.some_inj.mp again).symm

theorem Alone.forget (alone : manager.Alone job) (other : JobId) :
    (manager.forget other).Alone job := by
  intro found known
  change (manager.jobsByUuid.erase (manager.jobs other).uuid).get? (manager.jobs job).uuid =
    some found at known
  rw [OrderedMap.get?_erase] at known
  split at known
  · exact (Option.some_ne_none _ known.symm).elim
  · exact alone found known

/-- What holds while the jobs of a list are forgotten one after the other. -/
theorem forgetAll_invariant {holds : ChannelManager → Prop} {forgotten : List JobId}
    (keeps : ∀ manager, holds manager → ∀ job ∈ forgotten, job < manager.nextId →
      manager.Alone job → holds (manager.forget job))
    (started : holds manager) (bound : ∀ job ∈ forgotten, job < manager.nextId)
    (alone : ∀ job ∈ forgotten, manager.Alone job) :
    holds (forgotten.foldl ChannelManager.forget manager) := by
  induction forgotten generalizing manager with
  | nil => exact started
  | cons first rest ih =>
      have here : first ∈ first :: rest := List.mem_cons_self
      refine ih (fun manager holds job member => ?_)
        (keeps manager started first here (bound first here) (alone first here))
        (fun job member => ?_) fun job member => ?_
      · exact keeps manager holds job (List.mem_cons_of_mem first member)
      · exact bound job (List.mem_cons_of_mem first member)
      · exact (alone job (List.mem_cons_of_mem first member)).forget first

/-- The jobs that are forgotten with a database. -/
def jobsOfDb (manager : ChannelManager) (dbName : String) : List JobId :=
  (manager.jobsByUuid.values.filter manager.channels.references).filter
    fun job => decide ((manager.jobs job).dbName = dbName)

theorem Sound.removed (sound : manager.Sound) {dbName : String}
    (member : job ∈ manager.jobsOfDb dbName) :
    (manager.jobs job).dbName = dbName ∧ job < manager.nextId ∧ manager.Alone job := by
  obtain ⟨among, ofDb⟩ := List.mem_filter.mp member
  obtain ⟨entry, listed, rfl⟩ := List.mem_map.mp (List.mem_filter.mp among).1
  have found := OrderedMap.get?_eq_some_iff.mpr (show (entry.1, entry.2) ∈ _ from listed)
  have named := sound.named entry.1 entry.2 found
  refine ⟨of_decide_eq_true ofDb, named.2, fun other again => ?_⟩
  rw [named.1, found] at again
  exact (Option.some_inj.mp again).symm

theorem Sound.removeDb (sound : manager.Sound) (dbName : String) :
    (manager.removeDb dbName).Sound :=
  forgetAll_invariant (fun _ sound _ _ bound alone => sound.forget bound alone) sound
    (fun _ member => (sound.removed member).2.1) fun _ member => (sound.removed member).2.2

/-- Channels that are created have no jobs. -/
theorem Sound.ensure (sound : manager.Sound) (path : Path) :
    Sound { manager with channels := manager.channels.ensure path } := by
  have same := manager.channels.ensure_same path
  have placed : ∀ job, manager.channels.Runs job →
      (manager.jobs job).channel = [] ∨ manager.channels.Under manager.jobs [] job :=
    fun job runs => .inr (sound.flows.under_of_holds (Channels.holds_of_runs runs))
  refine ⟨(sound.flows.ensure placed path).runs, fun job referenced => ?_, fun job holds => ?_,
    sound.named⟩
  · exact sound.bounded job ((same job).2.2 ▸ referenced)
  · exact sound.indexed job ((same job).1.mp holds)

/-- A new job is in no channel yet, and takes the place of an older one that is in none
either. -/
theorem Sound.createJob (sound : manager.Sound) {data : JobData} (channel : Path)
    (unused : ∀ job, manager.channels.Holds job → (manager.jobs job).uuid ≠ data.uuid) :
    (manager.createJob data channel).Sound := by
  have new : manager.channels.references manager.nextId = false := by
    rw [← Bool.not_eq_true]
    exact fun known => Nat.lt_irrefl _ (sound.bounded _ known)
  have old : ∀ job, job ≠ manager.nextId →
      (manager.createJob data channel).jobs job = manager.jobs job := fun job different =>
    if_neg different
  have here : ((manager.createJob data channel).jobs manager.nextId).uuid = data.uuid := by
    rw [ChannelManager.createJob]
    simp only [if_true]
  have lookup : ∀ uuid, (manager.createJob data channel).jobsByUuid.get? uuid =
      if uuid = data.uuid then some manager.nextId else manager.jobsByUuid.get? uuid :=
    fun uuid => OrderedMap.get?_set _ _ _ _
  refine ⟨?_, fun job known => ?_, fun job holds => ?_, fun uuid job found => ?_⟩
  · refine sound.flows.congr_jobs fun job => ?_
    by_cases same : job = manager.nextId
    · refine .inr ⟨same ▸ new, fun runs => ?_⟩
      have known := Channels.references_of_holds (Channels.holds_of_runs runs)
      rw [same, new] at known
      exact Bool.false_ne_true known
    · rw [Channels.Alike, old job same]
      exact .inl ⟨rfl, .inl rfl⟩
  · exact Nat.lt_succ_of_lt (sound.bounded job known)
  · have different : job ≠ manager.nextId := fun same => by
      have known := Channels.references_of_holds holds
      rw [same] at known
      exact Bool.false_ne_true (new.symm.trans known)
    rw [lookup, old job different, if_neg (unused job holds)]
    exact sound.indexed job holds
  · rw [lookup] at found
    split at found
    · rename_i same
      cases found
      exact ⟨here.trans same.symm, Nat.lt_succ_self _⟩
    · have named := sound.named uuid job found
      rw [old job (Nat.ne_of_lt named.2)]
      exact ⟨named.1, Nat.lt_succ_of_lt named.2⟩

/-- A uuid that the dictionary does not have is the uuid of no job in the channels. -/
theorem Sound.unused (sound : manager.Sound) {uuid : String}
    (absent : manager.findJob uuid = none) (job : JobId) (holds : manager.channels.Holds job) :
    (manager.jobs job).uuid ≠ uuid := by
  rintro rfl
  have found := findJob_eq_some_iff.mpr
    ⟨sound.indexed job holds, Channels.references_of_holds holds⟩
  rw [absent] at found
  exact (Option.some_ne_none _ found.symm).elim

theorem Sound.createAndMove (sound : manager.Sound) {data : JobData} (channel : Path)
    (unused : ∀ job, manager.channels.Holds job → (manager.jobs job).uuid ≠ data.uuid) :
    ((manager.createJob data channel).transition manager.nextId data.state).Sound := by
  refine (sound.createJob channel unused).transition ?_ data.state
  simp only [ChannelManager.createJob, if_true, OrderedMap.get?_set_self]

/-- Once its job is removed, no job in the channels has the uuid. -/
theorem Sound.unused_removeJob (sound : manager.Sound) (uuid : String) (job : JobId)
    (holds : (manager.removeJob uuid).channels.Holds job) :
    ((manager.removeJob uuid).jobs job).uuid ≠ uuid := by
  cases found : manager.findJob uuid with
  | none =>
      rw [ChannelManager.removeJob, found] at holds ⊢
      exact sound.unused found job holds
  | some old =>
      have removed := sound.removeJob uuid
      have indexed := removed.indexed job holds
      have known := (findJob_eq_some_iff.mp found).1
      rintro same
      rw [same, ChannelManager.removeJob, found] at indexed
      change (manager.jobsByUuid.erase (manager.jobs old).uuid).get? uuid = some job at indexed
      rw [OrderedMap.get?_erase, if_pos (sound.named uuid old known).1.symm] at indexed
      exact (Option.some_ne_none _ indexed.symm).elim

/-- Looking a channel up creates channels, at most. -/
theorem getChannelByName_channels {channels : Channels} {channelName : Option Name}
    {autocreate parentFallback : Bool} {outcome : Path × Channels}
    (found : channels.getChannelByName channelName autocreate parentFallback = some outcome) :
    ∃ path, outcome.2 = channels.ensure path := by
  have same : channels = channels.ensure [] := by
    cases channels with
    | nil => rfl
    | cons name channel children siblings => rfl
  unfold Channels.getChannelByName at found
  cases channelName with
  | none =>
      cases found
      exact ⟨[], same⟩
  | some channelName =>
      simp only at found
      split at found
      · cases found
        exact ⟨[], same⟩
      · split at found
        · cases found
          exact ⟨[], same⟩
        · split at found
          · exact (Option.some_ne_none _ found.symm).elim
          · cases found
            exact ⟨_, rfl⟩

theorem Sound.lookup (sound : manager.Sound) {channelName : Option Name}
    {autocreate parentFallback : Bool} {outcome : Path × Channels}
    (found : manager.channels.getChannelByName channelName autocreate parentFallback =
        some outcome) : Sound { manager with channels := outcome.2 } := by
  obtain ⟨path, created⟩ := getChannelByName_channels found
  rw [created]
  exact sound.ensure path

theorem Sound.notify (sound : manager.Sound) (data : JobData) : (manager.notify data).1.Sound := by
  unfold ChannelManager.notify
  cases found : manager.channels.getChannelByName data.channelName false true with
  | none => exact sound
  | some outcome =>
      have looked := sound.lookup found
      simp only
      cases present : ChannelManager.findJob { manager with channels := outcome.2 } data.uuid with
      | none => exact looked.createAndMove outcome.1 (looked.unused present)
      | some job =>
          simp only
          split
          · exact looked
          · split
            · exact (looked.removeJob data.uuid).createAndMove outcome.1
                (looked.unused_removeJob data.uuid)
            · have known := (findJob_eq_some_iff.mp present).1
              refine looked.transition ?_ data.state
              rw [(looked.named _ _ known).1]
              exact known

theorem Sound.getJobsToRun (sound : manager.Sound) (now : Time) :
    (manager.getJobsToRun now).1.Sound := by
  have delivered := @Channels.getJobsToRun_delivered _ _ _ _ now sound.flows
  have parts := @Channels.getJobsToRun_parts _ _ _ _ now sound.flows
  obtain ⟨moved, store, _⟩ := delivered.store
  have uuid : ∀ job, ((manager.getJobsToRun now).1.jobs job).uuid = (manager.jobs job).uuid :=
    fun job => by
      change ((manager.channels.getJobsToRun now manager.jobs).1 job).uuid = _
      rw [store, Jobs.uuid_cleared]
  refine ⟨delivered.flows.runs, fun job known => ?_, fun job holds => ?_,
    fun name job found => ?_⟩
  · exact sound.bounded job ((parts job).1 known)
  · rw [uuid]
    exact sound.indexed job ((parts job).2.1 holds)
  · rw [uuid]
    exact sound.named name job found

theorem Sound.getWakeupTime (sound : manager.Sound) : manager.getWakeupTime.2.Sound := by
  have cleaned := Channels.getWakeupTime_cleaned sound.flows 0
  refine ⟨cleaned.flows.runs, fun job known => ?_, fun job holds => ?_, sound.named⟩
  · exact sound.bounded job (cleaned.references job known)
  · exact sound.indexed job ((cleaned.holds job).mp holds)

/-- Every event keeps the jobs flowing. -/
theorem Sound.step (sound : manager.Sound) (event : Event) : (manager.step event).Sound := by
  cases event with
  | notify data => exact sound.notify data
  | removeJob uuid => exact sound.removeJob uuid
  | removeDb dbName => exact sound.removeDb dbName
  | getJobsToRun now => exact sound.getJobsToRun now
  | getWakeupTime => exact sound.getWakeupTime

theorem Sound.run (sound : manager.Sound) (events : List Event) :
    (GuardedRun.run ChannelManager.step manager events).Sound :=
  GuardedRun.run_invariant Sound (fun _ event sound => sound.step event) sound events

/-- What looking up channels, moving their jobs and asking them keeps holds after every
event. -/
theorem Sound.tree_invariant {holds : Channels → Prop} (sound : manager.Sound)
    (started : holds manager.channels)
    (lookup : ∀ channels, holds channels → ∀ name outcome,
      channels.getChannelByName name false true = some outcome → holds outcome.2)
    (transition : ∀ manager : ChannelManager, holds manager.channels → ∀ job state,
      holds (manager.transition job state).channels)
    (getJobsToRun : ∀ now, holds (manager.getJobsToRun now).1.channels)
    (getWakeupTime : holds manager.getWakeupTime.2.channels) (event : Event) :
    holds (manager.step event).channels := by
  have removed : ∀ manager : ChannelManager, holds manager.channels → ∀ job,
      holds (manager.forget job).channels :=
    fun manager holds job => transition manager holds job none
  have removeJob : ∀ manager : ChannelManager, holds manager.channels → ∀ uuid,
      holds (manager.removeJob uuid).channels := by
    intro manager here uuid
    unfold ChannelManager.removeJob
    cases manager.findJob uuid with
    | none => exact here
    | some job => exact removed manager here job
  cases event with
  | notify data =>
      change holds (manager.notify data).1.channels
      unfold ChannelManager.notify
      cases found : manager.channels.getChannelByName data.channelName false true with
      | none => exact started
      | some outcome =>
          have looked := lookup manager.channels started _ _ found
          simp only
          split
          · exact transition _ looked _ _
          · split
            · exact looked
            · split
              · refine transition (ChannelManager.createJob _ data outcome.1) ?_ _ _
                exact removeJob { manager with channels := outcome.2 } looked _
              · exact transition _ looked _ _
  | removeJob uuid => exact removeJob manager started uuid
  | removeDb dbName =>
      exact @forgetAll_invariant manager (fun after => holds after.channels)
        (manager.jobsOfDb dbName) (fun after here job _ _ _ => removed after here job) started
        (fun _ member => (sound.removed member).2.1) fun _ member => (sound.removed member).2.2
  | getJobsToRun now => exact getJobsToRun now
  | getWakeupTime => exact getWakeupTime

/-!
## The manager as it is configured
-/

theorem sound_init : init.Sound := by
  refine ⟨?_, fun job known => ?_, ?_, fun uuid job found => ?_⟩
  · have flows : Channels.Flows init.jobs [] (fun _ => False) init.channels := by
      refine .cons ?_ (fun job _ => iff_of_false (Finset.notMem_empty job) id)
        (fun job has => ?_) List.not_mem_nil .nil .nil
      · exact @Channels.SameJobs.sound _ {} _ _ ⟨rfl, rfl, rfl, rfl⟩ (Channels.sound_new _ _)
      · exact (Channels.not_has_new job has).elim
    exact flows.runs
  · exact absurd known Bool.false_ne_true
  · rintro job ((has | failed) | below | beside)
    · exact (Channels.not_has_new job has).elim
    · exact (Finset.notMem_empty job failed).elim
    · exact below.elim
    · exact beside.elim
  · exact (Option.some_ne_none _ found.symm).elim

theorem Sound.set (sound : manager.Sound) {path : Path} {channel changed : Channel}
    (found : manager.channels.get? path = some channel)
    (same : Channels.SameJobs channel changed) :
    Sound { manager with channels := manager.channels.set path changed } := by
  have parts := Channels.set_same found same
  refine ⟨(sound.flows.set found same).runs, fun job known => ?_, fun job holds => ?_,
    sound.named⟩
  · exact sound.bounded job ((parts job).2 ▸ known)
  · exact sound.indexed job ((parts job).1.mp holds)

variable {int : Name → Except Name Int}

theorem configure_same {channel configured : Channel} {config : ChannelConfig}
    (success : channel.configure int config = .ok configured) :
    Channels.SameJobs channel configured := by
  unfold Channel.configure at success
  split at success
  · cases success
  · split at success
    · cases success
    · cases success
      exact ⟨rfl, rfl, rfl, rfl⟩

/-- What looking up channels and configuring them keeps holds of every manager that is
configured. -/
theorem simpleConfigure_invariant {holds : ChannelManager → Prop} (started : holds init)
    (lookup : ∀ manager, holds manager → ∀ name outcome,
      manager.channels.getChannelByName (some name) true false = some outcome →
        holds { manager with channels := outcome.2 })
    (configure : ∀ manager, holds manager → ∀ path channel changed config,
      manager.channels.get? path = some channel → channel.configure int config = .ok changed →
        holds { manager with channels := manager.channels.set path changed })
    {configString : Name} {configured : ChannelManager}
    (success : init.simpleConfigure int configString = .ok configured) : holds configured := by
  have one : ∀ manager, holds manager → ∀ config after,
      manager.getChannelFromConfig int config = .ok after → holds after := by
    intro manager here config after success
    unfold ChannelManager.getChannelFromConfig at success
    cases found : manager.channels.getChannelByName (some config.name) true false with
    | none =>
        rw [found] at success
        cases success
    | some outcome =>
        obtain ⟨path, channels⟩ := outcome
        have looked := lookup manager here config.name _ found
        rw [found] at success
        simp only at success
        cases place : channels.get? path with
        | none =>
            rw [place] at success
            cases success
        | some channel =>
            rw [place] at success
            simp only at success
            cases result : channel.configure int config with
            | error raised =>
                rw [result] at success
                cases success
            | ok changed =>
                rw [result] at success
                cases success
                exact configure _ looked path channel changed config place result
  have all : ∀ configs manager after, holds manager →
      manager.configureAll int configs = .ok after → holds after := by
    intro configs
    induction configs with
    | nil =>
        intro manager after here success
        cases success
        exact here
    | cons config rest ih =>
        intro manager after here success
        rw [ChannelManager.configureAll] at success
        cases result : manager.getChannelFromConfig int config with
        | error raised =>
            rw [result] at success
            cases success
        | ok next =>
            rw [result] at success
            exact ih next after (one manager here config next result) success
  unfold simpleConfigure at success
  cases result : parseSimpleConfig int configString with
  | error raised =>
      rw [result] at success
      cases success
  | ok configs =>
      rw [result] at success
      exact all configs init configured started success

theorem sound_simpleConfigure {configString : Name} {configured : ChannelManager}
    (success : init.simpleConfigure int configString = .ok configured) : configured.Sound :=
  simpleConfigure_invariant sound_init (fun _ sound _ _ found => sound.lookup found)
    (fun _ sound _ _ _ _ found result => sound.set found (configure_same result)) success

end ChannelManager

end WorkflowStudio.Queue
