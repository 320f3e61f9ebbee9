import WorkflowStudio.Queue.StatusProperties

/-! What the channel manager knows of the jobs of the database: how a notification
brings it up to date about one uuid, and what it leaves alone. -/

set_option autoImplicit false

namespace WorkflowStudio.Queue

open Lib PriorityQueue

namespace Channels

variable {channels : Channels} {job : JobId}

theorem holds_of_fails (fails : channels.Fails job) : channels.Holds job := by
  unfold Fails at fails
  induction channels with
  | nil => exact fails.elim
  | cons name channel children siblings belowIh besideIh =>
      rcases fails with failed | below | beside
      · exact .inl (.inr failed)
      · exact .inr (.inl (belowIh below))
      · exact .inr (.inr (besideIh beside))

end Channels

namespace ChannelManager

variable {manager before middle after : ChannelManager} {job : JobId} {data : JobData}
  {uuid other : String}

/-- The name of a channel leads to the path in some tree of channels: a channel that is missing
there is made below the nearest configured one. -/
def LeadsTo (channelName : Option Name) (path : Path) : Prop :=
  ∃ channels : Channels,
    (channels.getChannelByName channelName false true).map Prod.fst = some path

/-- The job is the one of the row, with its scheduling properties. -/
structure Mirrors (manager : ChannelManager) (data : JobData) (job : JobId) : Prop where
  uuid : (manager.jobs job).uuid = data.uuid
  channel : LeadsTo data.channelName (manager.jobs job).channel
  seq : (manager.jobs job).seq = data.seq
  priority : (manager.jobs job).priority = data.priority

/-- No channel has a job with this uuid. -/
def Absent (manager : ChannelManager) (uuid : String) : Prop :=
  ∀ job, manager.channels.Holds job → (manager.jobs job).uuid ≠ uuid

/-- The channels have the job where the state of its row says. Nothing is said of a job
that waits for its dependencies, whose notification is not acted upon. -/
def Shows (manager : ChannelManager) (data : JobData) : Prop :=
  match data.state with
  | none | some .done | some .cancelled => manager.Absent data.uuid
  | some .waitDependencies => True
  | some .pending => ∃ job, manager.Mirrors data job ∧ manager.channels.Waits job
  | some .enqueued | some .started => ∃ job, manager.Mirrors data job ∧ manager.channels.Runs job
  | some .failed => ∃ job, manager.Mirrors data job ∧ manager.channels.Fails job

/-- The channels hand out a job with this uuid. -/
def Hands (manager : ChannelManager) (uuid : String) : Prop :=
  ∃ job, (manager.jobs job).uuid = uuid ∧ manager.channels.Runs job

theorem Sound.unique (sound : manager.Sound) {first second : JobId}
    (held : manager.channels.Holds first) (also : manager.channels.Holds second)
    (same : (manager.jobs first).uuid = (manager.jobs second).uuid) : first = second := by
  have found := sound.indexed first held
  rw [same, sound.indexed second also] at found
  exact (Option.some_inj.mp found).symm

/-!
## Bringing the manager up to date
-/

theorem jobs_transition (manager : ChannelManager) (job : JobId) (state : Option JobState) :
    (manager.transition job state).jobs = manager.jobs := by
  cases state with
  | none => rfl
  | some state => cases state <;> rfl

theorem jobs_notInChannels (sound : manager.Sound)
    (known : manager.jobsByUuid.get? (manager.jobs job).uuid = some job)
    (same : (manager.jobs job).uuid = uuid) :
    (manager.removeFromChannel job).Absent uuid := by
  have target : (manager.jobs job).channel = [] ++ (manager.jobs job).channel :=
    (List.nil_append _).symm
  intro held holds named
  change (manager.jobs held).uuid = uuid at named
  by_cases itself : held = job
  · exact Channels.not_holds_remove sound.flows target (itself ▸ holds)
  · have present := ((Channels.remove_climbed sound.flows target).holds held itself).mp holds
    have found := sound.indexed held present
    rw [named, ← same, known] at found
    exact itself (Option.some_inj.mp found).symm

/-- A job is moved where the state says, unless it should start and waits in a channel
above its own. -/
theorem transition_shows (sound : manager.Sound)
    (known : manager.jobsByUuid.get? (manager.jobs job).uuid = some job)
    (place : manager.channels.has (manager.jobs job).channel = true)
    (mirrors : manager.Mirrors data job)
    (ready : data.state = some .enqueued ∨ data.state = some .started →
      manager.channels.Runs job ∨ ¬ manager.channels.Holds job) :
    (manager.transition job data.state).Shows data := by
  have moved := sound.transition known data.state
  have still : (manager.transition job data.state).Mirrors data job := by
    refine ⟨?_, ?_, ?_, ?_⟩
    · rw [jobs_transition, mirrors.uuid]
    · rw [jobs_transition]
      exact mirrors.channel
    · rw [jobs_transition, mirrors.seq]
    · rw [jobs_transition, mirrors.priority]
  obtain ⟨channel, found⟩ := Option.isSome_iff_exists.mp place
  have absent := jobs_notInChannels sound known mirrors.uuid
  have starts : manager.channels.Runs job ∨ ¬ manager.channels.Holds job →
      (manager.channels.setRunning (manager.jobs job).channel job).Runs job := by
    rintro (runs | absent)
    · rw [Channels.setRunning_again sound.flows (List.nil_append _).symm runs
        (sound.flows.under_of_holds (Channels.holds_of_runs runs))]
      exact runs
    · exact Channels.runs_setRunning sound.flows found fun running =>
        absent (Channels.holds_of_get found (.inl (.inr running)))
  unfold Shows
  cases state : data.state with
  | none => exact absent
  | some state' =>
      rw [state] at moved still
      cases state' with
      | waitDependencies => trivial
      | done => exact absent
      | cancelled => exact absent
      | pending =>
          obtain ⟨changed, place, queued⟩ := @Channels.queued_setPending
            manager.channels manager.jobs _ job channel found
          exact ⟨job, still, Channels.waits_of_own moved.flows place queued⟩
      | enqueued => exact ⟨job, still, starts (ready (.inl state))⟩
      | started => exact ⟨job, still, starts (ready (.inr state))⟩
      | failed =>
          obtain ⟨changed, place, failed⟩ := @Channels.failed_setFailed
            manager.channels _ job channel found
          exact ⟨job, still, Channels.fails_of_get place failed⟩

/-- A job that is created where there is none with its uuid. -/
theorem createAndMove_shows (sound : manager.Sound) {channel : Path}
    (place : manager.channels.has channel = true) (leads : LeadsTo data.channelName channel)
    (unused : manager.Absent data.uuid) :
    ((manager.createJob data channel).transition manager.nextId data.state).Shows data := by
  have fresh : ¬ manager.channels.Holds manager.nextId := fun holds =>
    Nat.lt_irrefl _ (sound.bounded _ (Channels.references_of_holds holds))
  have job : (manager.createJob data channel).jobs manager.nextId =
      { dbName := data.dbName, channel, uuid := data.uuid, seq := data.seq
        dateCreated := data.dateCreated, priority := data.priority, eta := data.eta
        moment := data.moment } := if_pos rfl
  refine transition_shows (sound.createJob channel unused) ?_ ?_ ⟨?_, ?_, ?_, ?_⟩
    fun _ => .inr fresh
  · rw [job]
    exact OrderedMap.get?_set_self _ _ _
  · rw [job]
    exact place
  · rw [job]
  · rw [job]
    exact leads
  · rw [job]
  · rw [job]

/-- The dictionary has the job that was created under the uuid of the row. -/
def Fits (manager : ChannelManager) (data : JobData) : Prop :=
  ∀ job, manager.findJob data.uuid = some job →
    (manager.jobs job).dbName = data.dbName ∧ (manager.jobs job).dateCreated = data.dateCreated

theorem findJob_lookup {channelName : Option Name} {autocreate parentFallback : Bool}
    {outcome : Path × Channels}
    (found : manager.channels.getChannelByName channelName autocreate parentFallback =
      some outcome) :
    ChannelManager.findJob { manager with channels := outcome.2 } uuid = manager.findJob uuid := by
  obtain ⟨path, created⟩ := getChannelByName_channels found
  unfold findJob
  congr 1
  funext job
  rw [created, (manager.channels.ensure_same path job).2.2]

theorem lookup_isSome (channels : Channels) (channelName : Option Name) :
    ∃ outcome, channels.getChannelByName channelName false true = some outcome := by
  unfold Channels.getChannelByName
  cases channelName with
  | none => exact ⟨_, rfl⟩
  | some channelName =>
      simp only
      split
      · exact ⟨_, rfl⟩
      · split
        · exact ⟨_, rfl⟩
        · exact ⟨_, rfl⟩

/-- After a notification about a row the channels have the job where the row says, and
no assertion fails. -/
theorem notify_shows (sound : manager.Sound) (rooted : manager.channels.Rooted)
    (fits : manager.Fits data)
    (ready : data.state = some .enqueued ∨ data.state = some .started →
      ∀ job, manager.channels.Holds job → (manager.jobs job).uuid = data.uuid →
        manager.channels.Runs job) :
    (manager.notify data).1.Shows data ∧ (manager.notify data).2 = false := by
  obtain ⟨outcome, found⟩ := lookup_isSome manager.channels data.channelName
  obtain ⟨path, created⟩ := getChannelByName_channels found
  have looked := sound.lookup found
  have place := Channels.has_lookup rooted found
  have leads : LeadsTo data.channelName outcome.1 :=
    ⟨manager.channels, by rw [found, Option.map_some]⟩
  have same := manager.channels.ensure_same path
  rw [← created] at same
  have known : ChannelManager.findJob { manager with channels := outcome.2 } data.uuid =
      manager.findJob data.uuid := findJob_lookup found
  unfold ChannelManager.notify
  rw [found]
  simp only
  cases present : ChannelManager.findJob { manager with channels := outcome.2 } data.uuid with
  | none => exact ⟨createAndMove_shows looked place leads (looked.unused present), rfl⟩
  | some job =>
      obtain ⟨sameDb, sameDate⟩ := fits job (known ▸ present)
      simp only [sameDb, sameDate, ne_eq, not_true_eq_false, or_self, if_false]
      split
      · refine ⟨createAndMove_shows (looked.removeJob data.uuid) ?_ leads
          (looked.unused_removeJob data.uuid), rfl⟩
        rw [ChannelManager.removeJob, present]
        exact (Channels.climb_sameShape _ _ outcome.1).trans place
      · rename_i unchanged
        have indexed := (findJob_eq_some_iff.mp present).1
        have named := (looked.named _ _ indexed).1
        unfold rescheduled at unchanged
        simp only [Bool.or_eq_true, decide_eq_true_eq, not_or, not_not] at unchanged
        obtain ⟨⟨⟨seq, priority⟩, _⟩, channel⟩ := unchanged
        refine ⟨transition_shows looked (named ▸ indexed) (channel ▸ place)
          ⟨named, channel ▸ leads, seq.symm, priority.symm⟩ fun active => ?_, rfl⟩
        by_cases holds : outcome.2.Holds job
        · exact .inl ((same job).2.1.mpr (ready active job ((same job).1.mp holds) named))
        · exact .inr holds

/-!
## What is left alone
-/

/-- Nothing has changed about the jobs with this uuid. -/
structure Beside (other : String) (before after : ChannelManager) : Prop where
  kept : ∀ job, before.channels.Holds job → (before.jobs job).uuid = other →
    ((after.jobs job).uuid = other ∧ (after.jobs job).channel = (before.jobs job).channel ∧
        (after.jobs job).seq = (before.jobs job).seq ∧
        (after.jobs job).priority = (before.jobs job).priority) ∧
      after.channels.Holds job ∧ (after.channels.Runs job ↔ before.channels.Runs job) ∧
      (after.channels.Fails job ↔ before.channels.Fails job)
  back : ∀ job, after.channels.Holds job → (after.jobs job).uuid = other →
    before.channels.Holds job ∧ (before.jobs job).uuid = other

theorem Beside.refl (other : String) (manager : ChannelManager) : Beside other manager manager :=
  ⟨fun _ holds named => ⟨⟨named, rfl, rfl, rfl⟩, holds, Iff.rfl, Iff.rfl⟩,
    fun _ holds named => ⟨holds, named⟩⟩

theorem Beside.trans (first : Beside other before middle) (second : Beside other middle after) :
    Beside other before after := by
  refine ⟨fun job holds named => ?_, fun job holds named => ?_⟩
  · obtain ⟨⟨uuid, channel, seq, priority⟩, present, runs, fails⟩ := first.kept job holds named
    obtain ⟨⟨uuidThen, channelThen, seqThen, priorityThen⟩, presentThen, runsThen, failsThen⟩ :=
      second.kept job present uuid
    exact ⟨⟨uuidThen, channelThen.trans channel, seqThen.trans seq, priorityThen.trans priority⟩,
      presentThen, runsThen.trans runs, failsThen.trans fails⟩
  · obtain ⟨present, same⟩ := second.back job holds named
    exact first.back job present same

theorem Beside.absent (beside : Beside other before after) (absent : before.Absent other) :
    after.Absent other := by
  intro job holds named
  obtain ⟨present, same⟩ := beside.back job holds named
  exact absent job present same

theorem Beside.shows (beside : Beside data.uuid before after) (shows_ : before.Shows data) :
    after.Shows data := by
  have kept : ∀ job, before.Mirrors data job → before.channels.Holds job →
      after.Mirrors data job ∧ after.channels.Holds job ∧
        (after.channels.Runs job ↔ before.channels.Runs job) ∧
        (after.channels.Fails job ↔ before.channels.Fails job) := by
    intro job mirrors holds
    obtain ⟨⟨uuid, channel, seq, priority⟩, rest⟩ := beside.kept job holds mirrors.uuid
    exact ⟨⟨uuid, channel.symm ▸ mirrors.channel, seq.trans mirrors.seq,
      priority.trans mirrors.priority⟩, rest⟩
  have running : (∃ job, before.Mirrors data job ∧ before.channels.Runs job) →
      ∃ job, after.Mirrors data job ∧ after.channels.Runs job := by
    rintro ⟨job, mirrors, runs⟩
    obtain ⟨again, _, still, _⟩ := kept job mirrors (Channels.holds_of_runs runs)
    exact ⟨job, again, still.mpr runs⟩
  unfold Shows at shows_ ⊢
  cases state : data.state with
  | none =>
      rw [state] at shows_
      exact beside.absent shows_
  | some state' =>
      rw [state] at shows_
      cases state' with
      | waitDependencies => trivial
      | done => exact beside.absent shows_
      | cancelled => exact beside.absent shows_
      | enqueued => exact running shows_
      | started => exact running shows_
      | pending =>
          obtain ⟨job, mirrors, holds, notFailed, idle⟩ := shows_
          obtain ⟨again, present, runs, fails⟩ := kept job mirrors holds
          exact ⟨job, again, present, mt fails.mp notFailed, mt runs.mp idle⟩
      | failed =>
          obtain ⟨job, mirrors, failed⟩ := shows_
          obtain ⟨again, _, _, still⟩ := kept job mirrors (Channels.holds_of_fails failed)
          exact ⟨job, again, still.mpr failed⟩

theorem Beside.hands (beside : Beside other before after) :
    after.Hands other ↔ before.Hands other := by
  constructor
  · rintro ⟨job, named, runs⟩
    obtain ⟨holds, same⟩ := beside.back job (Channels.holds_of_runs runs) named
    exact ⟨job, same, (beside.kept job holds same).2.2.1.mp runs⟩
  · rintro ⟨job, named, runs⟩
    obtain ⟨⟨same, _⟩, _, still, _⟩ := beside.kept job (Channels.holds_of_runs runs) named
    exact ⟨job, same, still.mpr runs⟩

/-- A method that climbs for a job with another uuid. -/
theorem beside_climbed {passed : JobId → Prop} {runs : Prop} {outcome : Channels × Bool}
    (different : (manager.jobs job).uuid ≠ other)
    (climbed : Channels.Climbed manager.jobs [] passed job runs manager.channels outcome)
    (fails : ∀ held, held ≠ job → (outcome.1.Fails held ↔ manager.channels.Fails held)) :
    Beside other manager { manager with channels := outcome.1 } := by
  have apart : ∀ held, (manager.jobs held).uuid = other → held ≠ job := fun held named itself =>
    different (itself ▸ named)
  refine ⟨fun held holds named => ?_, fun held holds named => ?_⟩
  · have itself := apart held named
    exact ⟨⟨named, rfl, rfl, rfl⟩, (climbed.holds held itself).mpr holds, climbed.running held itself,
      fails held itself⟩
  · exact ⟨(climbed.holds held (apart held named)).mp holds, named⟩

theorem transition_beside (sound : manager.Sound) (different : (manager.jobs job).uuid ≠ other)
    (state : Option JobState) : Beside other manager (manager.transition job state) := by
  have target : (manager.jobs job).channel = [] ++ (manager.jobs job).channel :=
    (List.nil_append _).symm
  have dropped : ∀ held, held ≠ job → ∀ channel changed : Channel,
      some (channel.drop job) = some changed → (held ∈ changed.failed ↔ held ∈ channel.failed) := by
    rintro held itself channel _ ⟨⟩
    exact Finset.mem_erase.trans (and_iff_right itself)
  have removed := beside_climbed different (Channels.remove_climbed sound.flows target)
    fun held itself => Channels.somewhere_climb (dropped held itself) (dropped held itself)
  have starts : ∀ held, held ≠ job → ∀ channel changed : Channel,
      channel.setRunning job = some changed →
        (held ∈ changed.failed ↔ held ∈ channel.failed) := by
    intro held itself channel changed result
    unfold Channel.setRunning at result
    split at result
    · exact (Option.some_ne_none _ result.symm).elim
    · cases result
      exact Finset.mem_erase.trans (and_iff_right itself)
  have running := beside_climbed different (Channels.setRunning_climbed sound.flows target)
    fun held itself => Channels.somewhere_climb (starts held itself) (starts held itself)
  have pends : ∀ held, held ≠ job → ∀ channel changed : Channel,
      channel.setPending manager.jobs job = some changed →
        (held ∈ changed.failed ↔ held ∈ channel.failed) := by
    intro held itself channel changed result
    unfold Channel.setPending at result
    split at result
    · exact (Option.some_ne_none _ result.symm).elim
    · cases result
      exact Finset.mem_erase.trans (and_iff_right itself)
  have breaks : ∀ held, held ≠ job → ∀ channel changed : Channel,
      channel.setFailed job = some changed →
        (held ∈ changed.failed ↔ held ∈ channel.failed) := by
    intro held itself channel changed result
    unfold Channel.setFailed at result
    split at result
    · exact (Option.some_ne_none _ result.symm).elim
    · cases result
      exact Finset.mem_insert.trans (or_iff_right itself)
  cases state with
  | none => exact removed
  | some state =>
      cases state with
      | waitDependencies => exact .refl other manager
      | pending =>
          exact beside_climbed different (Channels.setPending_climbed sound.flows target)
            fun held itself => Channels.somewhere_climb (pends held itself) (dropped held itself)
      | enqueued => exact running
      | started => exact running
      | done => exact removed
      | cancelled => exact removed
      | failed =>
          exact beside_climbed different (Channels.setFailed_climbed sound.flows target)
            fun held itself => Channels.somewhere_climb (breaks held itself) (dropped held itself)

theorem removeJob_beside (sound : manager.Sound) (different : uuid ≠ other) :
    Beside other manager (manager.removeJob uuid) := by
  unfold ChannelManager.removeJob
  cases found : manager.findJob uuid with
  | none => exact .refl other manager
  | some job =>
      have named := (sound.named uuid job (findJob_eq_some_iff.mp found).1).1
      have removed := transition_beside sound (named ▸ different) none
      exact ⟨removed.kept, removed.back⟩

/-- A job that is created is in no channel yet. -/
theorem createJob_beside (sound : manager.Sound) (data : JobData) (channel : Path) :
    Beside other manager (manager.createJob data channel) := by
  have old : ∀ job, manager.channels.Holds job →
      (manager.createJob data channel).jobs job = manager.jobs job := fun job holds =>
    if_neg (Nat.ne_of_lt (sound.bounded job (Channels.references_of_holds holds)))
  refine ⟨fun job holds named => ?_, fun job holds named => ?_⟩
  · rw [old job holds]
    exact ⟨⟨named, rfl, rfl, rfl⟩, holds, Iff.rfl, Iff.rfl⟩
  · exact ⟨holds, old job holds ▸ named⟩

theorem lookup_beside {channelName : Option Name} {autocreate parentFallback : Bool}
    {outcome : Path × Channels}
    (found : manager.channels.getChannelByName channelName autocreate parentFallback =
      some outcome) : Beside other manager { manager with channels := outcome.2 } := by
  obtain ⟨path, created⟩ := getChannelByName_channels found
  have same := manager.channels.ensure_same path
  rw [← created] at same
  refine ⟨fun job holds named => ⟨⟨named, rfl, rfl, rfl⟩, (same job).1.mpr holds, (same job).2.1, ?_⟩,
    fun job holds named => ⟨(same job).1.mp holds, named⟩⟩
  unfold Channels.Fails
  rw [created]
  exact Channels.somewhere_ensure (Finset.notMem_empty job) path

/-- A notification changes nothing about the jobs with another uuid. -/
theorem notify_beside (sound : manager.Sound) (different : data.uuid ≠ other) :
    Beside other manager (manager.notify data).1 := by
  have createAndMove : ∀ (manager : ChannelManager) (channel : Path), manager.Sound →
      manager.Absent data.uuid →
        Beside other manager
          ((manager.createJob data channel).transition manager.nextId data.state) := by
    intro manager channel sound unused
    refine (createJob_beside sound data channel).trans
      (transition_beside (sound.createJob channel unused) ?_ _)
    simp only [ChannelManager.createJob, if_true]
    exact different
  unfold ChannelManager.notify
  cases found : manager.channels.getChannelByName data.channelName false true with
  | none => exact .refl other manager
  | some outcome =>
      have looked := sound.lookup found
      refine (lookup_beside found).trans ?_
      simp only
      cases present : ChannelManager.findJob { manager with channels := outcome.2 } data.uuid with
      | none => exact createAndMove _ outcome.1 looked (looked.unused present)
      | some job =>
          simp only
          split
          · exact .refl other _
          · split
            · exact (removeJob_beside looked different).trans
                (createAndMove _ outcome.1 (looked.removeJob data.uuid)
                  (looked.unused_removeJob data.uuid))
            · have named := (looked.named _ _ (findJob_eq_some_iff.mp present).1).1
              exact transition_beside looked (named ▸ different) data.state

theorem getJobsToRun_beside (sound : manager.Sound) {now : Time}
    (notHanded : ∀ job ∈ (manager.getJobsToRun now).2, (manager.jobs job).uuid ≠ other) :
    Beside other manager (manager.getJobsToRun now).1 := by
  obtain ⟨moved, store, _⟩ := (@Channels.getJobsToRun_delivered _ _ _ _ now sound.flows).store
  have same : ∀ job, ((manager.getJobsToRun now).1.jobs job).uuid = (manager.jobs job).uuid ∧
      ((manager.getJobsToRun now).1.jobs job).channel = (manager.jobs job).channel ∧
      ((manager.getJobsToRun now).1.jobs job).seq = (manager.jobs job).seq ∧
      ((manager.getJobsToRun now).1.jobs job).priority = (manager.jobs job).priority := fun job => by
    change ((manager.channels.getJobsToRun now manager.jobs).1 job).uuid = _ ∧
      ((manager.channels.getJobsToRun now manager.jobs).1 job).channel = _ ∧
      ((manager.channels.getJobsToRun now manager.jobs).1 job).seq = _ ∧
      ((manager.channels.getJobsToRun now manager.jobs).1 job).priority = _
    rw [store]
    exact ⟨Jobs.uuid_cleared .., Jobs.channel_cleared .., Jobs.seq_cleared .., Jobs.priority_cleared ..⟩
  refine ⟨fun job holds named => ⟨?_, ?_, ?_, ?_⟩, fun job holds named => ⟨?_, ?_⟩⟩
  · exact ⟨(same job).1.trans named, (same job).2⟩
  · exact Channels.holds_getJobsToRun sound.flows holds
  · refine (Channels.runs_getJobsToRun sound.flows).trans (or_iff_left fun handed => ?_)
    exact notHanded job handed named
  · exact Channels.fails_getJobsToRun
  · exact (Channels.getJobsToRun_parts sound.flows job).2.1 holds
  · exact (same job).1.symm.trans named

theorem getWakeupTime_beside (sound : manager.Sound) :
    Beside other manager manager.getWakeupTime.2 := by
  have cleaned := Channels.getWakeupTime_cleaned sound.flows 0
  exact ⟨fun job holds named => ⟨⟨named, rfl, rfl, rfl⟩, (cleaned.holds job).mpr holds,
      cleaned.runs job, Channels.fails_getWakeupTime⟩,
    fun job holds named => ⟨(cleaned.holds job).mp holds, named⟩⟩

/-- Forgetting a list of jobs leaves only jobs that are not in it. -/
theorem holds_forgetAll {forgotten : List JobId} (sound : manager.Sound)
    (bound : ∀ held ∈ forgotten, held < manager.nextId)
    (alone : ∀ held ∈ forgotten, manager.Alone held)
    (holds : (forgotten.foldl ChannelManager.forget manager).channels.Holds job) :
    manager.channels.Holds job ∧ job ∉ forgotten := by
  induction forgotten generalizing manager with
  | nil => exact ⟨holds, List.not_mem_nil⟩
  | cons first rest ih =>
      have target : (manager.jobs first).channel = [] ++ (manager.jobs first).channel :=
        (List.nil_append _).symm
      have soundThen := sound.forget (bound first List.mem_cons_self)
        (alone first List.mem_cons_self)
      obtain ⟨held, further⟩ := ih soundThen
        (fun held member => bound held (List.mem_cons_of_mem first member))
        (fun held member => (alone held (List.mem_cons_of_mem first member)).forget first) holds
      have itself : job ≠ first := fun same =>
        Channels.not_holds_remove sound.flows target (same ▸ held)
      refine ⟨((Channels.remove_climbed sound.flows target).holds job itself).mp held, ?_⟩
      exact fun member => (List.mem_cons.mp member).elim itself further

/-- With its database all jobs of the database are gone. -/
theorem not_holds_removeDb (sound : manager.Sound) {dbName : String}
    (ours : ∀ job, manager.channels.Holds job → (manager.jobs job).dbName = dbName) :
    ¬ (manager.removeDb dbName).channels.Holds job := by
  intro holds
  have removed : ∀ held ∈ manager.jobsOfDb dbName, held < manager.nextId ∧ manager.Alone held :=
    fun held member => (sound.removed member).2
  obtain ⟨held, kept⟩ := holds_forgetAll sound (fun held member => (removed held member).1)
    (fun held member => (removed held member).2) holds
  refine kept (List.mem_filter.mpr ⟨List.mem_filter.mpr ⟨?_, ?_⟩, ?_⟩)
  · have found := OrderedMap.get?_eq_some_iff.mp (sound.indexed job held)
    exact List.mem_map.mpr ⟨_, found, rfl⟩
  · exact Channels.references_of_holds held
  · exact decide_eq_true (ours job held)

end ChannelManager

end WorkflowStudio.Queue
