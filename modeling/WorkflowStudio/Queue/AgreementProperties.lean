import WorkflowStudio.Queue.JobRunner
import WorkflowStudio.Queue.MirrorProperties

/-! The job runner never loses track of the jobs: whatever is written to the table while
the runner works, and however late it hears of it, its channels have every job where the
row says, except those about which something is still under way. -/

set_option autoImplicit false

namespace WorkflowStudio.Queue

open Lib PriorityQueue

namespace ChannelManager

variable {manager : ChannelManager} {table : JobTable} {job : JobId} {data : JobData}

/-- The jobs of the dictionary were created from rows of the table. -/
def Ours (table : JobTable) (manager : ChannelManager) : Prop :=
  ∀ uuid job, manager.jobsByUuid.get? uuid = some job →
    (manager.jobs job).dbName = table.dbName ∧
      (manager.jobs job).dateCreated = table.dateCreated uuid

theorem jobsByUuid_transition (manager : ChannelManager) (job : JobId) (state : Option JobState) :
    (manager.transition job state).jobsByUuid = manager.jobsByUuid := by
  cases state with
  | none => rfl
  | some state => cases state <;> rfl

theorem Ours.transition (ours : manager.Ours table) (job : JobId) (state : Option JobState) :
    (manager.transition job state).Ours table := by
  intro uuid held found
  rw [jobsByUuid_transition] at found
  rw [jobs_transition]
  exact ours uuid held found

theorem Ours.forget (ours : manager.Ours table) (job : JobId) : (manager.forget job).Ours table := by
  intro uuid held found
  change (manager.jobsByUuid.erase (manager.jobs job).uuid).get? uuid = some held at found
  rw [OrderedMap.get?_erase] at found
  split at found
  · exact (Option.some_ne_none _ found.symm).elim
  · exact ours uuid held found

theorem Ours.removeJob (ours : manager.Ours table) (uuid : String) :
    (manager.removeJob uuid).Ours table := by
  unfold ChannelManager.removeJob
  cases manager.findJob uuid with
  | none => exact ours
  | some job => exact ours.forget job

theorem Ours.removeDb (ours : manager.Ours table) (sound : manager.Sound) (dbName : String) :
    (manager.removeDb dbName).Ours table :=
  @forgetAll_invariant manager (fun after => after.Ours table) (manager.jobsOfDb dbName)
    (fun _ ours job _ _ _ => ours.forget job) ours (fun _ member => (sound.removed member).2.1)
    fun _ member => (sound.removed member).2.2

theorem Ours.createJob (ours : manager.Ours table) (sound : manager.Sound) (channel : Path)
    {uuid : String} {values : Values} :
    (manager.createJob (table.jobData uuid values) channel).Ours table := by
  intro other held found
  change (manager.jobsByUuid.set uuid manager.nextId).get? other = some held at found
  rw [OrderedMap.get?_set] at found
  split at found
  · rename_i same
    cases found
    simp only [ChannelManager.createJob, if_true, same]
    exact ⟨rfl, rfl⟩
  · have old : (manager.createJob (table.jobData uuid values) channel).jobs held =
        manager.jobs held := if_neg (Nat.ne_of_lt (sound.named other held found).2)
    rw [old]
    exact ours other held found

theorem Ours.notify (ours : manager.Ours table) (sound : manager.Sound) (uuid : String)
    (values : Values) : (manager.notify (table.jobData uuid values)).1.Ours table := by
  unfold ChannelManager.notify
  cases found : manager.channels.getChannelByName (table.jobData uuid values).channelName false
      true with
  | none => exact ours
  | some outcome =>
      have looked := sound.lookup found
      have oursThen : Ours table { manager with channels := outcome.2 } := ours
      simp only
      split
      · exact (oursThen.createJob looked outcome.1).transition _ _
      · split
        · exact oursThen
        · split
          · exact ((oursThen.removeJob _).createJob (looked.removeJob _) outcome.1).transition _ _
          · exact oursThen.transition _ _

theorem Ours.getJobsToRun (ours : manager.Ours table) (sound : manager.Sound) (now : Time) :
    (manager.getJobsToRun now).1.Ours table := by
  obtain ⟨moved, store, _⟩ := (@Channels.getJobsToRun_delivered _ _ _ _ now sound.flows).store
  intro uuid held found
  change ((manager.channels.getJobsToRun now manager.jobs).1 held).dbName = _ ∧
    ((manager.channels.getJobsToRun now manager.jobs).1 held).dateCreated = _
  rw [store, Jobs.dbName_cleared, Jobs.dateCreated_cleared]
  exact ours uuid held found

theorem Ours.fits (ours : manager.Ours table) (uuid : String) (values : Values) :
    manager.Fits (table.jobData uuid values) := fun job found =>
  ours uuid job (findJob_eq_some_iff.mp found).1

/-- Where a row that is active is shown, its job is handed out. -/
theorem Shows.hands (shown : manager.Shows data)
    (active : data.state = some .enqueued ∨ data.state = some .started) :
    manager.Hands data.uuid := by
  unfold Shows at shown
  rcases active with state | state
  · rw [state] at shown
    obtain ⟨job, mirrors, runs⟩ := shown
    exact ⟨job, mirrors.uuid, runs⟩
  · rw [state] at shown
    obtain ⟨job, mirrors, runs⟩ := shown
    exact ⟨job, mirrors.uuid, runs⟩

/-- Where there is no row, no channel has a job. -/
def ShowsRow (table : JobTable) (manager : ChannelManager) (uuid : String) : Option Values → Prop
  | none => manager.Absent uuid
  | some values => manager.Shows (table.jobData uuid values)

theorem Beside.showsRow {before after : ChannelManager} {uuid : String} {row : Option Values}
    (beside : Beside uuid before after) (shown : before.ShowsRow table uuid row) :
    after.ShowsRow table uuid row := by
  cases row with
  | none => exact beside.absent shown
  | some values => exact Beside.shows beside shown

/-- A job that waits in the channels, where the row is shown: the row says that it waits. -/
theorem waiting_of_shows (sound : manager.Sound) {values : Values}
    (holds : manager.channels.Holds job) (idle : ¬ manager.channels.Runs job)
    (notFailed : ¬ manager.channels.Fails job)
    (shown : manager.Shows (table.jobData (manager.jobs job).uuid values)) :
    values.state = .pending ∨ values.state = .waitDependencies := by
  have unique : ∀ other, manager.Mirrors (table.jobData (manager.jobs job).uuid values) other →
      manager.channels.Holds other → other = job := fun other mirrors present =>
    sound.unique present holds mirrors.uuid
  have notRunning : ¬ ∃ other, manager.Mirrors (table.jobData (manager.jobs job).uuid values) other ∧
      manager.channels.Runs other := by
    rintro ⟨other, mirrors, runs⟩
    exact idle (unique other mirrors (Channels.holds_of_runs runs) ▸ runs)
  obtain ⟨channelName, seq, priority, eta, state, moment⟩ := values
  cases state with
  | waitDependencies => exact .inr rfl
  | pending => exact .inl rfl
  | enqueued => exact absurd shown notRunning
  | started => exact absurd shown notRunning
  | done => exact absurd rfl (shown job holds)
  | cancelled => exact absurd rfl (shown job holds)
  | failed =>
      obtain ⟨other, mirrors, fails⟩ := shown
      exact absurd (unique other mirrors (Channels.holds_of_fails fails) ▸ fails) notFailed

theorem rooted_notify (sound : manager.Sound) (rooted : manager.channels.Rooted)
    (data : JobData) : (manager.notify data).1.channels.Rooted :=
  rooted_step sound rooted (.notify data)

end ChannelManager

theorem jobData_active {table : JobTable} {uuid : String} {values : Values} :
    ((table.jobData uuid values).state = some .enqueued ∨
      (table.jobData uuid values).state = some .started) ↔ values.state.Active := by
  unfold JobTable.jobData JobState.Active
  simp only [Option.some_inj]

/-- A job that is over is in no channel. -/
theorem shows_over {manager : ChannelManager} {table : JobTable} {uuid : String} {values : Values}
    (past : values.state ∉ notDone) :
    manager.Shows (table.jobData uuid values) ↔ manager.Absent uuid := by
  obtain ⟨channelName, seq, priority, eta, state, moment⟩ := values
  cases state with
  | waitDependencies => exact absurd (show JobState.waitDependencies ∈ notDone by decide) past
  | pending => exact absurd (show JobState.pending ∈ notDone by decide) past
  | enqueued => exact absurd (show JobState.enqueued ∈ notDone by decide) past
  | started => exact absurd (show JobState.started ∈ notDone by decide) past
  | failed => exact absurd (show JobState.failed ∈ notDone by decide) past
  | done => exact Iff.rfl
  | cancelled => exact Iff.rfl

namespace JobRunner

/-- A notification about the uuid has been sent, but the runner has not acted upon it. -/
def Outstanding (runner : JobRunner) (uuid : String) : Prop :=
  uuid ∈ runner.sent ∨ uuid ∈ runner.notifies

instance (runner : JobRunner) (uuid : String) : Decidable (runner.Outstanding uuid) :=
  inferInstanceAs (Decidable (_ ∨ _))

/-- The rows that the runner has read, but not told its channels. -/
def selected (runner : JobRunner) : List (String × Values) :=
  match runner.task with
  | .initializeDatabases selected => selected
  | _ => []

/-- The jobs that are handed out, but not marked. -/
def handed (runner : JobRunner) : List JobId :=
  match runner.task with
  | .runJobs handed => handed
  | _ => []

/-- Nothing is under way about the uuid. -/
structure Settled (runner : JobRunner) (uuid : String) : Prop where
  heard : ¬ runner.Outstanding uuid
  read : uuid ∉ runner.selected.map Prod.fst
  marked : ∀ job ∈ runner.handed, (runner.channelManager.jobs job).uuid ≠ uuid

/-- The channels have the job of the uuid where its row says. -/
def Agrees (table : JobTable) (runner : JobRunner) (uuid : String) : Prop :=
  runner.channelManager.ShowsRow table uuid (runner.rows.get? uuid)

structure Consistent (table : JobTable) (runner : JobRunner) : Prop where
  sound : runner.channelManager.Sound
  rooted : runner.channelManager.channels.Rooted
  ours : runner.channelManager.Ours table
  active : ∀ uuid values, runner.rows.get? uuid = some values → values.state.Active →
    runner.channelManager.Hands uuid ∨
      ∃ read, (uuid, read) ∈ runner.selected ∧ read.state.Active
  unread : ∀ entry ∈ runner.selected,
    runner.channelManager.Absent entry.1 ∧ entry.2.state ∈ notDone
  distinct : (runner.selected.map Prod.fst).Nodup
  current : ∀ entry ∈ runner.selected, ¬ runner.Outstanding entry.1 →
    runner.rows.get? entry.1 = some entry.2
  unmarked : ∀ job ∈ runner.handed, runner.channelManager.channels.Runs job ∧
    (runner.Outstanding (runner.channelManager.jobs job).uuid ∨
      ∃ values, runner.rows.get? (runner.channelManager.jobs job).uuid = some values ∧
        (values.state = .pending ∨ values.state = .waitDependencies))
  agrees : ∀ uuid, runner.Settled uuid → runner.Agrees table uuid

variable {table : JobTable} {runner : JobRunner} {manager : ChannelManager}
  {rows : OrderedMap String Values} {sent : List String}

/-- The runner has connected, with channels that have no jobs. -/
theorem consistent_connect (sound : manager.Sound) (rooted : manager.channels.Rooted)
    (ours : manager.Ours table) (empty : ∀ job, ¬ manager.channels.Holds job) :
    (connect manager rows sent).Consistent table := by
  have absent : ∀ uuid, manager.Absent uuid := fun _ job holds => absurd holds (empty job)
  have member : ∀ {entry}, entry ∈ (connect manager rows sent).selected ↔
      entry ∈ rows.entries ∧ entry.2.state ∈ notDone := fun {entry} => by
    change entry ∈ rows.entries.filter _ ↔ _
    rw [List.mem_filter, decide_eq_true_eq]
  refine ⟨sound, rooted, ours, fun uuid values found active => .inr ⟨values, ?_, active⟩,
    fun entry among => ⟨absent entry.1, (member.mp among).2⟩, ?_, fun entry among _ => ?_,
    fun _ absurdity => absurd absurdity List.not_mem_nil, fun uuid settled => ?_⟩
  · refine member.mpr ⟨OrderedMap.get?_eq_some_iff.mp found, ?_⟩
    rcases active with state | state
    · rw [state]
      decide
    · rw [state]
      decide
  · exact rows.distinct.sublist (List.filter_sublist.map Prod.fst)
  · exact OrderedMap.get?_eq_some_iff.mpr (member.mp among).1
  · unfold Agrees
    cases found : (connect manager rows sent).rows.get? uuid with
    | none => exact absent uuid
    | some values =>
        have past : values.state ∉ notDone := fun state => settled.read (List.mem_map.mpr
          ⟨(uuid, values), member.mpr ⟨OrderedMap.get?_eq_some_iff.mp found, state⟩, rfl⟩)
        exact (shows_over past).mpr (absent uuid)

/-- The runner has acted upon a row, and knows of the job of its uuid. -/
theorem Consistent.informed {after : ChannelManager} {notifies : List String} {task : Task}
    {uuid : String} (consistent : runner.Consistent table) (sound : after.Sound)
    (rooted : after.channels.Rooted) (ours : after.Ours table)
    (beside : ∀ other, uuid ≠ other → ChannelManager.Beside other runner.channelManager after)
    (idle : runner.handed = []) :
    let next : JobRunner := { runner with channelManager := after, notifies, task }
    next.handed = [] →
    (∀ other, uuid ≠ other → other ∈ runner.notifies → other ∈ notifies) →
    (∀ entry ∈ next.selected, entry ∈ runner.selected ∧ uuid ≠ entry.1) →
    (∀ entry ∈ runner.selected, uuid ≠ entry.1 → entry ∈ next.selected) →
    (next.selected.map Prod.fst).Nodup →
    (∀ values, runner.rows.get? uuid = some values → values.state.Active → after.Hands uuid) →
    (¬ next.Outstanding uuid → next.Agrees table uuid) → next.Consistent table := by
  intro next still heard fewer rest distinct active agrees
  have outstanding : ∀ other, uuid ≠ other → runner.Outstanding other → next.Outstanding other :=
    fun other different => Or.imp_right (heard other different)
  refine ⟨sound, rooted, ours, fun other values found isActive => ?_, fun entry among => ?_,
    distinct, fun entry among quiet => ?_, fun job member => ?_, fun other settled => ?_⟩
  · by_cases same : uuid = other
    · exact .inl (same ▸ active values (same ▸ found) isActive)
    · refine (consistent.active other values found isActive).imp
        (fun hands => (beside other same).hands.mpr hands) ?_
      rintro ⟨read, among, isActive⟩
      exact ⟨read, rest _ among same, isActive⟩
  · obtain ⟨before, different⟩ := fewer entry among
    have unread := consistent.unread entry before
    exact ⟨(beside entry.1 different).absent unread.1, unread.2⟩
  · obtain ⟨before, different⟩ := fewer entry among
    exact consistent.current entry before fun out => quiet (outstanding entry.1 different out)
  · rw [still] at member
    exact absurd member List.not_mem_nil
  · by_cases same : uuid = other
    · exact same ▸ agrees (same ▸ settled.heard)
    · have before : runner.Agrees table other := by
        refine consistent.agrees other ⟨fun out => settled.heard (outstanding other same out),
          fun read => settled.read ?_, fun job member => ?_⟩
        · obtain ⟨entry, among, named⟩ := List.mem_map.mp read
          exact List.mem_map.mpr ⟨entry, rest entry among (named ▸ same), named⟩
        · rw [idle] at member
          exact absurd member List.not_mem_nil
      exact (beside other same).showsRow before

/-!
## The steps of the runner
-/

theorem notify_quiet (runner : JobRunner) {uuid : String} {values : Values}
    (quiet : (runner.channelManager.notify (table.jobData uuid values)).2 = false) :
    runner.notify table uuid values =
      { runner with
        channelManager := (runner.channelManager.notify (table.jobData uuid values)).1 } := by
  unfold notify
  generalize runner.channelManager.notify (table.jobData uuid values) = outcome at quiet ⊢
  obtain ⟨manager, failed⟩ := outcome
  cases quiet
  rfl

/-- The runner tells its channels of a row, with nothing else on its hands. -/
theorem Consistent.notified (consistent : runner.Consistent table) {uuid : String}
    {values : Values} (ready : values.state.Active → ∀ job, runner.channelManager.channels.Holds job →
      (runner.channelManager.jobs job).uuid = uuid → runner.channelManager.channels.Runs job) :
    let after := (runner.channelManager.notify (table.jobData uuid values)).1
    (runner.channelManager.notify (table.jobData uuid values)).2 = false ∧
      after.Shows (table.jobData uuid values) ∧ after.Sound ∧ after.channels.Rooted ∧
      after.Ours table ∧ ∀ other, uuid ≠ other →
        ChannelManager.Beside other runner.channelManager after := by
  intro after
  obtain ⟨shown, quiet⟩ := ChannelManager.notify_shows consistent.sound consistent.rooted
    (consistent.ours.fits uuid values) fun active => ready (jobData_active.mp active)
  exact ⟨quiet, shown, consistent.sound.notify _,
    ChannelManager.rooted_notify consistent.sound consistent.rooted _,
    consistent.ours.notify consistent.sound uuid values,
    fun other different => ChannelManager.notify_beside consistent.sound different⟩

theorem Consistent.initializeNext (consistent : runner.Consistent table) :
    (runner.initializeNext table).Consistent table := by
  obtain ⟨rows, sent, notifies, manager, task⟩ := runner
  cases task with
  | failed => exact consistent
  | idle => exact consistent
  | runJobs handed => exact consistent
  | initializeDatabases selected =>
      cases selected with
      | nil =>
          exact ⟨consistent.sound, consistent.rooted, consistent.ours, consistent.active,
            consistent.unread, consistent.distinct, consistent.current, consistent.unmarked,
            fun uuid settled =>
              consistent.agrees uuid ⟨settled.heard, settled.read, settled.marked⟩⟩
      | cons entry rest =>
          obtain ⟨uuid, values⟩ := entry
          have here : (uuid, values) ∈ (uuid, values) :: rest := List.mem_cons_self
          have unread := consistent.unread _ here
          obtain ⟨first, distinct⟩ := List.nodup_cons.mp consistent.distinct
          have apart : ∀ entry ∈ rest, uuid ≠ entry.1 := fun entry member same =>
            first (List.mem_map.mpr ⟨entry, member, same.symm⟩)
          obtain ⟨quiet, shown, sound, rooted, ours, beside⟩ :=
            @Consistent.notified _ _ consistent uuid values
              fun _ job holds named => absurd named (unread.1 job holds)
          change Consistent table (JobRunner.notify table
            ⟨rows, sent, notifies, manager, .initializeDatabases rest⟩ uuid values)
          rw [notify_quiet ⟨rows, sent, notifies, manager, .initializeDatabases rest⟩ quiet]
          refine consistent.informed sound rooted ours beside rfl rfl (fun _ _ heard => heard)
            (fun entry member => ⟨List.mem_cons_of_mem _ member, apart entry member⟩)
            (fun entry member different => (List.mem_cons.mp member).resolve_left
              fun same => different (congrArg Prod.fst same).symm)
            distinct (fun current found active => ?_) fun heard => ?_
          · -- the row may have been written since, but only the runner makes a row active
            rcases consistent.active uuid current found active with ⟨job, named, runs⟩ | ⟨read, among, isActive⟩
            · exact absurd named (unread.1 job (Channels.holds_of_runs runs))
            · rcases List.mem_cons.mp among with same | later
              · cases same
                exact shown.hands (jobData_active.mpr isActive)
              · exact absurd rfl (apart _ later)
          · have found := consistent.current _ here heard
            unfold Agrees
            change ChannelManager.ShowsRow table _ uuid (rows.get? uuid)
            change rows.get? uuid = some values at found
            rw [found]
            exact shown

/-- With nothing left to read, a job whose row is active runs where the channels hold it. -/
theorem Consistent.runs_of_active (consistent : runner.Consistent table)
    (idle : runner.selected = []) {uuid : String} {values : Values}
    (found : runner.rows.get? uuid = some values) (active : values.state.Active) :
    ∀ job, runner.channelManager.channels.Holds job →
      (runner.channelManager.jobs job).uuid = uuid → runner.channelManager.channels.Runs job := by
  intro job holds named
  rcases consistent.active uuid values found active with ⟨other, same, runs⟩ | ⟨_, read, _⟩
  · have itself := consistent.sound.unique holds (Channels.holds_of_runs runs)
      (named.trans same.symm)
    exact itself ▸ runs
  · rw [idle] at read
    exact absurd read List.not_mem_nil

theorem Consistent.processNotification (consistent : runner.Consistent table) :
    (runner.processNotification table).Consistent table := by
  obtain ⟨rows, sent, notifies, manager, task⟩ := runner
  cases task with
  | failed => exact consistent
  | initializeDatabases selected => exact consistent
  | runJobs handed => exact consistent
  | idle =>
      cases last : notifies.getLast? with
      | none =>
          unfold JobRunner.processNotification
          simp only [last]
          exact consistent
      | some uuid =>
          have heard : ∀ other, uuid ≠ other → other ∈ notifies → other ∈ notifies.dropLast := by
            intro other different member
            rw [← List.dropLast_append_getLast? uuid last, List.mem_append,
              List.mem_singleton] at member
            exact member.resolve_right fun same => different same.symm
          have nothing : ∀ entry ∈ ([] : List (String × Values)),
              entry ∈ ([] : List (String × Values)) ∧ uuid ≠ entry.1 := fun entry absurdity =>
            absurd absurdity List.not_mem_nil
          unfold JobRunner.processNotification
          simp only [last]
          cases found : rows.get? uuid with
          | none =>
              refine consistent.informed (consistent.sound.removeJob uuid) ?_
                (consistent.ours.removeJob uuid)
                (fun other different => ChannelManager.removeJob_beside consistent.sound different)
                rfl rfl heard nothing (fun entry member _ => member) List.nodup_nil
                (fun values present => ?_) fun _ => ?_
              · exact ChannelManager.rooted_step consistent.sound consistent.rooted (.removeJob uuid)
              · change rows.get? uuid = some values at present
                rw [found] at present
                exact (Option.some_ne_none _ present.symm).elim
              · unfold Agrees
                change ChannelManager.ShowsRow table _ uuid (rows.get? uuid)
                rw [found]
                exact consistent.sound.unused_removeJob uuid
          | some values =>
              obtain ⟨quiet, shown, sound, rooted, ours, beside⟩ :=
                @Consistent.notified _ _ consistent uuid values
                  (consistent.runs_of_active rfl found)
              change Consistent table (JobRunner.notify table
                ⟨rows, sent, notifies.dropLast, manager, .idle⟩ uuid values)
              rw [notify_quiet ⟨rows, sent, notifies.dropLast, manager, .idle⟩ quiet]
              refine consistent.informed sound rooted ours beside rfl rfl heard nothing
                (fun entry member _ => member) List.nodup_nil (fun current present active => ?_)
                fun _ => ?_
              · change rows.get? uuid = some current at present
                rw [found] at present
                cases present
                exact shown.hands (jobData_active.mpr active)
              · unfold Agrees
                change ChannelManager.ShowsRow table _ uuid (rows.get? uuid)
                rw [found]
                exact shown

theorem Consistent.restart (consistent : runner.Consistent table) (sent : List String) :
    (runner.restart table sent).Consistent table := by
  have sound := consistent.sound
  refine consistent_connect (sound.removeDb table.dbName)
    (ChannelManager.rooted_step sound consistent.rooted (.removeDb table.dbName))
    (consistent.ours.removeDb sound table.dbName) fun job => ?_
  refine ChannelManager.not_holds_removeDb sound fun held holds => ?_
  exact (consistent.ours _ held (sound.indexed held holds)).1

/-- Steps that do not concern the channels, after which as much is outstanding. -/
theorem Consistent.resent (consistent : runner.Consistent table) {sent notifies : List String}
    (same : ∀ uuid, uuid ∈ sent ∨ uuid ∈ notifies ↔ runner.Outstanding uuid) :
    Consistent table { runner with sent, notifies } := by
  refine ⟨consistent.sound, consistent.rooted, consistent.ours, consistent.active,
    consistent.unread, consistent.distinct, fun entry member quiet => ?_, fun job member => ?_,
    fun uuid settled => ?_⟩
  · exact consistent.current entry member fun out => quiet ((same entry.1).mpr out)
  · obtain ⟨runs, rest⟩ := consistent.unmarked job member
    exact ⟨runs, rest.imp_left (same _).mpr⟩
  · exact consistent.agrees uuid
      ⟨fun out => settled.heard ((same uuid).mpr out), settled.read, settled.marked⟩

theorem Consistent.receive (consistent : runner.Consistent table) (count : Nat) :
    (runner.receive count).Consistent table := by
  refine consistent.resent fun uuid => ?_
  have parts : uuid ∈ runner.sent ↔ uuid ∈ runner.sent.take count ∨ uuid ∈ runner.sent.drop count := by
    rw [← List.mem_append, List.take_append_drop]
  rw [Outstanding, parts, List.mem_append]
  tauto

theorem Consistent.runJobs (consistent : runner.Consistent table) (now : Time) :
    (runner.runJobs now).Consistent table := by
  obtain ⟨rows, sent, notifies, manager, task⟩ := runner
  cases task with
  | failed => exact consistent
  | initializeDatabases selected => exact consistent
  | runJobs handed => exact consistent
  | idle =>
      have sound : manager.Sound := consistent.sound
      have soundThen := sound.getJobsToRun now
      have same : ∀ job, ((manager.getJobsToRun now).1.jobs job).uuid = (manager.jobs job).uuid := by
        intro job
        obtain ⟨moved, store, _⟩ :=
          (@Channels.getJobsToRun_delivered _ _ _ _ now sound.flows).store
        change ((manager.channels.getJobsToRun now manager.jobs).1 job).uuid = _
        rw [store, Jobs.uuid_cleared]
      refine ⟨soundThen, ChannelManager.rooted_step sound consistent.rooted (.getJobsToRun now),
        consistent.ours.getJobsToRun sound now, fun uuid values found active => ?_,
        fun entry absurdity => absurd absurdity List.not_mem_nil, List.nodup_nil,
        fun entry absurdity => absurd absurdity List.not_mem_nil, fun job handed => ?_,
        fun uuid settled => ?_⟩
      · refine (consistent.active uuid values found active).imp_left ?_
        rintro ⟨job, named, runs⟩
        exact ⟨job, (same job).trans named, (Channels.runs_getJobsToRun sound.flows).mpr (.inl runs)⟩
      · change job ∈ (manager.getJobsToRun now).2 at handed
        change (manager.getJobsToRun now).1.channels.Runs job ∧ _
        have runs : (manager.getJobsToRun now).1.channels.Runs job :=
          (Channels.runs_getJobsToRun sound.flows).mpr (.inr handed)
        obtain ⟨idle, holds, _⟩ := ChannelManager.handed_out sound handed
        refine ⟨runs, or_iff_not_imp_left.mpr fun quiet => ?_⟩
        change ¬ Outstanding _ ((manager.getJobsToRun now).1.jobs job).uuid at quiet
        change ∃ values, rows.get? ((manager.getJobsToRun now).1.jobs job).uuid = some values ∧ _
        rw [same] at quiet ⊢
        have agrees := consistent.agrees (manager.jobs job).uuid
          ⟨quiet, List.not_mem_nil, fun _ absurdity => absurd absurdity List.not_mem_nil⟩
        -- a job that was waiting in the channels: its row says so, too
        unfold Agrees at agrees
        change manager.ShowsRow table _ (rows.get? _) at agrees
        cases found : rows.get? (manager.jobs job).uuid with
        | none =>
            rw [found] at agrees
            exact absurd rfl (agrees job holds)
        | some values =>
            rw [found] at agrees
            refine ⟨values, rfl, ?_⟩
            exact ChannelManager.waiting_of_shows sound holds idle
              (fun fails => soundThen.flows.not_runs_of_fails
                (Channels.fails_getJobsToRun.mpr fails) runs) agrees
      · have settledBefore : Settled ⟨rows, sent, notifies, manager, .idle⟩ uuid :=
          ⟨settled.heard, List.not_mem_nil, fun _ absurdity => absurd absurdity List.not_mem_nil⟩
        refine ChannelManager.Beside.showsRow (ChannelManager.getJobsToRun_beside sound ?_)
          (consistent.agrees uuid settledBefore)
        exact fun job handed named => settled.marked job handed ((same job).trans named)

theorem Consistent.waitNotification (consistent : runner.Consistent table) :
    runner.waitNotification.Consistent table := by
  obtain ⟨rows, sent, notifies, manager, task⟩ := runner
  cases task with
  | failed => exact consistent
  | initializeDatabases selected => exact consistent
  | runJobs handed => exact consistent
  | idle =>
      have sound : manager.Sound := consistent.sound
      have beside : ∀ uuid, ChannelManager.Beside uuid manager manager.getWakeupTime.2 :=
        fun uuid => ChannelManager.getWakeupTime_beside sound
      refine ⟨sound.getWakeupTime,
        ChannelManager.rooted_step sound consistent.rooted .getWakeupTime, consistent.ours,
        fun uuid values found active => ?_,
        fun entry absurdity => absurd absurdity List.not_mem_nil, List.nodup_nil,
        fun entry absurdity => absurd absurdity List.not_mem_nil,
        fun _ absurdity => absurd absurdity List.not_mem_nil, fun uuid settled => ?_⟩
      · exact (consistent.active uuid values found active).imp_left (beside uuid).hands.mpr
      · exact (beside uuid).showsRow (consistent.agrees uuid
          ⟨settled.heard, settled.read, settled.marked⟩)

/-!
## What is written to the table
-/

/-- Only the deletion of a job that is done is not heard of. -/
theorem not_triggers {old new : Option Values} (quiet : ¬ triggers old new = true) :
    new = none ∧ ∀ values, old = some values → values.state ∉ notDone := by
  cases new with
  | some values => cases old <;> exact absurd rfl quiet
  | none =>
      refine ⟨rfl, fun values present => ?_⟩
      cases present
      simp only [triggers, decide_eq_true_eq, not_not] at quiet
      rw [quiet]
      decide

theorem get?_write (runner : JobRunner) (uuid other : String) (values : Option Values) :
    (runner.write uuid values).rows.get? other =
      if other = uuid then values else runner.rows.get? other := by
  cases values with
  | none => exact OrderedMap.get?_erase _ _ _
  | some values => exact OrderedMap.get?_set _ _ _ _

theorem Outstanding.write {uuid other : String} (out : runner.Outstanding other)
    (values : Option Values) : (runner.write uuid values).Outstanding other := by
  refine out.imp_left fun member => ?_
  unfold JobRunner.write
  simp only
  split
  · exact List.mem_append_left [uuid] member
  · exact member

/-- Where nothing is outstanding after the row was written, it was deleted, and its job
was over, if there was such a row. -/
theorem quiet_write {uuid : String} {values : Option Values}
    (quiet : ¬ (runner.write uuid values).Outstanding uuid) :
    values = none ∧ ∀ old, runner.rows.get? uuid = some old → old.state ∉ notDone := by
  refine not_triggers fun heard => quiet (.inl ?_)
  unfold JobRunner.write
  rw [if_pos heard]
  exact List.mem_append_right _ (List.mem_singleton_self uuid)

theorem Consistent.write (consistent : runner.Consistent table) {uuid : String}
    {values : Option Values}
    (activates : ∀ written, values = some written → written.state.Active →
      runner.channelManager.Hands uuid ∨
        ∃ read, (uuid, read) ∈ runner.selected ∧ read.state.Active) :
    (runner.write uuid values).Consistent table := by
  refine ⟨consistent.sound, consistent.rooted, consistent.ours, fun other written found active => ?_,
    consistent.unread, consistent.distinct, fun entry member quiet => ?_, fun job member => ?_,
    fun other settled => ?_⟩
  · rw [get?_write] at found
    split at found
    · rename_i same
      exact same ▸ activates written found active
    · exact consistent.active other written found active
  · have read := consistent.current entry member fun out => quiet (out.write values)
    rw [get?_write]
    split
    · rename_i same
      obtain ⟨_, past⟩ := quiet_write (same ▸ quiet)
      exact absurd (consistent.unread entry member).2 (past entry.2 (same ▸ read))
    · exact read
  · obtain ⟨runs, rest⟩ := consistent.unmarked job member
    refine ⟨runs, ?_⟩
    rcases rest with out | ⟨old, found, waits⟩
    · exact .inl (out.write values)
    · refine or_iff_not_imp_left.mpr fun quiet => ⟨old, ?_, waits⟩
      change (runner.write uuid values).rows.get? (runner.channelManager.jobs job).uuid = some old
      rw [get?_write]
      split
      · rename_i same
        have past := (quiet_write (same ▸ quiet)).2 old (same ▸ found)
        refine absurd ?_ past
        rcases waits with state | state
        · rw [state]
          decide
        · rw [state]
          decide
      · exact found
  · have agrees := consistent.agrees other
      ⟨fun out => settled.heard (out.write values), settled.read, settled.marked⟩
    unfold Agrees at agrees ⊢
    rw [get?_write]
    split
    · rename_i same
      obtain ⟨rfl, past⟩ := quiet_write (same ▸ settled.heard)
      cases found : runner.rows.get? other with
      | none =>
          rw [found] at agrees
          exact agrees
      | some old =>
          rw [found] at agrees
          exact (shows_over (past old (same ▸ found))).mp agrees
    · exact agrees

/-- The runner goes on to the next of the jobs that it has handed out. -/
theorem Consistent.marked {sent notifies : List String} {job : JobId} {rest : List JobId}
    (consistent : Consistent table ⟨rows, sent, notifies, manager, .runJobs (job :: rest)⟩)
    (out : Outstanding ⟨rows, sent, notifies, manager, .runJobs (job :: rest)⟩
      (manager.jobs job).uuid) :
    Consistent table ⟨rows, sent, notifies, manager, .runJobs rest⟩ := by
  refine ⟨consistent.sound, consistent.rooted, consistent.ours, consistent.active,
    consistent.unread, consistent.distinct, consistent.current, fun held member => ?_,
    fun uuid settled => ?_⟩
  · exact consistent.unmarked held (List.mem_cons_of_mem job member)
  · refine consistent.agrees uuid ⟨settled.heard, settled.read, fun held member => ?_⟩
    rcases List.mem_cons.mp member with rfl | later
    · exact fun same => settled.heard (same ▸ out)
    · exact settled.marked held later

theorem Consistent.setJobEnqueued (consistent : runner.Consistent table) :
    runner.setJobEnqueued.Consistent table := by
  obtain ⟨rows, sent, notifies, manager, task⟩ := runner
  cases task with
  | failed => exact consistent
  | idle => exact consistent
  | initializeDatabases selected => exact consistent
  | runJobs handed =>
      cases handed with
      | nil =>
          exact ⟨consistent.sound, consistent.rooted, consistent.ours, consistent.active,
            consistent.unread, consistent.distinct, consistent.current, consistent.unmarked,
            fun uuid settled =>
              consistent.agrees uuid ⟨settled.heard, settled.read, settled.marked⟩⟩
      | cons job rest =>
          obtain ⟨runs, waits⟩ := consistent.unmarked job List.mem_cons_self
          unfold JobRunner.setJobEnqueued
          simp only
          cases found : rows.get? (manager.jobs job).uuid with
          | none =>
              refine consistent.marked (waits.resolve_right ?_)
              rintro ⟨values, present, _⟩
              change rows.get? (manager.jobs job).uuid = some values at present
              rw [found] at present
              exact Option.some_ne_none _ present.symm
          | some values =>
              have written := @Consistent.write table _ consistent (manager.jobs job).uuid
                (some { values with state := .enqueued }) fun _ _ _ => .inl ⟨job, rfl, runs⟩
              refine written.marked (.inl ?_)
              change _ ∈ if triggers (rows.get? _) (some { values with state := .enqueued }) then
                sent ++ [(manager.jobs job).uuid] else sent
              rw [found]
              exact List.mem_append_right sent (List.mem_singleton_self _)

theorem Consistent.step (consistent : runner.Consistent table) {event : RunnerEvent}
    (allowed : runner.OnlyRunnerEnqueues event) : (runner.step table event).Consistent table := by
  cases event with
  | receive count => exact consistent.receive count
  | initializeNext => exact consistent.initializeNext
  | processNotification => exact consistent.processNotification
  | runJobs now => exact consistent.runJobs now
  | setJobEnqueued => exact consistent.setJobEnqueued
  | waitNotification => exact consistent.waitNotification
  | restart sent => exact consistent.restart sent
  | write uuid values =>
      refine consistent.write fun written same active => ?_
      subst same
      obtain ⟨old, found, wasActive⟩ := allowed active
      exact consistent.active uuid old found wasActive

variable {int : Name → Except Name Int} {configString : Name} {configured : ChannelManager}

/-- The channels that are configured have no jobs. -/
theorem empty_simpleConfigure
    (success : ChannelManager.init.simpleConfigure int configString = .ok configured) :
    configured.jobsByUuid = .empty ∧ ∀ job, ¬ configured.channels.Holds job := by
  refine @ChannelManager.simpleConfigure_invariant int
    (fun manager => manager.jobsByUuid = .empty ∧ ∀ job, ¬ manager.channels.Holds job)
    ⟨rfl, fun job => ?_⟩ (fun manager empty name outcome found => ⟨empty.1, fun job => ?_⟩)
    (fun manager empty path channel changed config found result => ⟨empty.1, fun job => ?_⟩) _ _
    success
  · rintro ((has | failed) | below | beside)
    · exact Channels.not_has_new job has
    · exact Finset.notMem_empty job failed
    · exact below
    · exact beside
  · obtain ⟨path, created⟩ := ChannelManager.getChannelByName_channels found
    change ¬ outcome.2.Holds job
    rw [created, (manager.channels.ensure_same path job).1]
    exact empty.2 job
  · change ¬ (manager.channels.set path changed).Holds job
    rw [(Channels.set_same found (ChannelManager.configure_same result) job).1]
    exact empty.2 job

theorem consistent_run
    (success : ChannelManager.init.simpleConfigure int configString = .ok configured)
    {events : List RunnerEvent}
    (allowed : GuardedRun.Meets (step table) OnlyRunnerEnqueues (connect configured rows sent) events) :
    (GuardedRun.run (step table) (connect configured rows sent) events).Consistent table := by
  obtain ⟨unknown, empty⟩ := empty_simpleConfigure success
  have started : (connect configured rows sent).Consistent table := by
    refine consistent_connect (ChannelManager.sound_simpleConfigure success)
      (ChannelManager.rooted_simpleConfigure success) (fun uuid job found => ?_) empty
    rw [unknown] at found
    exact (Option.some_ne_none _ found.symm).elim
  exact GuardedRun.guarded_invariant (Consistent table)
    (fun _ _ consistent allowed => consistent.step allowed) started allowed

def waitingRow : Values where
  channelName := none
  seq := 1
  priority := 10
  eta := none
  state := .pending
  moment := no_eta

def jobTable : JobTable where
  dbName := "db"
  dateCreated := fun _ => 0

end JobRunner

end WorkflowStudio.Queue
