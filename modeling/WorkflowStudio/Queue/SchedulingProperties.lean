import WorkflowStudio.Queue.HandingOutProperties

/-! The capacities of the channels: as long as only jobs that were handed out are
notified as enqueued or started, no channel has more of them running than it may. -/

set_option autoImplicit false

namespace WorkflowStudio.Queue

open Lib PriorityQueue

namespace Channel

/-- The channel runs no more jobs than its capacity, if it has one. -/
def WithinCapacity (channel : Channel) : Prop :=
  ∀ limit, channel.capacity = some limit → limit ≠ 0 →
    (channel.running.card : Int) ≤ max limit 0

/-- It could run one more. -/
def HasRoom (channel : Channel) : Prop :=
  ∀ limit, channel.capacity = some limit → limit ≠ 0 →
    (channel.running.card : Int) + 1 ≤ max limit 0

variable {channel changed : Channel} {jobs : Jobs} {job : JobId}

theorem WithinCapacity.fewer (within : channel.WithinCapacity)
    (capacity : changed.capacity = channel.capacity)
    (fewer : changed.running.card ≤ channel.running.card) : changed.WithinCapacity := by
  intro limit limited positive
  have bounded := within limit (capacity ▸ limited) positive
  omega

theorem WithinCapacity.drop (within : channel.WithinCapacity) (job : JobId) :
    (channel.drop job).WithinCapacity :=
  within.fewer rfl (Finset.card_le_card (Finset.erase_subset job channel.running))

theorem WithinCapacity.setPending (within : channel.WithinCapacity)
    (pending : channel.setPending jobs job = some changed) : changed.WithinCapacity := by
  unfold Channel.setPending at pending
  split at pending
  · exact (Option.some_ne_none _ pending.symm).elim
  · cases pending
    exact within.fewer rfl (Finset.card_le_card (Finset.erase_subset job channel.running))

theorem WithinCapacity.setFailed (within : channel.WithinCapacity)
    (failing : channel.setFailed job = some changed) : changed.WithinCapacity := by
  unfold Channel.setFailed at failing
  split at failing
  · exact (Option.some_ne_none _ failing.symm).elim
  · cases failing
    exact within.fewer rfl (Finset.card_le_card (Finset.erase_subset job channel.running))

theorem HasRoom.setRunning (room : channel.HasRoom)
    (starting : channel.setRunning job = some changed) : changed.WithinCapacity := by
  unfold Channel.setRunning at starting
  split at starting
  · exact (Option.some_ne_none _ starting.symm).elim
  · cases starting
    intro limit limited positive
    have bounded := room limit limited positive
    have grown := Finset.card_insert_le job channel.running
    change ((insert job channel.running).card : Int) ≤ max limit 0
    omega

/-- A job that stops running makes room for another. -/
theorem WithinCapacity.room (within : channel.WithinCapacity) (running : job ∈ channel.running) :
    (channel.drop job).HasRoom := by
  intro limit limited positive
  have bounded := within limit limited positive
  have shrunk := Finset.card_erase_add_one running
  change ((channel.running.erase job).card : Int) + 1 ≤ max limit 0
  omega

theorem WithinCapacity.dispatch {now : Time} {arrived : List JobId}
    (within : channel.WithinCapacity) :
    ((channel.enqueue jobs arrived).dispatch now jobs).2.1.WithinCapacity := by
  obtain ⟨moved, advances⟩ := (channel.enqueue jobs arrived).dispatch_advances now jobs
  intro limit limited positive
  have same : channel.capacity = some limit := advances.capacity ▸ limited
  exact advances.within limit same positive (within limit same positive)

end Channel

namespace Channels

/-- Every channel of the tree. -/
def All (holds : Channel → Prop) : Channels → Prop
  | .nil => True
  | .cons _ channel children siblings => holds channel ∧ children.All holds ∧ siblings.All holds

/-- Every channel on the path. -/
def Along (holds : Channel → Prop) : Channels → Path → Prop
  | .nil, _ => True
  | .cons _ _ _ _, [] => True
  | .cons name channel children siblings, first :: rest =>
      (name = first → holds channel ∧ children.Along holds rest) ∧
        (name ≠ first → siblings.Along holds (first :: rest))

variable {holds along : Channel → Prop} {channels : Channels} {jobs : Jobs} {parent : Path}
  {passed : JobId → Prop} {job : JobId} {path : Path}

theorem All.get (all : channels.All holds) {channel : Channel}
    (found : channels.get? path = some channel) : holds channel := by
  induction channels generalizing path with
  | nil => exact (Option.some_ne_none _ found.symm).elim
  | cons name here children siblings belowIh besideIh =>
      cases path with
      | nil => exact (Option.some_ne_none _ found.symm).elim
      | cons first rest =>
          rw [get?] at found
          split at found
          · split at found
            · cases found
              exact all.1
            · exact belowIh all.2.1 found
          · exact besideIh all.2.2 found

theorem along_true (channels : Channels) (path : Path) : channels.Along (fun _ => True) path := by
  induction channels generalizing path with
  | nil => trivial
  | cons name here children siblings belowIh besideIh =>
      cases path with
      | nil => trivial
      | cons first rest => exact ⟨fun _ => ⟨trivial, belowIh rest⟩, fun _ => besideIh _⟩

/-- What a climbing method keeps in each channel that it changes. -/
theorem All.climb {own above : Channel → Option Channel} (all : channels.All holds)
    (onPath : channels.Along along path)
    (atOwn : ∀ channel changed, holds channel → along channel → own channel = some changed →
      holds changed)
    (atAbove : ∀ channel changed, holds channel → along channel →
      above channel = some changed → holds changed) :
    (channels.climb own above path).1.All holds := by
  induction channels generalizing path with
  | nil => trivial
  | cons name channel children siblings belowIh besideIh =>
      cases path with
      | nil => exact all
      | cons first rest =>
          obtain ⟨here, below, beside⟩ := all
          rw [Channels.climb]
          by_cases named : name = first
          · rw [if_pos named]
            obtain ⟨alongHere, alongBelow⟩ := onPath.1 named
            by_cases last : rest = []
            · rw [if_pos last]
              cases result : own channel with
              | none => exact ⟨here, below, beside⟩
              | some changed => exact ⟨atOwn channel changed here alongHere result, below, beside⟩
            · rw [if_neg last]
              have climbed := belowIh below alongBelow
              simp only
              split
              · cases result : above channel with
                | none => exact ⟨here, climbed, beside⟩
                | some changed =>
                    exact ⟨atAbove channel changed here alongHere result, climbed, beside⟩
              · exact ⟨here, climbed, beside⟩
          · rw [if_neg named]
            exact ⟨here, below, besideIh beside (onPath.2 named)⟩

theorem All.getJobsToRun {after : Channel → Prop} {now : Time} (all : channels.All holds)
    (dispatch : ∀ jobs arrived channel, holds channel →
      after ((channel.enqueue jobs arrived).dispatch now jobs).2.1) :
    (channels.getJobsToRun now jobs).2.1.All after := by
  induction channels generalizing jobs with
  | nil => trivial
  | cons name channel children siblings belowIh besideIh =>
      exact ⟨dispatch _ _ channel all.1, belowIh all.2.1, besideIh all.2.2⟩

theorem All.getWakeupTime {wakeup : Time} (all : channels.All holds)
    (clean : ∀ channel queue, holds channel → holds { channel with queue }) :
    (channels.getWakeupTime jobs wakeup).2.All holds := by
  induction channels generalizing wakeup with
  | nil => trivial
  | cons name channel children siblings belowIh besideIh =>
      rw [Channels.getWakeupTime]
      split
      · split
        · exact ⟨all.1, all.2.1, besideIh all.2.2⟩
        · exact ⟨clean channel _ all.1, belowIh all.2.1, besideIh all.2.2⟩
      · exact ⟨all.1, all.2.1, besideIh all.2.2⟩

theorem all_fresh (new : holds {}) (path : Path) : (fresh path).All holds := by
  induction path with
  | nil => trivial
  | cons name rest ih => exact ⟨new, ih, trivial⟩

theorem All.ensure (all : channels.All holds) (new : holds {}) (path : Path) :
    (channels.ensure path).All holds := by
  induction channels generalizing path with
  | nil => exact all_fresh new path
  | cons name channel children siblings belowIh besideIh =>
      cases path with
      | nil => exact all
      | cons first rest =>
          rw [Channels.ensure]
          split
          · exact ⟨all.1, belowIh all.2.1 rest, all.2.2⟩
          · exact ⟨all.1, all.2.1, besideIh all.2.2 _⟩

theorem All.set (all : channels.All holds) {channel : Channel} (new : holds channel)
    (path : Path) : (channels.set path channel).All holds := by
  induction channels generalizing path with
  | nil => trivial
  | cons name here children siblings belowIh besideIh =>
      cases path with
      | nil => exact all
      | cons first rest =>
          rw [Channels.set]
          split
          · split
            · exact ⟨new, all.2.1, all.2.2⟩
            · exact ⟨all.1, belowIh all.2.1 rest, all.2.2⟩
          · exact ⟨all.1, all.2.1, besideIh all.2.2 _⟩

theorem All.remove (all : channels.All Channel.WithinCapacity) (path : Path) (job : JobId) :
    (channels.remove path job).All Channel.WithinCapacity := by
  refine All.climb all (along_true channels path) ?_ ?_
  · rintro channel _ within _ ⟨⟩
    exact within.drop job
  · rintro channel _ within _ ⟨⟩
    exact within.drop job

theorem All.setPending (all : channels.All Channel.WithinCapacity) (path : Path) (job : JobId) :
    (channels.setPending jobs path job).All Channel.WithinCapacity := by
  refine All.climb all (along_true channels path) ?_ ?_
  · exact fun channel changed within _ result => within.setPending result
  · rintro channel _ within _ ⟨⟩
    exact within.drop job

theorem All.setFailed (all : channels.All Channel.WithinCapacity) (path : Path) (job : JobId) :
    (channels.setFailed path job).All Channel.WithinCapacity := by
  refine All.climb all (along_true channels path) ?_ ?_
  · exact fun channel changed within _ result => within.setFailed result
  · rintro channel _ within _ ⟨⟩
    exact within.drop job

theorem All.setRunning (all : channels.All Channel.WithinCapacity)
    (room : channels.Along Channel.HasRoom path) (job : JobId) :
    (channels.setRunning path job).All Channel.WithinCapacity :=
  All.climb all room (fun _ _ _ room result => room.setRunning result)
    fun _ _ _ room result => room.setRunning result

/-- A job that its parent has is running along the whole path, and makes room there
when it is removed. -/
theorem All.room (all : channels.All Channel.WithinCapacity)
    (flows : Flows jobs parent passed channels)
    (target : (jobs job).channel = parent ++ path) (has : passed job)
    (under : channels.Under jobs parent job) :
    (channels.remove path job).Along Channel.HasRoom path := by
  unfold Channels.remove
  induction flows generalizing path with
  | nil => trivial
  | @cons parent passed name channel children siblings sound running arrived distinct below
      beside belowIh besideIh =>
      cases path with
      | nil =>
          rw [List.append_nil] at target
          exact absurd under (not_under_of_own target)
      | cons first rest =>
          have going : parent ++ [first] <+: (jobs job).channel := by
            rw [target]
            exact (List.prefix_append_right_inj parent).mpr ⟨rest, rfl⟩
          rw [Channels.climb]
          by_cases named : name = first
          · rw [if_pos named]
            subst named
            have runs : job ∈ channel.running := (running job going).mpr has
            by_cases last : rest = []
            · rw [if_pos last]
              refine ⟨fun _ => ⟨all.1.room runs, ?_⟩, fun different => absurd rfl different⟩
              rw [last]
              cases children with
              | nil => trivial
              | cons _ _ _ _ => trivial
            · rw [if_neg last]
              have further : (jobs job).channel = (parent ++ [name]) ++ rest := by
                rw [target, List.append_assoc, List.singleton_append]
              have child := (arrived job (.inr runs)).resolve_left (not_own_of_further last target)
              have past := remove_past below further (.inr runs) child
              simp only [past, if_true]
              refine ⟨fun _ => ⟨all.1.room runs, ?_⟩, fun different => absurd rfl different⟩
              exact belowIh all.2.1 further (.inr runs) child
          · rw [if_neg named]
            refine ⟨fun same => absurd same named, fun _ => ?_⟩
            refine besideIh all.2.2 target has ((Under.cons.mp under).resolve_left fun within => ?_)
            exact named (name_unique within going)

/-- A job that is running along the whole path already is not started again. -/
theorem setRunning_again (flows : Flows jobs parent passed channels)
    (target : (jobs job).channel = parent ++ path) (has : passed job)
    (under : channels.Under jobs parent job) : channels.setRunning path job = channels := by
  unfold Channels.setRunning
  induction flows generalizing path with
  | nil => rfl
  | @cons parent passed name channel children siblings sound running arrived distinct below
      beside belowIh besideIh =>
      cases path with
      | nil => rfl
      | cons first rest =>
          have going : parent ++ [first] <+: (jobs job).channel := by
            rw [target]
            exact (List.prefix_append_right_inj parent).mpr ⟨rest, rfl⟩
          rw [Channels.climb]
          by_cases named : name = first
          · rw [if_pos named]
            subst named
            have runs : job ∈ channel.running := (running job going).mpr has
            have stops := Channel.setRunning_eq_none_iff.mpr runs
            by_cases last : rest = []
            · rw [if_pos last, stops]
            · rw [if_neg last]
              have further : (jobs job).channel = (parent ++ [name]) ++ rest := by
                rw [target, List.append_assoc, List.singleton_append]
              have child := (arrived job (.inr runs)).resolve_left (not_own_of_further last target)
              simp only [belowIh further (.inr runs) child, stops, ite_self]
          · rw [if_neg named]
            have among := (Under.cons.mp under).resolve_left fun within =>
              named (name_unique within going)
            simp only [besideIh target has among]

end Channels

namespace ChannelManager

variable {manager : ChannelManager} {job : JobId}

/-- Only a job that is running in the root channel, in the channel of the notification,
is notified as enqueued or started. -/
def HandedOut (manager : ChannelManager) : Event → Prop
  | .notify data =>
      data.state = some .enqueued ∨ data.state = some .started →
        ∃ job channels, manager.findJob data.uuid = some job ∧ manager.channels.Runs job ∧
          manager.channels.getChannelByName data.channelName false true =
            some ((manager.jobs job).channel, channels)
  | _ => True

def Within (manager : ChannelManager) : Prop :=
  manager.channels.All Channel.WithinCapacity

theorem Within.transition (within : manager.Within) {state : Option JobState}
    (waiting : ¬ (state = some .enqueued ∨ state = some .started)) :
    (manager.transition job state).Within := by
  cases state with
  | none => exact Channels.All.remove within _ job
  | some state =>
      cases state with
      | waitDependencies => exact within
      | pending => exact Channels.All.setPending within _ job
      | enqueued => exact absurd (.inl rfl) waiting
      | started => exact absurd (.inr rfl) waiting
      | done => exact Channels.All.remove within _ job
      | cancelled => exact Channels.All.remove within _ job
      | failed => exact Channels.All.setFailed within _ job

theorem Within.transition_of_room (within : manager.Within)
    (room : manager.channels.Along Channel.HasRoom (manager.jobs job).channel)
    (state : Option JobState) : (manager.transition job state).Within := by
  by_cases running : state = some .enqueued ∨ state = some .started
  · rcases running with rfl | rfl
    · exact Channels.All.setRunning within room job
    · exact Channels.All.setRunning within room job
  · exact within.transition running

theorem Within.transition_of_runs (within : manager.Within) (sound : manager.Sound)
    (runs : manager.channels.Runs job) (state : Option JobState) :
    (manager.transition job state).Within := by
  have again := Channels.setRunning_again sound.flows (List.nil_append _).symm runs
    (sound.flows.under_of_holds (Channels.holds_of_runs runs))
  by_cases running : state = some .enqueued ∨ state = some .started
  · have same : (manager.transition job state).channels = manager.channels := by
      rcases running with rfl | rfl
      · exact again
      · exact again
    rw [Within, same]
    exact within
  · exact within.transition running

theorem Within.removeJob (within : manager.Within) (uuid : String) :
    (manager.removeJob uuid).Within := by
  unfold ChannelManager.removeJob
  cases manager.findJob uuid with
  | none => exact within
  | some job => exact Channels.All.remove within _ job

theorem Within.createJob (within : manager.Within) (data : JobData) (channel : Path) :
    (manager.createJob data channel).Within := within

theorem withinCapacity_new : Channel.WithinCapacity {} := fun _ limited _ =>
  (Option.some_ne_none _ limited.symm).elim

theorem Within.notify (within : manager.Within) (sound : manager.Sound) {data : JobData}
    (handedOut : manager.HandedOut (.notify data)) : (manager.notify data).1.Within := by
  unfold ChannelManager.notify
  cases found : manager.channels.getChannelByName data.channelName false true with
  | none => exact within
  | some outcome =>
      have looked : Within { manager with channels := outcome.2 } := by
        obtain ⟨path, created⟩ := getChannelByName_channels found
        rw [Within, created]
        exact within.ensure withinCapacity_new path
      have soundLooked := sound.lookup found
      have references : ∀ job, outcome.2.references job = manager.channels.references job :=
        fun job => by
          obtain ⟨path, created⟩ := getChannelByName_channels found
          rw [created, (manager.channels.ensure_same path job).2.2]
      have runs : ∀ job, manager.channels.Runs job → outcome.2.Runs job := fun job runs => by
        obtain ⟨path, created⟩ := getChannelByName_channels found
        rw [created]
        exact (manager.channels.ensure_same path job).2.1.mpr runs
      have sameJob : ChannelManager.findJob { manager with channels := outcome.2 } data.uuid =
          manager.findJob data.uuid := by
        unfold findJob
        congr 1
        exact funext references
      simp only
      cases present : ChannelManager.findJob { manager with channels := outcome.2 } data.uuid with
      | none =>
          refine (looked.createJob data outcome.1).transition fun running => ?_
          obtain ⟨job, _, known, _⟩ := handedOut running
          rw [← sameJob, present] at known
          exact (Option.some_ne_none _ known.symm).elim
      | some job =>
          have handed : data.state = some .enqueued ∨ data.state = some .started →
              outcome.2.Runs job ∧ outcome.1 = (manager.jobs job).channel := fun running => by
            obtain ⟨other, _, known, isRunning, named⟩ := handedOut running
            rw [← sameJob, present] at known
            cases known
            rw [found] at named
            exact ⟨runs job isRunning, congrArg Prod.fst (Option.some_inj.mp named)⟩
          simp only
          split
          · exact looked
          · split
            · by_cases running : data.state = some .enqueued ∨ data.state = some .started
              · obtain ⟨isRunning, same⟩ := handed running
                have under := soundLooked.flows.under_of_holds (Channels.holds_of_runs isRunning)
                have room := Channels.All.room looked soundLooked.flows (List.nil_append _).symm
                  isRunning under
                have removed := looked.removeJob data.uuid
                refine (removed.createJob data outcome.1).transition_of_room ?_ data.state
                rw [ChannelManager.removeJob, present]
                simp only [ChannelManager.createJob, if_true, same]
                exact room
              · have removed := looked.removeJob data.uuid
                exact (removed.createJob data outcome.1).transition running
            · by_cases running : data.state = some .enqueued ∨ data.state = some .started
              · exact looked.transition_of_runs soundLooked (handed running).1 data.state
              · exact looked.transition running

theorem Within.step (within : manager.Within) (sound : manager.Sound) {event : Event}
    (handedOut : manager.HandedOut event) : (manager.step event).Within := by
  cases event with
  | notify data => exact within.notify sound handedOut
  | removeJob uuid => exact within.removeJob uuid
  | removeDb dbName =>
      refine forgetAll_invariant (fun after within job _ _ _ => ?_) within
        (fun _ member => (sound.removed member).2.1) fun _ member => (sound.removed member).2.2
      exact Channels.All.remove within _ job
  | getJobsToRun now => exact Channels.All.getJobsToRun within fun _ _ _ within => within.dispatch
  | getWakeupTime =>
      exact Channels.All.getWakeupTime within fun _ _ within => within.fewer rfl le_rfl

/-!
## The manager as it is configured
-/

/-- No channel is running a job. -/
def Idle (manager : ChannelManager) : Prop :=
  manager.channels.All fun channel => channel.running = ∅

variable {int : Name → Except Name Int} {configString : Name} {configured : ChannelManager}

theorem idle_within {channels : Channels}
    (idle : channels.All fun channel => channel.running = ∅) :
    channels.All Channel.WithinCapacity := by
  induction channels with
  | nil => trivial
  | cons name channel children siblings belowIh besideIh =>
      refine ⟨fun limit _ _ => ?_, belowIh idle.2.1, besideIh idle.2.2⟩
      rw [idle.1, Finset.card_empty]
      exact le_max_right limit 0

theorem within_simpleConfigure
    (success : init.simpleConfigure int configString = .ok configured) : configured.Within := by
  refine idle_within (@simpleConfigure_invariant int Idle ⟨rfl, trivial, trivial⟩
    (fun manager idle name outcome found => ?_)
    (fun manager idle path channel changed config found result => ?_) _ _ success)
  · obtain ⟨path, created⟩ := getChannelByName_channels found
    rw [Idle, created]
    exact idle.ensure rfl path
  · exact idle.set ((configure_same result).2.2.1.trans (idle.get found)) path

/-- As long as only jobs that were handed out, and that the root channel still runs, are
notified as enqueued or started, no channel ever runs more jobs than its capacity. -/
theorem capacity_kept (success : init.simpleConfigure int configString = .ok configured)
    (events : List Event) (handedOut : GuardedRun.Meets step HandedOut configured events) :
    let after := GuardedRun.run step configured events
    ∀ path channel, after.channels.get? path = some channel →
      ∀ limit, channel.capacity = some limit → limit ≠ 0 →
        (channel.running.card : Int) ≤ max limit 0 := by
  have kept := GuardedRun.guarded_invariant (fun manager => manager.Sound ∧ manager.Within)
    (fun _ event ⟨sound, within⟩ allowed => ⟨sound.step event, within.step sound allowed⟩)
    ⟨sound_simpleConfigure success, within_simpleConfigure success⟩ handedOut
  intro after path channel found
  exact Channels.All.get kept.2 found

theorem capacity_kept_started :
    let after := GuardedRun.run step init
      [.notify (rootJob "a" .pending), .getJobsToRun 5, .notify (rootJob "a" .started)]
    ∀ path channel, after.channels.get? path = some channel →
      ∀ limit, channel.capacity = some limit → limit ≠ 0 →
        (channel.running.card : Int) ≤ max limit 0 := by
  refine @capacity_kept (fun text => .error text) [] init rfl _ ⟨?_, trivial, ?_, trivial⟩
  · exact fun running => absurd running (by decide)
  · refine fun _ => ⟨0, _, by decide, .inl ?_, rfl⟩
    decide

end ChannelManager

end WorkflowStudio.Queue

/-! The jobs that are handed out come first in the order of the queue, and no channel
keeps a job back that it could run. -/

namespace WorkflowStudio.Queue

open Lib PriorityQueue

namespace ChannelQueue

/-- Etas of other jobs do not matter to a queue. -/
theorem Held.cleared {jobs : Jobs} {queue : ChannelQueue} {moved : Finset JobId}
    (held : queue.Held jobs) (elsewhere : ∀ job ∈ queue.etaQueue.objects, job ∉ moved) :
    queue.Held (jobs.cleared moved) := by
  obtain ⟨sequential, ready, etaJob, least, before⟩ := held
  have key : ∀ job ∈ queue.etaQueue.objects,
      (jobs.cleared moved).sortingKey job = jobs.sortingKey job := fun job member => by
    rw [Jobs.sortingKey, Jobs.sortingKey, Jobs.key_cleared,
      jobs.cleared_of_notMem moved (elsewhere job member)]
  refine ⟨sequential, ready, etaJob, ⟨least.1, fun job member => ?_⟩, fun job member => ?_⟩
  · rw [key etaJob least.1, key job member]
    exact least.2 job member
  · rw [Jobs.key_cleared, Jobs.key_cleared]
    exact before job member

theorem Exhausted.cleared {now : Time} {jobs : Jobs} {queue : ChannelQueue}
    {moved : Finset JobId} (exhausted : queue.Exhausted now jobs)
    (elsewhere : ∀ job ∈ queue.etaQueue.objects, job ∉ moved) :
    queue.Exhausted now (jobs.cleared moved) := by
  refine ⟨fun job member => ?_, exhausted.2.imp_right fun held => held.cleared elsewhere⟩
  rw [jobs.cleared_of_notMem moved (elsewhere job member)]
  exact exhausted.1 job member

end ChannelQueue

namespace Channel

/-- The channel keeps back no job that it could yield: it is full, it pauses, or its
queue has nothing to yield. -/
def Served (now : Time) (jobs : Jobs) (channel : Channel) : Prop :=
  0 ≤ channel.throttle → channel.hasCapacity = false ∨ now < channel.pauseUntil ∨
    channel.queue.Exhausted now jobs

variable {now : Time} {jobs : Jobs} {channel : Channel}

theorem dispatch_served : (channel.dispatch now jobs).2.1.Served now (channel.dispatch now jobs).1 := by
  intro throttle
  cases paused : channel.paused now with
  | true =>
      rw [dispatch_paused jobs paused]
      simp only [Channel.paused, Bool.and_eq_true, decide_eq_true_eq] at paused
      exact .inr (.inl paused.2)
  | false =>
      obtain ⟨moved, yielded⟩ := dispatch_yielded jobs paused
      rw [yielded.throttle] at throttle
      rcases yielded.stopped with full | ⟨throttled, some⟩ | exhausted
      · exact .inl full
      · refine .inr (.inl ?_)
        have delay : 0 < 1000000 * channel.unpause.throttle := by omega
        rw [yielded.pauseUntil, if_pos ⟨throttled, some⟩]
        exact Int.lt_add_of_pos_right now delay
      · exact .inr (.inr exhausted)

end Channel

namespace Channels

variable {now : Time} {jobs : Jobs} {parent : Path} {passed : JobId → Prop}
  {channels : Channels}

theorem Flows.served_cleared {moved : Finset JobId} (flows : Flows jobs parent passed channels)
    (served : channels.All (Channel.Served now jobs))
    (elsewhere : ∀ job ∈ moved, ¬ channels.Under jobs parent job) :
    channels.All (Channel.Served now (jobs.cleared moved)) := by
  induction flows with
  | nil => trivial
  | cons sound running arrived distinct below beside belowIh besideIh =>
      refine ⟨fun throttle => ?_, belowIh served.2.1 fun job member under => ?_,
        besideIh served.2.2 fun job member under => ?_⟩
      · refine (served.1 throttle).imp_right fun rest => rest.imp_right fun exhausted => ?_
        refine exhausted.cleared fun job waits member => elsewhere job member ?_
        refine Under.cons.mpr (.inl ?_)
        rw [sound.etaOwn job (mem_known_of_mem waits)]
      · exact elsewhere job member (Under.cons.mpr (.inl (within_of_under under)))
      · exact elsewhere job member (Under.cons.mpr (.inr under))

/-- Once the jobs are yielded, no channel of the tree keeps one back. -/
theorem getJobsToRun_served (flows : Flows jobs parent passed channels) :
    (channels.getJobsToRun now jobs).2.1.All
      (Channel.Served now (channels.getJobsToRun now jobs).1) := by
  induction channels generalizing jobs parent passed with
  | nil => trivial
  | cons name channel children siblings belowIh besideIh =>
      obtain ⟨single, distinct, beside⟩ := flows_cons_iff.mp flows
      cases flows with
      | cons sound _ _ _ below _ =>
          have delivered := @getJobsToRun_delivered _ _ _ _ now below
          have here := @delivered_channel _ _ _ now _ _ _ _ single delivered
          have soundHere := delivered.sound_enqueue sound
          obtain ⟨moved, advances⟩ := (channel.enqueue (children.getJobsToRun now jobs).1
            (children.getJobsToRun now jobs).2.2).dispatch_advances now
              (children.getJobsToRun now jobs).1
          have servedBelow := delivered.flows.served_cleared (belowIh below)
            fun job member => not_under_of_own (advances.moved_own soundHere member)
          rw [← advances.store] at servedBelow
          obtain ⟨cleared, store, clearedUnder⟩ := here.store
          have besideFlows := beside.cleared fun job member sibling =>
            not_under_of_distinct distinct
              ((Under.cons.mp (clearedUnder job member)).resolve_right not_under_nil) sibling
          simp only at store
          rw [← store] at besideFlows
          obtain ⟨later, laterStore, laterUnder⟩ :=
            (@getJobsToRun_delivered _ _ _ _ now besideFlows).store
          have both := here.flows.served_cleared ⟨Channel.dispatch_served, servedBelow, trivial⟩
            fun job member under => not_under_of_distinct distinct
              ((Under.cons.mp under).resolve_right not_under_nil) (laterUnder job member)
          rw [← laterStore] at both
          exact ⟨both.1, both.2.1, besideIh besideFlows⟩

/-!
## The root channel
-/

/-- Only the root channel has no parent. -/
def Rooted (channels : Channels) : Prop :=
  channels.names = [rootName]

theorem names_climb (channels : Channels) (own above : Channel → Option Channel) (path : Path) :
    (channels.climb own above path).1.names = channels.names := by
  induction channels generalizing path with
  | nil => rfl
  | cons name channel children siblings _ besideIh =>
      cases path with
      | nil => rfl
      | cons first rest =>
          rw [climb]
          split
          · split
            · cases own channel with
              | none => rfl
              | some changed => rfl
            · simp only
              split
              · cases above channel with
                | none => rfl
                | some changed => rfl
              · rfl
          · rw [names, names, besideIh]

/-- A channel is found below one of the first channels of the list. -/
theorem head_of_has {path : Path} (found : channels.has path = true) :
    ∃ name ∈ channels.names, path.head? = some name := by
  unfold has at found
  induction channels with
  | nil => exact absurd found Bool.false_ne_true
  | cons name channel children siblings _ besideIh =>
      cases path with
      | nil => exact absurd found Bool.false_ne_true
      | cons first rest =>
          rw [get?] at found
          by_cases named : name = first
          · exact ⟨name, List.mem_cons_self, named ▸ rfl⟩
          · rw [if_neg named] at found
            obtain ⟨other, member, head⟩ := besideIh found
            exact ⟨other, List.mem_cons_of_mem name member, head⟩

theorem Rooted.head_configuredParent (rooted : channels.Rooted) (parents : List Name) :
    (channels.configuredParent parents).head? = some rootName := by
  induction parents with
  | nil => rfl
  | cons last parents ih =>
      rw [configuredParent]
      split
      · rfl
      · split
        · rename_i found
          obtain ⟨name, member, head⟩ := head_of_has found
          rw [rooted, List.mem_singleton] at member
          exact member ▸ head
        · exact ih

theorem Rooted.ensure (rooted : channels.Rooted) {path : Path}
    (head : path.head? = some rootName) : (channels.ensure path).Rooted := by
  cases channels with
  | nil => exact (List.cons_ne_nil _ _ rooted.symm).elim
  | cons name channel children siblings =>
      cases path with
      | nil => exact rooted
      | cons first rest =>
          have named : name = first :=
            (List.cons.inj rooted).1.trans (Option.some_inj.mp head).symm
          rw [Channels.ensure, if_pos named]
          exact rooted

theorem Rooted.lookup (rooted : channels.Rooted) {channelName : Option Name}
    {autocreate parentFallback : Bool} {outcome : Path × Channels}
    (found : channels.getChannelByName channelName autocreate parentFallback = some outcome) :
    outcome.2.Rooted := by
  unfold getChannelByName at found
  cases channelName with
  | none =>
      cases found
      exact rooted
  | some channelName =>
      simp only at found
      split at found
      · cases found
        exact rooted
      · split at found
        · cases found
          exact rooted
        · split at found
          · exact (Option.some_ne_none _ found.symm).elim
          · cases found
            refine rooted.ensure ?_
            split
            · have head := rooted.head_configuredParent
                ((fullName channelName).splitOn '.').reverse
              rw [List.head?_append, head]
              rfl
            · rfl

end Channels

namespace ChannelManager

variable {manager : ChannelManager} {job : JobId}

theorem rooted_transition (rooted : manager.channels.Rooted) (state : Option JobState) :
    (manager.transition job state).channels.Rooted := by
  cases state with
  | none => exact (Channels.names_climb _ _ _ _).trans rooted
  | some state =>
      cases state with
      | waitDependencies => exact rooted
      | pending => exact (Channels.names_climb _ _ _ _).trans rooted
      | enqueued => exact (Channels.names_climb _ _ _ _).trans rooted
      | started => exact (Channels.names_climb _ _ _ _).trans rooted
      | done => exact (Channels.names_climb _ _ _ _).trans rooted
      | cancelled => exact (Channels.names_climb _ _ _ _).trans rooted
      | failed => exact (Channels.names_climb _ _ _ _).trans rooted

/-- Every event leaves the root channel alone at the top of the tree. -/
theorem rooted_step (sound : manager.Sound) (rooted : manager.channels.Rooted) (event : Event) :
    (manager.step event).channels.Rooted :=
  sound.tree_invariant rooted (fun _ rooted _ _ found => rooted.lookup found)
    (fun _ rooted _ state => rooted_transition rooted state)
    (fun now => (@Channels.getJobsToRun_delivered _ _ _ _ now sound.flows).names.trans rooted)
    ((Channels.getWakeupTime_cleaned sound.flows 0).names.trans rooted) event

variable {int : Name → Except Name Int} {configString : Name} {configured : ChannelManager}

theorem rooted_simpleConfigure
    (success : init.simpleConfigure int configString = .ok configured) :
    configured.channels.Rooted :=
  @simpleConfigure_invariant int (fun manager => manager.channels.Rooted) rfl
    (fun _ rooted _ _ found => rooted.lookup found)
    (fun _ rooted _ _ _ _ _ _ => (Channels.names_set _ _ _).trans rooted) _ _ success

theorem rooted_run (success : init.simpleConfigure int configString = .ok configured)
    (events : List Event) :
    (GuardedRun.run step configured events).Sound ∧
      (GuardedRun.run step configured events).channels.Rooted :=
  @GuardedRun.run_invariant ChannelManager Event step
    (fun manager => manager.Sound ∧ manager.channels.Rooted)
    (fun _ event ⟨sound, rooted⟩ => ⟨sound.step event, rooted_step sound rooted event⟩) _
    ⟨sound_simpleConfigure success, rooted_simpleConfigure success⟩ events

/-- The jobs are handed out in the order of the root queue, by priority, creation date
and sequence number, and no job that is still ready there sorts before one of them. -/
theorem handed_out_in_order (success : init.simpleConfigure int configString = .ok configured)
    (before : List Event) (now : Time) :
    let start := GuardedRun.run step configured before
    let outcome := start.getJobsToRun now
    outcome.2.Pairwise (fun job other =>
        start.jobs.sortingKeyIgnoringEta job ≤ start.jobs.sortingKeyIgnoringEta other) ∧
      ∀ root, outcome.1.channels.get? [rootName] = some root →
        ∀ job ∈ outcome.2, ∀ other ∈ root.queue.queue.objects,
          start.jobs.sortingKeyIgnoringEta job ≤ start.jobs.sortingKeyIgnoringEta other := by
  intro start outcome
  obtain ⟨sound, rooted⟩ := rooted_run success before
  change start.Sound at sound
  change start.channels.Rooted at rooted
  have flows := sound.flows
  change (start.channels.getJobsToRun now start.jobs).2.2.Pairwise _ ∧
    ∀ root, (start.channels.getJobsToRun now start.jobs).2.1.get? [rootName] = some root →
      ∀ job ∈ (start.channels.getJobsToRun now start.jobs).2.2, _
  cases tree : start.channels with
  | nil =>
      rw [tree] at rooted
      exact (List.cons_ne_nil _ _ rooted.symm).elim
  | cons name channel children siblings =>
      rw [tree] at rooted flows
      obtain ⟨rfl, alone⟩ := List.cons.inj rooted
      cases siblings with
      | cons _ _ _ _ => exact (List.cons_ne_nil _ _ alone).elim
      | nil =>
          cases flows with
          | cons sound _ _ _ below _ =>
              have delivered := @Channels.getJobsToRun_delivered _ _ _ _ now below
              obtain ⟨moved, store, _⟩ := delivered.store
              obtain ⟨_, advances⟩ := (channel.enqueue (children.getJobsToRun now start.jobs).1
                (children.getJobsToRun now start.jobs).2.2).dispatch_advances now
                  (children.getJobsToRun now start.jobs).1
              have extraction := advances.ready
              rw [store, Jobs.keys_cleared] at extraction
              simp only [Channels.getJobsToRun, List.append_nil, Channels.get?, if_true]
              rw [store]
              refine ⟨extraction.sorted, ?_⟩
              rintro root ⟨⟩ job member other stays
              exact extraction.taken_le_left member stays

theorem handed_out_in_order_two :
    let start := GuardedRun.run step init
      [.notify (rootJob "a" .pending), .notify (rootJob "b" .pending)]
    let outcome := start.getJobsToRun 5
    outcome.2.Pairwise (fun job other =>
        start.jobs.sortingKeyIgnoringEta job ≤ start.jobs.sortingKeyIgnoringEta other) ∧
      ∀ root, outcome.1.channels.get? [rootName] = some root →
        ∀ job ∈ outcome.2, ∀ other ∈ root.queue.queue.objects,
          start.jobs.sortingKeyIgnoringEta job ≤ start.jobs.sortingKeyIgnoringEta other :=
  @handed_out_in_order (fun text => .error text) [] init rfl _ 5

end ChannelManager

end WorkflowStudio.Queue
