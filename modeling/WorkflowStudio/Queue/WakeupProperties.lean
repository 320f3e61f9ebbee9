import WorkflowStudio.Queue.SchedulingProperties

/-! How long the runner may sleep: until the time that the channels ask for, nothing can
be handed out unless something is notified. -/

set_option autoImplicit false

namespace WorkflowStudio.Queue

open Lib PriorityQueue

namespace ChannelQueue

/-- Nothing can be taken from the queue at any of the early times. -/
def Sleeps (early : Time → Prop) (jobs : Jobs) (queue : ChannelQueue) : Prop :=
  (∀ job ∈ queue.etaQueue.objects, ∀ now, early now → now < (jobs job).eta.getD 0) ∧
    (queue.queue.objects = ∅ ∨ queue.Held jobs)

theorem Sleeps.exhausted {early : Time → Prop} {jobs : Jobs} {queue : ChannelQueue}
    (sleeps : queue.Sleeps early jobs) {now : Time} (isEarly : early now) :
    queue.Exhausted now jobs :=
  ⟨fun job member => sleeps.1 job member now isEarly, sleeps.2⟩

theorem Exhausted.ripe {now : Time} {jobs : Jobs} {queue : ChannelQueue}
    (exhausted : queue.Exhausted now jobs) : queue.ripe now jobs = ∅ := by
  refine Finset.eq_empty_of_forall_notMem fun job member => ?_
  obtain ⟨waits, past⟩ := mem_ripe.mp member
  exact not_le.mpr (exhausted.1 job waits) past

theorem Sleeps.congr {early : Time → Prop} {jobs : Jobs} {queue other : ChannelQueue}
    (sleeps : queue.Sleeps early jobs) (ready : other.queue.objects = queue.queue.objects)
    (waiting : other.etaQueue.objects = queue.etaQueue.objects)
    (sequential : other.sequential = queue.sequential) : other.Sleeps early jobs := by
  refine ⟨?_, ?_⟩
  · rw [waiting]
    exact sleeps.1
  · rw [ready]
    exact sleeps.2.imp_right fun held => held.congr ready waiting sequential

theorem Sleeps.cleared {early : Time → Prop} {jobs : Jobs} {queue : ChannelQueue}
    {moved : Finset JobId} (sleeps : queue.Sleeps early jobs)
    (elsewhere : ∀ job ∈ queue.etaQueue.objects, job ∉ moved) :
    queue.Sleeps early (jobs.cleared moved) := by
  refine ⟨fun job member now isEarly => ?_, sleeps.2.imp_right fun held => ?_⟩
  · rw [jobs.cleared_of_notMem moved (elsewhere job member)]
    exact sleeps.1 job member now isEarly
  · exact held.cleared elsewhere

end ChannelQueue

namespace Channel

/-- The channel pauses at every early time. -/
def Pauses (early : Time → Prop) (channel : Channel) : Prop :=
  channel.throttle ≠ 0 ∧ channel.pauseUntil ≠ 0 ∧ ∀ now, early now → now < channel.pauseUntil

variable {now : Time} {early : Time → Prop} {jobs : Jobs} {channel : Channel}

theorem Pauses.paused (pauses : channel.Pauses early) (isEarly : early now) :
    channel.paused now = true := by
  obtain ⟨throttled, pausing, later⟩ := pauses
  simp only [Channel.paused, Bool.and_eq_true, decide_eq_true_eq]
  exact ⟨⟨throttled, pausing⟩, later now isEarly⟩

/-- A full channel yields nothing, and stays full. -/
theorem dispatch_full (full : channel.hasCapacity = false) :
    (channel.dispatch now jobs).2.2 = [] ∧
      (channel.dispatch now jobs).2.1.hasCapacity = false := by
  unfold dispatch
  split
  · exact ⟨rfl, full⟩
  · have still : channel.unpause.hasCapacity = false := by
      rw [hasCapacity_congr _ (failed_unpause channel) (capacity_unpause channel), full]
      · rw [running_unpause]
      · rw [sequential, queue_unpause, sequential]
    rw [yieldJobs, still]
    exact ⟨rfl, still⟩

/-- A channel with nothing to take yields nothing, and has nothing to take after that. -/
theorem dispatch_sleeping (sleeps : channel.queue.Sleeps early jobs) (isEarly : early now) :
    (channel.dispatch now jobs).2.2 = [] ∧ (channel.dispatch now jobs).1 = jobs ∧
      (channel.dispatch now jobs).2.1.queue.Sleeps early jobs := by
  have exhausted := sleeps.exhausted isEarly
  unfold dispatch
  split
  · exact ⟨rfl, rfl, sleeps⟩
  · rw [yieldJobs]
    split
    · have popped := channel.queue.pop_popped now jobs
      rw [queue_unpause]
      generalize channel.queue.pop now jobs = outcome at popped ⊢
      obtain ⟨cleared, answer, queue⟩ := outcome
      have none := popped.asleep exhausted.ripe exhausted.2
      simp only at none
      subst none
      have store := popped.store
      have ready := (popped.idle rfl).1
      have waiting := popped.waiting
      rw [exhausted.ripe] at store ready waiting
      rw [Finset.union_empty] at ready
      rw [Finset.sdiff_empty] at waiting
      exact ⟨rfl, store, sleeps.congr ready waiting popped.sequential⟩
    · exact ⟨rfl, rfl, queue_unpause channel ▸ sleeps⟩

/-- Only a throttle makes the channel pause. -/
def Paced (channel : Channel) : Prop :=
  0 ≤ channel.throttle ∧ (channel.throttle = 0 → channel.pauseUntil = 0)

/-- The channel was changed, but not when it pauses. -/
def SamePace (channel changed : Channel) : Prop :=
  changed.throttle = channel.throttle ∧ changed.pauseUntil = channel.pauseUntil

theorem Paced.same {changed : Channel} (paced : channel.Paced)
    (same : channel.SamePace changed) : changed.Paced := by
  rw [Paced, same.1, same.2]
  exact paced

theorem Paced.unpause (paced : channel.Paced) : channel.unpause.pauseUntil = 0 := by
  unfold Channel.unpause
  split
  · rfl
  · rename_i active
    by_contra pausing
    exact active ⟨fun unthrottled => pausing (paced.2 unthrottled), pausing⟩

/-- A channel that has been asked for its jobs pauses for some time, if it pauses. -/
theorem Paced.dispatch (paced : channel.Paced) :
    (channel.dispatch now jobs).2.1.Paced ∧
      ((channel.dispatch now jobs).2.1.pauseUntil ≠ 0 →
        now < (channel.dispatch now jobs).2.1.pauseUntil) := by
  cases paused : channel.paused now with
  | true =>
      rw [dispatch_paused jobs paused]
      simp only [Channel.paused, Bool.and_eq_true, decide_eq_true_eq] at paused
      exact ⟨paced, fun _ => paused.2⟩
  | false =>
      obtain ⟨moved, yielded⟩ := dispatch_yielded jobs paused
      have throttle := yielded.throttle
      have pauseUntil := yielded.pauseUntil
      rw [paced.unpause] at pauseUntil
      rw [throttle_unpause] at throttle pauseUntil
      have unhurried := paced.1
      rw [Paced, throttle, pauseUntil]
      split
      · rename_i throttled
        have delay : 0 < 1000000 * channel.throttle := by
          have := throttled.1
          omega
        exact ⟨⟨unhurried, fun unthrottled => absurd unthrottled throttled.1⟩,
          fun _ => Int.lt_add_of_pos_right now delay⟩
      · exact ⟨⟨unhurried, fun _ => rfl⟩, fun pausing => absurd rfl pausing⟩

theorem samePace_setPending {changed : Channel} {job : JobId}
    (result : channel.setPending jobs job = some changed) : channel.SamePace changed := by
  unfold Channel.setPending at result
  split at result
  · exact (Option.some_ne_none _ result.symm).elim
  · cases result
    exact ⟨rfl, rfl⟩

theorem samePace_setRunning {changed : Channel} {job : JobId}
    (result : channel.setRunning job = some changed) : channel.SamePace changed := by
  unfold Channel.setRunning at result
  split at result
  · exact (Option.some_ne_none _ result.symm).elim
  · cases result
    exact ⟨rfl, rfl⟩

theorem samePace_setFailed {changed : Channel} {job : JobId}
    (result : channel.setFailed job = some changed) : channel.SamePace changed := by
  unfold Channel.setFailed at result
  split at result
  · exact (Option.some_ne_none _ result.symm).elim
  · cases result
    exact ⟨rfl, rfl⟩

theorem hasCapacity_enqueue (arrived : List JobId) :
    (channel.enqueue jobs arrived).hasCapacity = channel.hasCapacity := by
  refine hasCapacity_congr ?_ rfl rfl rfl
  unfold Channel.sequential enqueue
  simp only
  generalize channel.queue = queue
  induction arrived generalizing queue with
  | nil => rfl
  | cons first rest ih =>
      rw [List.foldl_cons, ih]
      unfold ChannelQueue.add
      split
      · rfl
      · rfl

end Channel

namespace Channels

/-- At every early time each channel of the list is full, pauses, or has nothing to take
and nothing to get from its children. -/
def Quiet (early : Time → Prop) (jobs : Jobs) : Channels → Prop
  | .nil => True
  | .cons _ channel children siblings =>
      (channel.hasCapacity = false ∨ channel.Pauses early ∨
        (channel.queue.Sleeps early jobs ∧ children.Quiet early jobs)) ∧
        siblings.Quiet early jobs

variable {now : Time} {early : Time → Prop} {jobs : Jobs} {parent : Path}
  {passed : JobId → Prop} {channels : Channels}

theorem Flows.quiet_cleared {moved : Finset JobId} (flows : Flows jobs parent passed channels)
    (quiet : channels.Quiet early jobs)
    (elsewhere : ∀ job ∈ moved, ¬ channels.Under jobs parent job) :
    channels.Quiet early (jobs.cleared moved) := by
  induction flows with
  | nil => trivial
  | cons sound running arrived distinct below beside belowIh besideIh =>
      refine ⟨?_, besideIh quiet.2 fun job member under => ?_⟩
      · refine quiet.1.imp_right fun rest => rest.imp_right fun ⟨sleeps, silent⟩ => ⟨?_, ?_⟩
        · refine sleeps.cleared fun job waits member => elsewhere job member ?_
          refine Under.cons.mpr (.inl ?_)
          rw [sound.etaOwn job (mem_known_of_mem waits)]
        · exact belowIh silent fun job member under =>
            elsewhere job member (Under.cons.mpr (.inl (within_of_under under)))
      · exact elsewhere job member (Under.cons.mpr (.inr under))

theorem quiet_channel {name : Name} {channel : Channel}
    {below : Jobs × Channels × List JobId} (isEarly : early now)
    (quiet : channel.hasCapacity = false ∨ channel.Pauses early ∨
      (channel.queue.Sleeps early below.1 ∧ below.2.2 = [] ∧ below.2.1.Quiet early below.1)) :
    ((channel.enqueue below.1 below.2.2).dispatch now below.1).2.2 = [] ∧
      Quiet early ((channel.enqueue below.1 below.2.2).dispatch now below.1).1
        (.cons name ((channel.enqueue below.1 below.2.2).dispatch now below.1).2.1 below.2.1
          .nil) := by
  rcases quiet with full | pauses | ⟨sleeps, none, silent⟩
  · have still := (@Channel.hasCapacity_enqueue below.1 channel below.2.2).trans full
    obtain ⟨nothing, after⟩ := @Channel.dispatch_full now below.1 _ still
    exact ⟨nothing, .inl after, trivial⟩
  · have pausing : (channel.enqueue below.1 below.2.2).Pauses early := pauses
    rw [Channel.dispatch_paused below.1 (pausing.paused isEarly)]
    exact ⟨rfl, .inr (.inl pausing), trivial⟩
  · rw [none]
    obtain ⟨nothing, store, after⟩ := Channel.dispatch_sleeping sleeps isEarly
    change (channel.dispatch now below.1).2.2 = [] ∧
      Quiet early (channel.dispatch now below.1).1
        (.cons name (channel.dispatch now below.1).2.1 below.2.1 .nil)
    rw [store]
    exact ⟨nothing, .inr (.inr ⟨after, silent⟩), trivial⟩

/-- Nothing is yielded while all is quiet, and it stays quiet. -/
theorem getJobsToRun_quiet (flows : Flows jobs parent passed channels)
    (quiet : channels.Quiet early jobs) (isEarly : early now) :
    (channels.getJobsToRun now jobs).2.2 = [] ∧
      (channels.getJobsToRun now jobs).2.1.Quiet early (channels.getJobsToRun now jobs).1 := by
  induction channels generalizing jobs parent passed with
  | nil => exact ⟨rfl, trivial⟩
  | cons name channel children siblings belowIh besideIh =>
      obtain ⟨single, distinct, beside⟩ := flows_cons_iff.mp flows
      cases flows with
      | cons sound _ _ _ below _ =>
          have delivered := @getJobsToRun_delivered _ _ _ _ now below
          have here := @delivered_channel _ _ _ now _ _ _ _ single delivered
          obtain ⟨cleared, store, clearedUnder⟩ := here.store
          have apart : ∀ job ∈ cleared, ¬ siblings.Under jobs parent job :=
            fun job member sibling => not_under_of_distinct distinct
              ((Under.cons.mp (clearedUnder job member)).resolve_right not_under_nil) sibling
          have besideFlows := beside.cleared apart
          have besideQuiet := beside.quiet_cleared quiet.2 apart
          simp only at store
          rw [← store] at besideFlows besideQuiet
          obtain ⟨noOther, othersQuiet⟩ := besideIh besideFlows besideQuiet
          obtain ⟨later, laterStore, laterUnder⟩ :=
            (@getJobsToRun_delivered _ _ _ _ now besideFlows).store
          have quietHere : channel.hasCapacity = false ∨ channel.Pauses early ∨
              (channel.queue.Sleeps early (children.getJobsToRun now jobs).1 ∧
                (children.getJobsToRun now jobs).2.2 = [] ∧
                (children.getJobsToRun now jobs).2.1.Quiet early
                  (children.getJobsToRun now jobs).1) := by
            refine quiet.1.imp_right fun rest => rest.imp_right fun ⟨sleeps, silent⟩ => ?_
            obtain ⟨moved, movedStore, movedUnder⟩ := delivered.store
            refine ⟨?_, belowIh below silent⟩
            rw [movedStore]
            refine sleeps.cleared fun job waits member => ?_
            exact not_under_of_own (sound.etaOwn job (mem_known_of_mem waits))
              (movedUnder job member)
          obtain ⟨nothing, silent⟩ := @quiet_channel _ _ name channel _ isEarly quietHere
          have both := here.flows.quiet_cleared silent fun job member under =>
            not_under_of_distinct distinct
              ((Under.cons.mp under).resolve_right not_under_nil) (laterUnder job member)
          rw [← laterStore] at both
          rw [getJobsToRun, nothing, noOther]
          exact ⟨rfl, both.1, othersQuiet⟩

/-!
## Asking for the wakeup time
-/

/-- The times before a wakeup time; nothing is asked for by a wakeup time of zero. -/
def Before (wakeup : Time) (now : Time) : Prop :=
  wakeup = 0 ∨ now < wakeup

/-- A channel that has just been asked for its jobs. It keeps none back, and pauses only
for a throttle. -/
structure Asked (now : Time) (jobs : Jobs) (channel : Channel) : Prop where
  unhurried : 0 ≤ channel.throttle
  served : channel.Served now jobs
  pauses : channel.pauseUntil ≠ 0 → channel.throttle ≠ 0 ∧ now < channel.pauseUntil
  etas : ∀ job ∈ channel.queue.etaQueue.objects, (jobs job).eta ≠ none

/-- An earlier of two wakeup times. -/
theorem before_min {wakeup own : Time} (real : own ≠ 0) (now : Time) :
    Before (if wakeup = 0 then own else min wakeup own) now ↔ Before wakeup now ∧ now < own := by
  unfold Before
  split
  · rename_i none
    simp [none, real]
  · rename_i some
    have least : min wakeup own ≠ 0 := by
      rcases min_choice wakeup own with same | same
      · rwa [same]
      · rwa [same]
    simp [some, least]

theorem eta_real {job : JobId} (set : (jobs job).eta ≠ none) : (jobs job).eta.getD 0 ≠ 0 := by
  have moment := (jobs job).moment
  cases eta : (jobs job).eta with
  | none => exact absurd eta set
  | some time =>
      rw [eta] at moment
      exact fun zero => moment (congrArg some zero)

/-- The wakeup time that a queue asks for is before all its etas. -/
theorem queue_getWakeupTime {queue : ChannelQueue} (exhausted : queue.Exhausted now jobs)
    (etas : ∀ job ∈ queue.etaQueue.objects, (jobs job).eta ≠ none) {wakeup : Time}
    (future : Before wakeup now) :
    (∀ time, Before (queue.getWakeupTime jobs wakeup).1 time → Before wakeup time) ∧
      Before (queue.getWakeupTime jobs wakeup).1 now ∧
      (queue.getWakeupTime jobs wakeup).2.Sleeps
        (Before (queue.getWakeupTime jobs wakeup).1) jobs := by
  obtain ⟨answer, looked, value⟩ := queue.getWakeupTime_looked jobs wakeup
  have congr : queue.Sleeps (Before (queue.getWakeupTime jobs wakeup).1) jobs →
      (queue.getWakeupTime jobs wakeup).2.Sleeps
        (Before (queue.getWakeupTime jobs wakeup).1) jobs := fun sleeps =>
    sleeps.congr (congrArg PriorityQueue.objects looked.ready) looked.objects looked.sequential
  cases answer with
  | none =>
      simp only at value
      rw [value] at congr ⊢
      refine ⟨fun _ => id, future, congr ⟨fun job member => ?_, exhausted.2⟩⟩
      rw [looked.nobody rfl] at member
      exact absurd member (Finset.notMem_empty job)
  | some first =>
      simp only at value
      have least := looked.least first rfl
      have sooner := @before_min wakeup _ (eta_real (etas first least.1))
      rw [← value] at sooner
      refine ⟨fun time before => ((sooner time).mp before).1,
        (sooner now).mpr ⟨future, exhausted.1 first least.1⟩, congr ⟨?_, exhausted.2⟩⟩
      intro job member time before
      exact ((sooner time).mp before).2.trans_le
        (Jobs.eta_le_of_sortingKey_le (least.2 job member))

/-- Quiet for more times is quiet for fewer. -/
theorem Quiet.sooner {later : Time → Prop} (quiet : channels.Quiet later jobs)
    (fewer : ∀ time, early time → later time) : channels.Quiet early jobs := by
  induction channels with
  | nil => trivial
  | cons name channel children siblings belowIh besideIh =>
      refine ⟨?_, besideIh quiet.2⟩
      rcases quiet.1 with full | ⟨throttled, pausing, lasts⟩ | ⟨⟨etas, ready⟩, silent⟩
      · exact .inl full
      · exact .inr (.inl ⟨throttled, pausing, fun time before => lasts time (fewer time before)⟩)
      · refine .inr (.inr ⟨⟨fun job member time before => ?_, ready⟩, belowIh silent⟩)
        exact etas job member time (fewer time before)

/-- Before the wakeup time that the channels ask for they are quiet; and that time is
not over yet. -/
theorem getWakeupTime_quiet (asked : channels.All (Asked now jobs)) (started : 0 ≤ now)
    (wakeup : Time) (future : Before wakeup now) :
    (∀ time, Before (channels.getWakeupTime jobs wakeup).1 time → Before wakeup time) ∧
      Before (channels.getWakeupTime jobs wakeup).1 now ∧
      (channels.getWakeupTime jobs wakeup).2.Quiet
        (Before (channels.getWakeupTime jobs wakeup).1) jobs := by
  induction channels generalizing wakeup with
  | nil => exact ⟨fun _ => id, future, trivial⟩
  | cons name channel children siblings belowIh besideIh =>
      obtain ⟨here, below, beside⟩ := asked
      rw [getWakeupTime]
      split
      · rename_i free
        split
        · rename_i pausing
          obtain ⟨throttled, later⟩ := here.pauses pausing
          have sooner := @before_min wakeup channel.pauseUntil pausing
          obtain ⟨earlier, still, silent⟩ := besideIh beside _ ((sooner now).mpr ⟨future, later⟩)
          refine ⟨fun time before => ((sooner time).mp (earlier time before)).1, still, ?_, silent⟩
          exact .inr (.inl ⟨throttled, pausing, fun time before =>
            ((sooner time).mp (earlier time before)).2⟩)
        · rename_i unpaused
          rw [not_not] at unpaused
          have exhausted : channel.queue.Exhausted now jobs := by
            rcases here.served here.unhurried with full | pausing | exhausted
            · exact absurd (free.symm.trans full) (by decide)
            · rw [unpaused] at pausing
              exact absurd pausing (not_lt.mpr started)
            · exact exhausted
          obtain ⟨ownEarlier, ownStill, sleeps⟩ :=
            queue_getWakeupTime exhausted here.etas future
          obtain ⟨belowEarlier, belowStill, silent⟩ := belowIh below _ ownStill
          obtain ⟨earlier, still, others⟩ := besideIh beside _ belowStill
          refine ⟨fun time before => ownEarlier time (belowEarlier time (earlier time before)),
            still, .inr (.inr ⟨⟨fun job member time before => ?_, sleeps.2⟩, ?_⟩), others⟩
          · exact sleeps.1 job member time (belowEarlier time (earlier time before))
          · exact silent.sooner earlier
      · rename_i full
        obtain ⟨earlier, still, silent⟩ := besideIh beside wakeup future
        exact ⟨earlier, still, .inl (Bool.not_eq_true _ ▸ full), silent⟩

/-- A queue that is asked for its wakeup time has the same jobs after that. -/
theorem getWakeupTime_stays (quiet : channels.Quiet early jobs) (wakeup : Time) :
    (channels.getWakeupTime jobs wakeup).2.Quiet early jobs := by
  induction channels generalizing wakeup with
  | nil => trivial
  | cons name channel children siblings belowIh besideIh =>
      rw [getWakeupTime]
      split
      · split
        · exact ⟨quiet.1, besideIh quiet.2 _⟩
        · obtain ⟨_, looked, _⟩ := channel.queue.getWakeupTime_looked jobs wakeup
          have same : Channel.hasCapacity
              { channel with queue := (channel.queue.getWakeupTime jobs wakeup).2 } =
                channel.hasCapacity := Channel.hasCapacity_congr looked.sequential rfl rfl rfl
          refine ⟨?_, besideIh quiet.2 _⟩
          rw [same]
          refine quiet.1.imp_right fun rest => rest.imp_right fun still => ⟨?_, ?_⟩
          · exact still.1.congr (congrArg PriorityQueue.objects looked.ready) looked.objects
              looked.sequential
          · exact belowIh still.2 _
      · exact ⟨quiet.1, besideIh quiet.2 _⟩

theorem Flows.all_etas (flows : Flows jobs parent passed channels) :
    channels.All fun channel => ∀ job ∈ channel.queue.etaQueue.objects, (jobs job).eta ≠ none := by
  induction flows with
  | nil => trivial
  | cons sound _ _ _ _ _ belowIh besideIh =>
      exact ⟨fun job member => sound.keyed.etaSet job (mem_known_of_mem member), belowIh,
        besideIh⟩

theorem All.and {first second : Channel → Prop} (all : channels.All first)
    (also : channels.All second) : channels.All fun channel => first channel ∧ second channel := by
  induction channels with
  | nil => trivial
  | cons name channel children siblings belowIh besideIh =>
      exact ⟨⟨all.1, also.1⟩, belowIh all.2.1 also.2.1, besideIh all.2.2 also.2.2⟩

theorem All.imp {first second : Channel → Prop} (all : channels.All first)
    (weaker : ∀ channel, first channel → second channel) : channels.All second := by
  induction channels with
  | nil => trivial
  | cons name channel children siblings belowIh besideIh =>
      exact ⟨weaker channel all.1, belowIh all.2.1, besideIh all.2.2⟩

/-- Channels that have been asked for their jobs. -/
theorem getJobsToRun_asked (flows : Flows jobs parent passed channels)
    (paced : channels.All Channel.Paced) :
    (channels.getJobsToRun now jobs).2.1.All (Asked now (channels.getJobsToRun now jobs).1) := by
  have delivered := @getJobsToRun_delivered _ _ _ _ now flows
  have etas := delivered.flows.all_etas
  have served := @getJobsToRun_served now _ _ _ _ flows
  have pausing : (channels.getJobsToRun now jobs).2.1.All fun channel =>
      channel.Paced ∧ (channel.pauseUntil ≠ 0 → now < channel.pauseUntil) :=
    All.getJobsToRun paced fun jobs arrived channel paced => Channel.Paced.dispatch
      (paced.same ⟨rfl, rfl⟩ : (channel.enqueue jobs arrived).Paced)
  refine ((pausing.and served).and etas).imp fun channel ⟨⟨⟨paced, later⟩, served⟩, etas⟩ => ?_
  exact
    { unhurried := paced.1
      served
      pauses := fun pausing => ⟨fun unthrottled => pausing (paced.2 unthrottled), later pausing⟩
      etas }

theorem All.paced_climb {own above : Channel → Option Channel}
    (paced : channels.All Channel.Paced) (path : Path)
    (atOwn : ∀ channel changed, own channel = some changed → channel.SamePace changed)
    (atAbove : ∀ channel changed, above channel = some changed → channel.SamePace changed) :
    (channels.climb own above path).1.All Channel.Paced :=
  All.climb paced (along_true channels path)
    (fun channel changed paced _ result => paced.same (atOwn channel changed result))
    fun channel changed paced _ result => paced.same (atAbove channel changed result)

end Channels

namespace ChannelManager

variable {manager : ChannelManager}

theorem paced_transition (paced : manager.channels.All Channel.Paced) (job : JobId)
    (state : Option JobState) : (manager.transition job state).channels.All Channel.Paced := by
  have dropped : ∀ channel changed : Channel, some (channel.drop job) = some changed →
      channel.SamePace changed := by
    rintro channel _ ⟨⟩
    exact ⟨rfl, rfl⟩
  have starts : ∀ channel changed : Channel, channel.setRunning job = some changed →
      channel.SamePace changed := fun _ _ => Channel.samePace_setRunning
  cases state with
  | none => exact paced.paced_climb _ dropped dropped
  | some state =>
      cases state with
      | waitDependencies => exact paced
      | pending => exact paced.paced_climb _ (fun _ _ => Channel.samePace_setPending) dropped
      | enqueued => exact paced.paced_climb _ starts starts
      | started => exact paced.paced_climb _ starts starts
      | done => exact paced.paced_climb _ dropped dropped
      | cancelled => exact paced.paced_climb _ dropped dropped
      | failed => exact paced.paced_climb _ (fun _ _ => Channel.samePace_setFailed) dropped

theorem paced_step (sound : manager.Sound) (paced : manager.channels.All Channel.Paced)
    (event : Event) : (manager.step event).channels.All Channel.Paced := by
  refine sound.tree_invariant paced (fun channels paced name outcome found => ?_)
    (fun _ paced job state => paced_transition paced job state) (fun now => ?_) ?_ event
  · obtain ⟨path, created⟩ := getChannelByName_channels found
    rw [created]
    exact paced.ensure ⟨le_rfl, fun _ => rfl⟩ path
  · exact Channels.All.getJobsToRun paced fun jobs arrived channel paced =>
      (Channel.Paced.dispatch
        (paced.same ⟨rfl, rfl⟩ : (channel.enqueue jobs arrived).Paced)).1
  · exact Channels.All.getWakeupTime paced fun _ _ paced => paced.same ⟨rfl, rfl⟩

/-- The runner looks whether it should do something, at a time before the wakeup time. -/
def Looks (wakeup : Time) : Event → Prop
  | .getJobsToRun now => Channels.Before wakeup now
  | .getWakeupTime => True
  | _ => False

theorem quiet_run {wakeup : Time} (sound : manager.Sound)
    (quiet : manager.channels.Quiet (Channels.Before wakeup) manager.jobs) {events : List Event}
    (looks : ∀ event ∈ events, Looks wakeup event) :
    (GuardedRun.run step manager events).Sound ∧
      (GuardedRun.run step manager events).channels.Quiet (Channels.Before wakeup)
        (GuardedRun.run step manager events).jobs := by
  induction events generalizing manager with
  | nil => exact ⟨sound, quiet⟩
  | cons event rest ih =>
      have later : ∀ event ∈ rest, Looks wakeup event := fun event member =>
        looks event (List.mem_cons_of_mem _ member)
      have here := looks event List.mem_cons_self
      cases event with
      | notify data => exact here.elim
      | removeJob uuid => exact here.elim
      | removeDb dbName => exact here.elim
      | getJobsToRun now =>
          exact ih (sound.getJobsToRun now)
            (Channels.getJobsToRun_quiet sound.flows quiet here).2 later
      | getWakeupTime => exact ih sound.getWakeupTime (Channels.getWakeupTime_stays quiet 0) later

variable {int : Name → Except Name Int} {configString : Name} {configured : ChannelManager}

/-- No channel pauses before jobs are handed out. -/
theorem active_simpleConfigure
    (success : init.simpleConfigure int configString = .ok configured) :
    configured.channels.All fun channel => channel.pauseUntil = 0 := by
  refine @simpleConfigure_invariant int
    (fun manager => manager.channels.All fun channel => channel.pauseUntil = 0)
    ⟨rfl, trivial, trivial⟩ (fun manager active name outcome found => ?_)
    (fun manager active path channel changed config found result => ?_) _ _ success
  · obtain ⟨path, created⟩ := getChannelByName_channels found
    rw [created]
    exact active.ensure rfl path
  · refine active.set ?_ path
    have here := active.get found
    unfold Channel.configure at result
    split at result
    · cases result
    · split at result
      · cases result
      · cases result
        exact here

/-- Once the jobs are handed out, the wakeup time is still to come, and until then there
is nothing to hand out, however often the runner looks, as long as nothing is notified or
removed. -/
theorem sleeps_until_wakeup (success : init.simpleConfigure int configString = .ok configured)
    (unhurried : configured.channels.All fun channel => 0 ≤ channel.throttle)
    (before : List Event) (now : Time) (started : 0 ≤ now) :
    let asked := ((GuardedRun.run step configured before).getJobsToRun now).1.getWakeupTime
    (asked.1 = 0 ∨ now < asked.1) ∧
      ∀ looks : List Event, (∀ event ∈ looks, Looks asked.1 event) → ∀ time,
        (asked.1 = 0 ∨ time < asked.1) →
          ((GuardedRun.run step asked.2 looks).getJobsToRun time).2 = [] := by
  have paced : configured.channels.All Channel.Paced :=
    (unhurried.and (active_simpleConfigure success)).imp fun channel ⟨positive, active⟩ =>
      ⟨positive, fun _ => active⟩
  obtain ⟨sound, pacedBefore⟩ := @GuardedRun.run_invariant ChannelManager Event step
    (fun manager => manager.Sound ∧ manager.channels.All Channel.Paced)
    (fun _ event ⟨sound, paced⟩ => ⟨sound.step event, paced_step sound paced event⟩) _
    ⟨sound_simpleConfigure success, paced⟩ before
  have handed := sound.getJobsToRun now
  have allAsked := @Channels.getJobsToRun_asked now _ _ _ _ sound.flows pacedBefore
  intro asked
  obtain ⟨_, future, quiet⟩ := Channels.getWakeupTime_quiet allAsked started 0 (.inl rfl)
  refine ⟨future, fun looks early time isEarly => ?_⟩
  obtain ⟨soundLater, quietLater⟩ := quiet_run handed.getWakeupTime quiet early
  exact (Channels.getJobsToRun_quiet soundLater.flows quietLater isEarly).1

theorem sleeps_until_wakeup_pending :
    let asked := ((GuardedRun.run step init [.notify (rootJob "a" .pending)]).getJobsToRun
      5).1.getWakeupTime
    (asked.1 = 0 ∨ 5 < asked.1) ∧
      ∀ looks : List Event, (∀ event ∈ looks, Looks asked.1 event) → ∀ time,
        (asked.1 = 0 ∨ time < asked.1) →
          ((GuardedRun.run step asked.2 looks).getJobsToRun time).2 = [] :=
  @sleeps_until_wakeup (fun text => .error text) [] init rfl ⟨le_rfl, trivial, trivial⟩ _ 5
    (by decide)

end ChannelManager

end WorkflowStudio.Queue
