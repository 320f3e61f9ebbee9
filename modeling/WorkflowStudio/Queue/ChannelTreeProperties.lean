import WorkflowStudio.Queue.ChannelManager
import WorkflowStudio.Queue.NotificationProperties

/-! What the channel manager does to the whole tree of channels: it creates and
configures channels, has them yield their jobs, and asks them when to wake up. -/

set_option autoImplicit false

namespace WorkflowStudio.Queue

open Lib PriorityQueue

namespace Channels

variable {jobs : Jobs} {parent : Path} {passed : JobId → Prop} {channels : Channels}
  {job : JobId}

/-!
## New channels and their configuration
-/

theorem sound_new (jobs : Jobs) (path : Path) : Channel.Sound jobs path {} := by
  refine ⟨⟨fun job absent => ?_, fun job absent => ?_⟩, fun job absent => ?_, ?_,
    fun job absent => ?_, fun job absent => ?_, fun job absent => ?_⟩
  · exact absurd absent (Finset.notMem_empty job)
  · exact absurd absent (Finset.notMem_empty job)
  · exact absurd absent (Finset.notMem_empty job)
  · rintro job ((absent | absent) | absent)
    · exact absurd absent (Finset.notMem_empty job)
    · exact absurd absent (Finset.notMem_empty job)
    · exact absurd absent (Finset.notMem_empty job)
  · exact absurd absent (Finset.notMem_empty job)
  · exact absurd absent (Finset.notMem_empty job)
  · exact absurd absent (Finset.notMem_empty job)

theorem not_has_new (job : JobId) : ¬ Channel.Has {} job := by
  rintro (absent | absent)
  · exact Finset.notMem_empty job absent
  · exact Finset.notMem_empty job absent

theorem flows_fresh (path : Path) (none : ∀ job, passed job → (jobs job).channel = parent) :
    Flows jobs parent passed (fresh path) := by
  induction path generalizing parent passed with
  | nil => exact .nil
  | cons name rest ih =>
      refine .cons (sound_new jobs _) (fun job within => ?_)
        (fun job has => absurd has (not_has_new job)) List.not_mem_nil
        (ih fun job has => absurd has (not_has_new job)) .nil
      refine iff_of_false (Finset.notMem_empty job) fun has => ?_
      rw [none job has] at within
      have long := within.length_le
      rw [List.length_append, List.length_singleton] at long
      omega

theorem mem_names_ensure (path : Path) (name : Name) :
    name ∈ (channels.ensure path).names ↔ name ∈ channels.names ∨ path.head? = some name := by
  induction channels with
  | nil =>
      cases path with
      | nil => simp [ensure, fresh, names]
      | cons first rest => simp [ensure, fresh, names, eq_comm]
  | cons other channel children siblings _ besideIh =>
      cases path with
      | nil => simp [ensure]
      | cons first rest =>
          by_cases named : other = first
          · subst named
            rw [ensure, if_pos rfl, names, names, List.mem_cons]
            simp only [List.head?_cons, Option.some_inj]
            tauto
          · rw [ensure, if_neg named, names, names, List.mem_cons, List.mem_cons, besideIh,
              or_assoc]

theorem Under.ensure (under : channels.Under jobs parent job) (path : Path) :
    (channels.ensure path).Under jobs parent job := by
  obtain ⟨name, member, within⟩ := under
  exact ⟨name, (mem_names_ensure path name).mpr (.inl member), within⟩

/-- New channels on the way to a path have no jobs, and none is due to arrive there. -/
theorem Flows.ensure (flows : Flows jobs parent passed channels)
    (placed : ∀ job, passed job → (jobs job).channel = parent ∨ channels.Under jobs parent job)
    (path : Path) : Flows jobs parent passed (channels.ensure path) := by
  induction channels generalizing parent passed path with
  | nil => exact flows_fresh path fun job has => (placed job has).resolve_right not_under_nil
  | cons name channel children siblings belowIh besideIh =>
      cases path with
      | nil => exact flows
      | cons first rest =>
          cases flows with
          | cons sound running arrived distinct below beside =>
              rw [Channels.ensure]
              by_cases named : name = first
              · rw [if_pos named]
                refine .cons sound running (fun job has => ?_) distinct
                  (belowIh below arrived rest) beside
                exact (arrived job has).imp_right fun under => under.ensure rest
              · rw [if_neg named]
                have apart : name ∉ (siblings.ensure (first :: rest)).names := by
                  rw [mem_names_ensure, List.head?_cons, Option.some_inj]
                  rintro (member | same)
                  · exact distinct member
                  · exact named same.symm
                refine .cons sound running arrived apart below ?_
                -- the jobs below the first channel are not placed among the others
                have elsewhere : ∀ job, passed job ∧ ¬ parent ++ [name] <+: (jobs job).channel →
                    (jobs job).channel = parent ∨ siblings.Under jobs parent job := by
                  rintro job ⟨has, outside⟩
                  exact (placed job has).imp_right fun under =>
                    (Under.cons.mp under).resolve_left outside
                have among : Flows jobs parent
                    (fun job => passed job ∧ ¬ parent ++ [name] <+: (jobs job).channel)
                    siblings := beside.congr_passed fun job under =>
                  (and_iff_left fun within => not_under_of_distinct distinct within under).symm
                refine (besideIh among elsewhere (first :: rest)).congr_passed fun job under => ?_
                exact and_iff_left fun within => not_under_of_distinct apart within under

theorem holds_fresh (path : Path) : ¬ (fresh path).Holds job := by
  induction path with
  | nil => exact id
  | cons name rest ih =>
      rintro ((has | failed) | below | beside)
      · exact not_has_new job has
      · exact Finset.notMem_empty job failed
      · exact ih below
      · exact beside.elim

theorem references_fresh (path : Path) : (fresh path).references job = false := by
  induction path with
  | nil => rfl
  | cons name rest ih =>
      rw [fresh, references, ih]
      rfl

/-- The new channels hold no jobs. -/
theorem ensure_same (channels : Channels) (path : Path) (job : JobId) :
    ((channels.ensure path).Holds job ↔ channels.Holds job) ∧
      ((channels.ensure path).Runs job ↔ channels.Runs job) ∧
      (channels.ensure path).references job = channels.references job := by
  induction channels generalizing path with
  | nil =>
      refine ⟨iff_of_false (holds_fresh path) id, iff_of_false (fun runs => ?_) id,
        references_fresh path⟩
      exact holds_fresh path (holds_of_runs runs)
  | cons name channel children siblings belowIh besideIh =>
      cases path with
      | nil => exact ⟨Iff.rfl, Iff.rfl, rfl⟩
      | cons first rest =>
          by_cases named : name = first
          · obtain ⟨holds, _, known⟩ := belowIh rest
            rw [ensure, if_pos named, Holds, Holds, Runs, Runs, references, references, holds,
              known]
            exact ⟨Iff.rfl, Iff.rfl, rfl⟩
          · obtain ⟨holds, runs, known⟩ := besideIh (first :: rest)
            rw [ensure, if_neg named, Holds, Holds, Runs, Runs, references, references, holds,
              runs, known]
            exact ⟨Iff.rfl, Iff.rfl, rfl⟩

/-- The channel was configured anew, with the jobs that it had. -/
def SameJobs (before after : Channel) : Prop :=
  after.queue.queue = before.queue.queue ∧ after.queue.etaQueue = before.queue.etaQueue ∧
    after.running = before.running ∧ after.failed = before.failed

theorem SameJobs.has {before after : Channel} (same : SameJobs before after) :
    after.Has = before.Has := by
  obtain ⟨queue, etaQueue, running, _⟩ := same
  funext job
  unfold Channel.Has ChannelQueue.objects
  rw [queue, etaQueue, running]

theorem SameJobs.sound {before after : Channel} {path : Path} (same : SameJobs before after)
    (sound : before.Sound jobs path) : after.Sound jobs path := by
  have has := same.has
  obtain ⟨queue, etaQueue, running, failed⟩ := same
  have objects : after.queue.objects = before.queue.objects := by
    unfold ChannelQueue.objects
    rw [queue, etaQueue]
  refine ⟨⟨?_, ?_⟩, ?_, ?_, ?_, ?_, ?_⟩
  · exact etaQueue ▸ sound.keyed.etaSet
  · exact queue ▸ sound.keyed.etaUnset
  · exact etaQueue ▸ sound.etaOwn
  · unfold Channel.Holds
    rw [has, failed]
    exact sound.within
  · exact failed ▸ sound.failedOwn
  · rw [running, objects]
    exact sound.runningApart
  · rw [failed, has]
    exact sound.failedApart

theorem names_set (channels : Channels) (path : Path) (changed : Channel) :
    (channels.set path changed).names = channels.names := by
  induction channels generalizing path with
  | nil => rfl
  | cons name channel children siblings _ besideIh =>
      cases path with
      | nil => rfl
      | cons first rest =>
          rw [Channels.set]
          split
          · split
            · rfl
            · rfl
          · rw [names, names, besideIh]

theorem Flows.set {path : Path} {channel changed : Channel}
    (flows : Flows jobs parent passed channels) (found : channels.get? path = some channel)
    (same : SameJobs channel changed) : Flows jobs parent passed (channels.set path changed) := by
  induction flows generalizing path with
  | nil => exact .nil
  | @cons parent passed name here children siblings sound running arrived distinct below
      beside belowIh besideIh =>
      cases path with
      | nil => exact .cons sound running arrived distinct below beside
      | cons first rest =>
          rw [get?] at found
          rw [Channels.set]
          by_cases named : name = first
          · rw [if_pos named] at found ⊢
            by_cases last : rest = []
            · rw [if_pos last] at found ⊢
              cases found
              have has := same.has
              refine .cons (same.sound sound) ?_ (has ▸ arrived) distinct (has ▸ below) beside
              exact same.2.2.1 ▸ running
            · rw [if_neg last] at found ⊢
              refine .cons sound running (fun job has => ?_) distinct (belowIh found) beside
              exact (arrived job has).imp_right (under_congr (names_set children _ _) job).mpr
          · rw [if_neg named] at found ⊢
            exact .cons sound running arrived (names_set siblings _ _ ▸ distinct) below
              (besideIh found)

theorem set_same {path : Path} {channel changed : Channel}
    (found : channels.get? path = some channel) (same : SameJobs channel changed) (job : JobId) :
    ((channels.set path changed).Holds job ↔ channels.Holds job) ∧
      (channels.set path changed).references job = channels.references job := by
  induction channels generalizing path with
  | nil => exact ⟨Iff.rfl, rfl⟩
  | cons name here children siblings belowIh besideIh =>
      cases path with
      | nil => exact ⟨Iff.rfl, rfl⟩
      | cons first rest =>
          rw [get?] at found
          rw [Channels.set]
          by_cases named : name = first
          · rw [if_pos named] at found ⊢
            by_cases last : rest = []
            · rw [if_pos last] at found ⊢
              cases found
              have has := same.has
              obtain ⟨queue, etaQueue, running, failed⟩ := same
              rw [Holds, Holds, references, references, Channel.Holds, Channel.Holds, has, failed,
                Channel.references, Channel.references, queue, etaQueue, running, failed]
              exact ⟨Iff.rfl, rfl⟩
            · rw [if_neg last] at found ⊢
              obtain ⟨holds, known⟩ := belowIh found
              rw [Holds, Holds, references, references, holds, known]
              exact ⟨Iff.rfl, rfl⟩
          · rw [if_neg named] at found ⊢
            obtain ⟨holds, known⟩ := besideIh found
            rw [Holds, Holds, references, references, holds, known]
            exact ⟨Iff.rfl, rfl⟩

/-- The store does not matter where no channel has a job. -/
theorem Flows.runs (flows : Flows jobs parent passed channels) :
    Flows jobs parent channels.Runs channels :=
  flows.congr_passed fun _ under => flows.passed_iff_runs under

/-!
## Yielding and waking up
-/

end Channels

/-- The wakeup time asked of a queue: the eta of its first job with one, unless an
earlier time is asked for already. -/
theorem ChannelQueue.getWakeupTime_looked (jobs : Jobs) (wakeup : Time) (queue : ChannelQueue) :
    ∃ answer, Looked jobs queue answer (queue.getWakeupTime jobs wakeup).2 ∧
      (queue.getWakeupTime jobs wakeup).1 =
        match answer with
        | none => wakeup
        | some first =>
            if wakeup = 0 then (jobs first).eta.getD 0 else min wakeup ((jobs first).eta.getD 0) := by
  have looked := queue.firstEta_looked jobs
  unfold getWakeupTime
  generalize queue.firstEta jobs = outcome at looked ⊢
  obtain ⟨answer, after⟩ := outcome
  refine ⟨answer, ?_⟩
  cases answer with
  | none => exact ⟨looked, rfl⟩
  | some first =>
      simp only
      split
      · exact ⟨looked, rfl⟩
      · exact ⟨looked, rfl⟩

/-- A queue that was only looked at has the same jobs. -/
theorem Channel.looked_same {jobs : Jobs} {path : Path} {channel : Channel}
    {queue : ChannelQueue} {answer : Option JobId}
    (looked : ChannelQueue.Looked jobs channel.queue answer queue)
    (sound : channel.Sound jobs path) :
    let after : Channel := { channel with queue }
    after.Sound jobs path ∧ after.Has = channel.Has ∧
      ∀ job, after.references job = true → channel.references job = true := by
  have objects : queue.objects = channel.queue.objects := by
    unfold ChannelQueue.objects
    rw [looked.ready, looked.objects]
  have has : ∀ after : Channel, after.queue = queue → after.running = channel.running →
      after.Has = channel.Has := fun after sameQueue sameRunning => by
    funext job
    rw [Channel.Has, Channel.Has, sameQueue, sameRunning, objects]
  intro after
  have same := has after rfl rfl
  refine ⟨⟨⟨?_, ?_⟩, ?_, ?_, sound.failedOwn, ?_, ?_⟩, same, fun job known => ?_⟩
  · exact fun job member => sound.keyed.etaSet job (looked.known member)
  · exact fun job member => sound.keyed.etaUnset job (looked.ready ▸ member)
  · exact fun job member => sound.etaOwn job (looked.known member)
  · intro job holds
    refine sound.within job ?_
    unfold Channel.Holds at holds ⊢
    rw [← same]
    exact holds
  · intro job running queued
    exact sound.runningApart job running (objects ▸ queued)
  · intro job failed present
    exact sound.failedApart job failed (same ▸ present)
  · rw [Channel.references_iff] at known ⊢
    rcases known with ready | waits | others
    · exact .inl (looked.ready ▸ ready)
    · exact .inr (.inl (looked.known waits))
    · exact .inr (.inr others)

/-- A channel that yields jobs has no jobs but its own and those that arrived. -/
theorem Channel.dispatch_parts {now : Time} {jobs : Jobs} {path : Path} {channel : Channel}
    {arrived : List JobId} (sound : channel.Sound jobs path)
    (unset : ∀ job ∈ arrived, (jobs job).eta = none) (job : JobId) :
    let outcome := (channel.enqueue jobs arrived).dispatch now jobs
    (outcome.2.1.references job = true → channel.references job = true ∨ job ∈ arrived) ∧
      (outcome.2.1.Holds job → channel.Holds job ∨ job ∈ arrived) ∧
      (job ∈ outcome.2.2 → channel.Holds job ∨ job ∈ arrived) := by
  obtain ⟨objects, etaQueue, _, known⟩ := @Channel.queue_enqueue _ channel arrived unset
  have keyed := Channel.keyed_enqueue sound.keyed arrived
  obtain ⟨moved, advances⟩ := (channel.enqueue jobs arrived).dispatch_advances now jobs
  intro outcome
  change Channel.Advances now jobs (channel.enqueue jobs arrived) moved outcome at advances
  generalize outcome = outcome at advances ⊢
  have ripe : job ∈ moved → job ∈ channel.queue.etaQueue.known := fun member => by
    have waits := (ChannelQueue.mem_ripe.mp (advances.moved_ripe member)).1
    exact etaQueue ▸ mem_known_of_mem waits
  have yielded := @Channel.Advances.mem_queue_of_yielded _ _ _ _ _ advances job
  have queued : job ∈ channel.queue.objects → channel.references job = true := fun member =>
    Channel.references_of_holds (.inl (.inl member))
  refine ⟨fun referenced => ?_, fun holds => ?_, fun member => ?_⟩
  · rw [Channel.references_iff, advances.running, advances.failed, Finset.mem_union,
      List.mem_toFinset] at referenced
    rcases referenced with ready | waits | (running | handed) | failed
    · rcases Finset.mem_union.mp (advances.known ready) with ready | member
      · exact ((known job).mp ready).imp_left fun here => Channel.references_iff.mpr (.inl here)
      · exact .inl (Channel.references_iff.mpr (.inr (.inl (ripe member))))
    · have here := (Finset.mem_sdiff.mp (advances.etaKnown waits)).1
      exact .inl (Channel.references_iff.mpr (.inr (.inl (etaQueue ▸ here))))
    · exact .inl (Channel.references_iff.mpr (.inr (.inr (.inl running))))
    · exact ((objects job).mp (yielded handed)).imp_left queued
    · exact .inl (Channel.references_iff.mpr (.inr (.inr (.inr failed))))
  · rcases holds with has | failed
    · rcases (advances.has keyed job).mp has with here | running
      · exact ((objects job).mp here).imp_left fun member => .inl (.inl member)
      · exact .inl (.inl (.inr running))
    · exact .inl (.inr (advances.failed ▸ failed))
  · exact ((objects job).mp (yielded member)).imp_left fun here => .inl (.inl here)

namespace Channels

variable {jobs : Jobs} {parent : Path} {passed : JobId → Prop} {channels : Channels}
  {job : JobId} {now : Time}

/-- Yielding the jobs adds no job to the tree. -/
theorem getJobsToRun_parts (flows : Flows jobs parent passed channels) (job : JobId) :
    ((channels.getJobsToRun now jobs).2.1.references job = true →
        channels.references job = true) ∧
      ((channels.getJobsToRun now jobs).2.1.Holds job → channels.Holds job) ∧
      (job ∈ (channels.getJobsToRun now jobs).2.2 → channels.Holds job) := by
  induction channels generalizing jobs parent passed with
  | nil => exact ⟨id, id, fun absent => absurd absent List.not_mem_nil⟩
  | cons name channel children siblings belowIh besideIh =>
      obtain ⟨single, distinct, beside⟩ := flows_cons_iff.mp flows
      cases flows with
      | cons sound _ _ _ below _ =>
          obtain ⟨belowKnown, belowHolds, belowOut⟩ := belowIh below
          have delivered := @getJobsToRun_delivered _ _ _ _ now below
          have here := @delivered_channel _ _ _ now _ _ _ _ single delivered
          have besideFlows : Flows ((channel.enqueue (children.getJobsToRun now jobs).1
              (children.getJobsToRun now jobs).2.2).dispatch now
                (children.getJobsToRun now jobs).1).1 parent passed siblings := by
            obtain ⟨moved, store, under⟩ := here.store
            simp only at store
            rw [store]
            refine beside.cleared fun job member sibling => ?_
            exact not_under_of_distinct distinct
              ((Under.cons.mp (under job member)).resolve_right not_under_nil) sibling
          obtain ⟨besideKnown, besideHolds, besideOut⟩ := besideIh besideFlows
          obtain ⟨moved, store, under⟩ := delivered.store
          have soundBelow : channel.Sound (children.getJobsToRun now jobs).1
              (parent ++ [name]) := by
            rw [store]
            exact sound.cleared fun job member own => not_under_of_own own (under job member)
          obtain ⟨known, holds, out⟩ := @Channel.dispatch_parts now _ _ _ _ soundBelow
            delivered.unset job
          rw [getJobsToRun, references, references, Holds, Holds, Bool.or_eq_true, Bool.or_eq_true,
            Bool.or_eq_true, Bool.or_eq_true, List.mem_append]
          have belowReferenced : job ∈ (children.getJobsToRun now jobs).2.2 →
              children.references job = true := fun member =>
            references_of_holds (belowOut member)
          refine ⟨fun referenced => ?_, fun present => ?_, fun member => ?_⟩
          · rcases referenced with (here | below) | beside
            · exact .inl ((known here).imp_right belowReferenced)
            · exact .inl (.inr (belowKnown below))
            · exact .inr (besideKnown beside)
          · rcases present with here | below | beside
            · exact (holds here).imp_right fun member => .inl (belowOut member)
            · exact .inr (.inl (belowHolds below))
            · exact .inr (.inr (besideHolds beside))
          · rcases member with here | beside
            · exact (out here).imp_right fun member => .inl (belowOut member)
            · exact .inr (.inr (besideOut beside))

/-- The queues of the channels were cleaned of removed jobs, at most. -/
structure Cleaned (jobs : Jobs) (parent : Path) (passed : JobId → Prop)
    (channels after : Channels) : Prop where
  flows : Flows jobs parent passed after
  names : after.names = channels.names
  holds : ∀ job, after.Holds job ↔ channels.Holds job
  runs : ∀ job, after.Runs job ↔ channels.Runs job
  references : ∀ job, after.references job = true → channels.references job = true

theorem Cleaned.refl (flows : Flows jobs parent passed channels) :
    Cleaned jobs parent passed channels channels :=
  ⟨flows, rfl, fun _ => Iff.rfl, fun _ => Iff.rfl, fun _ => id⟩

theorem Cleaned.cons {name : Name} {channel : Channel} {queue : ChannelQueue}
    {children siblings below beside : Channels}
    (flows : Flows jobs parent passed (.cons name channel children siblings))
    (soundAfter : Channel.Sound jobs (parent ++ [name]) { channel with queue })
    (has : Channel.Has { channel with queue } = channel.Has)
    (known : ∀ job, Channel.references { channel with queue } job = true →
      channel.references job = true)
    (cleanBelow : Cleaned jobs (parent ++ [name]) channel.Has children below)
    (cleanBeside : Cleaned jobs parent passed siblings beside) :
    Cleaned jobs parent passed (.cons name channel children siblings)
      (.cons name { channel with queue } below beside) := by
  cases flows with
  | cons sound running arrived distinct _ _ =>
      refine ⟨?_, ?_, fun job => ?_, fun job => ?_, fun job referenced => ?_⟩
      · refine .cons soundAfter running (fun job present => ?_)
          (cleanBeside.names ▸ distinct) (has ▸ cleanBelow.flows) cleanBeside.flows
        rw [under_congr cleanBelow.names]
        exact arrived job (has ▸ present)
      · rw [Channels.names, Channels.names, cleanBeside.names]
      · rw [Holds, Holds, Channel.Holds, Channel.Holds, has, cleanBelow.holds, cleanBeside.holds]
      · rw [Runs, Runs, cleanBeside.runs]
      · rw [Channels.references, Bool.or_eq_true, Bool.or_eq_true] at referenced ⊢
        rcases referenced with (here | child) | sibling
        · exact .inl (.inl (known job here))
        · exact .inl (.inr (cleanBelow.references job child))
        · exact .inr (cleanBeside.references job sibling)

/-- Looking for the wakeup time only cleans the queues. -/
theorem getWakeupTime_cleaned (flows : Flows jobs parent passed channels) (wakeup : Time) :
    Cleaned jobs parent passed channels (channels.getWakeupTime jobs wakeup).2 := by
  induction channels generalizing parent passed wakeup with
  | nil => exact .refl flows
  | cons name channel children siblings belowIh besideIh =>
      have whole := flows
      cases whole with
      | cons sound _ _ _ below beside =>
          rw [getWakeupTime]
          split
          · split
            · exact .cons flows sound rfl (fun _ => id) (.refl below) (besideIh beside _)
            · obtain ⟨_, looked, _⟩ := channel.queue.getWakeupTime_looked jobs wakeup
              obtain ⟨soundAfter, has, known⟩ := Channel.looked_same looked sound
              exact .cons flows soundAfter has known (belowIh below _) (besideIh beside _)
          · exact .cons flows sound rfl (fun _ => id) (.refl below) (besideIh beside _)

end Channels

end WorkflowStudio.Queue
