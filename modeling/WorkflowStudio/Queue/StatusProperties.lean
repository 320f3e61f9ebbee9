import WorkflowStudio.Queue.SchedulingProperties

/-! Where the channels have a job: nowhere, waiting to be handed out, handed out, or
failed; and what the methods of the channels make of it. -/

set_option autoImplicit false

namespace WorkflowStudio.Queue

open Lib PriorityQueue

namespace Channels

/-- Some channel of the tree. -/
def Somewhere (holds : Channel → Prop) : Channels → Prop
  | .nil => False
  | .cons _ channel children siblings =>
      holds channel ∨ children.Somewhere holds ∨ siblings.Somewhere holds

/-- A channel has the job among its failed jobs. -/
def Fails (channels : Channels) (job : JobId) : Prop :=
  channels.Somewhere fun channel => job ∈ channel.failed

/-- The job is waiting in a queue, from which it is not handed out yet. -/
def Waits (channels : Channels) (job : JobId) : Prop :=
  channels.Holds job ∧ ¬ channels.Fails job ∧ ¬ channels.Runs job

variable {holds : Channel → Prop} {channels : Channels} {jobs : Jobs} {parent path : Path}
  {passed : JobId → Prop} {job : JobId} {channel : Channel}

theorem somewhere_climb {own above : Channel → Option Channel}
    (atOwn : ∀ channel changed, own channel = some changed → (holds changed ↔ holds channel))
    (atAbove : ∀ channel changed, above channel = some changed → (holds changed ↔ holds channel)) :
    (channels.climb own above path).1.Somewhere holds ↔ channels.Somewhere holds := by
  induction channels generalizing path with
  | nil => exact Iff.rfl
  | cons name channel children siblings belowIh besideIh =>
      cases path with
      | nil => exact Iff.rfl
      | cons first rest =>
          rw [climb]
          split
          · split
            · cases result : own channel with
              | none => exact Iff.rfl
              | some changed => exact or_congr_left (atOwn channel changed result)
            · have below := or_congr_left (c := siblings.Somewhere holds) (@belowIh rest)
              simp only
              split
              · cases result : above channel with
                | none => exact or_congr_right below
                | some changed => exact or_congr (atAbove channel changed result) below
              · exact or_congr_right below
          · exact or_congr_right (or_congr_right besideIh)

theorem not_somewhere_fresh (new : ¬ holds {}) (path : Path) :
    ¬ (fresh path).Somewhere holds := by
  induction path with
  | nil => exact id
  | cons name rest ih =>
      rintro (here | below | beside)
      · exact new here
      · exact ih below
      · exact beside.elim

theorem somewhere_ensure (new : ¬ holds {}) (path : Path) :
    (channels.ensure path).Somewhere holds ↔ channels.Somewhere holds := by
  induction channels generalizing path with
  | nil => exact iff_of_false (not_somewhere_fresh new path) id
  | cons name channel children siblings belowIh besideIh =>
      cases path with
      | nil => exact Iff.rfl
      | cons first rest =>
          rw [ensure]
          split
          · exact or_congr_right (or_congr_left (belowIh rest))
          · exact or_congr_right (or_congr_right (besideIh (first :: rest)))

/-- The path to a channel of the list starts with the name of one of its channels. -/
theorem name_of_get {first : Name} {rest : Path}
    (found : channels.get? (first :: rest) = some channel) : first ∈ channels.names := by
  have has : channels.has (first :: rest) = true := by rw [Channels.has, found]; rfl
  obtain ⟨name, member, head⟩ := head_of_has has
  exact Option.some_inj.mp head ▸ member

theorem get?_climb (own above : Channel → Option Channel) :
    (channels.climb own above path).1.get? path =
      (channels.get? path).map fun channel => (own channel).getD channel := by
  induction channels generalizing path with
  | nil => rfl
  | cons name channel children siblings belowIh besideIh =>
      cases path with
      | nil => rfl
      | cons first rest =>
          rw [climb]
          by_cases named : name = first
          · rw [if_pos named]
            by_cases last : rest = []
            · rw [if_pos last]
              cases result : own channel with
              | none => simp [get?, named, last, result]
              | some changed => simp [get?, named, last, result]
            · rw [if_neg last]
              simp only
              split
              · cases above channel with
                | none => simp [get?, named, last, belowIh]
                | some changed => simp [get?, named, last, belowIh]
              · simp [get?, named, last, belowIh]
          · rw [if_neg named]
            simp [get?, named, besideIh]

/-- Lists of channels with the same names, in which the same paths lead to a channel. -/
def SameShape (channels other : Channels) : Prop :=
  ∀ path, (channels.get? path).isSome = (other.get? path).isSome

theorem SameShape.cons {name : Name} {channel changed : Channel}
    {children siblings below beside : Channels} (sameBelow : below.SameShape children)
    (sameBeside : beside.SameShape siblings) :
    (Channels.cons name changed below beside).SameShape (.cons name channel children siblings) := by
  intro path
  cases path with
  | nil => rfl
  | cons first rest =>
      rw [get?, get?]
      split
      · split
        · rfl
        · exact sameBelow rest
      · exact sameBeside (first :: rest)

/-- A climbing method adds no channel and removes none. -/
theorem climb_sameShape (own above : Channel → Option Channel) :
    (channels.climb own above path).1.SameShape channels := by
  have refl : ∀ channels : Channels, channels.SameShape channels := fun _ _ => rfl
  induction channels generalizing path with
  | nil => exact refl _
  | cons name channel children siblings belowIh besideIh =>
      cases path with
      | nil => exact refl _
      | cons first rest =>
          rw [climb]
          split
          · split
            · cases own channel with
              | none => exact refl _
              | some changed => exact .cons (refl _) (refl _)
            · simp only
              split
              · cases above channel with
                | none => exact .cons belowIh (refl _)
                | some changed => exact .cons belowIh (refl _)
              · exact .cons belowIh (refl _)
          · exact .cons (refl _) besideIh

theorem holds_of_get (found : channels.get? path = some channel) (has : channel.Holds job) :
    channels.Holds job := by
  induction channels generalizing path with
  | nil => exact (Option.some_ne_none _ found.symm).elim
  | cons name here children siblings belowIh besideIh =>
      cases path with
      | nil => exact (Option.some_ne_none _ found.symm).elim
      | cons first rest =>
          rw [get?] at found
          split at found
          · split at found
            · cases found
              exact .inl has
            · exact .inr (.inl (belowIh found))
          · exact .inr (.inr (besideIh found))

theorem fails_of_get (found : channels.get? path = some channel) (failed : job ∈ channel.failed) :
    channels.Fails job := by
  unfold Fails
  induction channels generalizing path with
  | nil => exact (Option.some_ne_none _ found.symm).elim
  | cons name here children siblings belowIh besideIh =>
      cases path with
      | nil => exact (Option.some_ne_none _ found.symm).elim
      | cons first rest =>
          rw [get?] at found
          split at found
          · split at found
            · cases found
              exact .inl failed
            · exact .inr (.inl (belowIh found))
          · exact .inr (.inr (besideIh found))

/-- A job fails in its own channel only. -/
theorem Flows.own_of_fails (flows : Flows jobs parent passed channels)
    (fails : channels.Fails job) :
    ∃ path channel, (jobs job).channel = parent ++ path ∧ channels.get? path = some channel ∧
      job ∈ channel.failed := by
  unfold Fails at fails
  induction flows with
  | nil => exact fails.elim
  | @cons parent passed name channel children siblings sound running arrived distinct below
      beside belowIh besideIh =>
      rcases fails with failed | deeper | further
      · refine ⟨[name], channel, sound.failedOwn job failed, ?_, failed⟩
        rw [get?, if_pos rfl, if_pos rfl]
      · obtain ⟨path, own, target, found, failed⟩ := belowIh deeper
        refine ⟨name :: path, own, by rw [target, List.append_assoc, List.singleton_append], ?_,
          failed⟩
        have longer : path ≠ [] := by
          rintro rfl
          cases children with
          | nil => exact Option.some_ne_none _ found.symm
          | cons _ _ _ _ => exact Option.some_ne_none _ found.symm
        rw [get?, if_pos rfl, if_neg longer, found]
      · obtain ⟨path, own, target, found, failed⟩ := besideIh further
        refine ⟨path, own, target, ?_, failed⟩
        cases path with
        | nil =>
            cases siblings with
            | nil => exact (Option.some_ne_none _ found.symm).elim
            | cons _ _ _ _ => exact (Option.some_ne_none _ found.symm).elim
        | cons first rest =>
            have different : name ≠ first := fun same => distinct (same ▸ name_of_get found)
            rw [get?, if_neg different, found]

/-- A job that its own channel is not running is not with the parent of the list. -/
theorem Flows.not_passed_of_own (flows : Flows jobs parent passed channels)
    (target : (jobs job).channel = parent ++ path) (found : channels.get? path = some channel)
    (idle : job ∉ channel.running) : ¬ passed job := by
  induction flows generalizing path with
  | nil => exact (Option.some_ne_none _ found.symm).elim
  | @cons parent passed name here children siblings sound running arrived distinct below
      beside belowIh besideIh =>
      cases path with
      | nil => exact (Option.some_ne_none _ found.symm).elim
      | cons first rest =>
          have going : parent ++ [first] <+: (jobs job).channel := by
            rw [target]
            exact (List.prefix_append_right_inj parent).mpr ⟨rest, rfl⟩
          rw [get?] at found
          by_cases named : name = first
          · rw [if_pos named] at found
            subst named
            rw [← running job going]
            by_cases last : rest = []
            · rw [if_pos last] at found
              cases found
              exact idle
            · rw [if_neg last] at found
              have further : (jobs job).channel = (parent ++ [name]) ++ rest := by
                rw [target, List.append_assoc, List.singleton_append]
              exact fun runs => belowIh further found (.inr runs)
          · rw [if_neg named] at found
            exact besideIh target found

section Own

variable (flows : Flows jobs [] channels.Runs channels)
  (found : channels.get? (jobs job).channel = some channel)

include flows found

/-- What its own channel has of a job tells where the job is. -/
theorem waits_of_own (queued : job ∈ channel.queue.objects) : channels.Waits job := by
  have sound := flows.sound_of_get found
  refine ⟨holds_of_get found (.inl (.inl queued)), fun fails => ?_, ?_⟩
  · obtain ⟨path, own, target, same, failed⟩ := flows.own_of_fails fails
    rw [target, List.nil_append, same] at found
    cases found
    exact sound.failedApart job failed (.inl queued)
  · refine flows.not_passed_of_own (List.nil_append _).symm found fun runs => ?_
    exact sound.runningApart job runs queued

theorem not_runs_of_fails (failed : job ∈ channel.failed) : ¬ channels.Runs job :=
  flows.not_passed_of_own (List.nil_append _).symm found fun runs =>
    (flows.sound_of_get found).failedApart job failed (.inr runs)

end Own

theorem Flows.not_runs_of_fails (flows : Flows jobs [] channels.Runs channels)
    (fails : channels.Fails job) : ¬ channels.Runs job := by
  obtain ⟨path, own, target, found, failed⟩ := flows.own_of_fails fails
  have place : channels.get? (jobs job).channel = some own := by
    rw [target]
    exact found
  exact Channels.not_runs_of_fails flows place failed

/-!
## What the methods make of a job
-/

theorem queued_setPending (found : channels.get? path = some channel) :
    ∃ changed, (channels.setPending jobs path job).get? path = some changed ∧
      job ∈ changed.queue.objects := by
  unfold setPending
  rw [get?_climb, found, Option.map_some]
  refine ⟨_, rfl, ?_⟩
  unfold Channel.setPending
  split
  · rename_i queued
    exact ChannelQueue.contains_iff.mp queued
  · rw [Option.getD_some, ChannelQueue.objects_add]
    exact Finset.mem_insert_self job _

theorem failed_setFailed (found : channels.get? path = some channel) :
    ∃ changed, (channels.setFailed path job).get? path = some changed ∧
      job ∈ changed.failed := by
  unfold setFailed
  rw [get?_climb, found, Option.map_some]
  refine ⟨_, rfl, ?_⟩
  unfold Channel.setFailed
  split
  · assumption
  · exact Finset.mem_insert_self job _

/-- A job that its own channel is not running is started in every channel of its path. -/
theorem setRunning_past (flows : Flows jobs parent passed channels)
    (target : (jobs job).channel = parent ++ path) (found : channels.get? path = some channel)
    (idle : job ∉ channel.running) :
    (channels.climb (Channel.setRunning job) (Channel.setRunning job) path).2 = true := by
  have starts : ∀ other : Channel, job ∉ other.running →
      ∃ changed, other.setRunning job = some changed := fun other idle =>
    Option.ne_none_iff_exists'.mp (mt Channel.setRunning_eq_none_iff.mp idle)
  induction flows generalizing path with
  | nil => exact (Option.some_ne_none _ found.symm).elim
  | @cons parent passed name here children siblings sound running arrived distinct below
      beside belowIh besideIh =>
      cases path with
      | nil => exact (Option.some_ne_none _ found.symm).elim
      | cons first rest =>
          rw [get?] at found
          rw [climb]
          by_cases named : name = first
          · rw [if_pos named] at found ⊢
            subst named
            by_cases last : rest = []
            · rw [if_pos last] at found ⊢
              cases found
              obtain ⟨changed, started⟩ := starts channel idle
              rw [started]
            · rw [if_neg last] at found ⊢
              have further : (jobs job).channel = (parent ++ [name]) ++ rest := by
                rw [target, List.append_assoc, List.singleton_append]
              have absent := below.not_passed_of_own further found idle
              obtain ⟨changed, started⟩ := starts here fun runs => absent (.inr runs)
              simp only [belowIh further found, if_true, started]
          · rw [if_neg named] at found ⊢
            exact besideIh target found

theorem runs_setRunning (flows : Flows jobs [] channels.Runs channels)
    (found : channels.get? (jobs job).channel = some channel) (idle : job ∉ channel.running) :
    (channels.setRunning (jobs job).channel job).Runs job := by
  have target : (jobs job).channel = [] ++ (jobs job).channel := (List.nil_append _).symm
  have climbed := setRunning_climbed flows target
  have past := climbed.past (setRunning_past flows target found idle)
  refine (past.2.2.passed_iff_runs ?_).mp (instead_self.mpr trivial)
  rw [under_congr climbed.names]
  exact past.2.1

/-- A method that starts no job leaves no more jobs running than there were. -/
theorem runs_climb {own above : Channel → Option Channel}
    (atOwn : ∀ channel changed, own channel = some changed → job ∈ changed.running →
      job ∈ channel.running)
    (atAbove : ∀ channel changed, above channel = some changed → job ∈ changed.running →
      job ∈ channel.running)
    (runs : (channels.climb own above path).1.Runs job) : channels.Runs job := by
  induction channels generalizing path with
  | nil => exact runs
  | cons name channel children siblings _ besideIh =>
      cases path with
      | nil => exact runs
      | cons first rest =>
          rw [climb] at runs
          split at runs
          · split at runs
            · cases result : own channel with
              | none =>
                  rw [result] at runs
                  exact runs
              | some changed =>
                  rw [result] at runs
                  exact runs.imp_left (atOwn channel changed result)
            · simp only at runs
              split at runs
              · cases result : above channel with
                | none =>
                    rw [result] at runs
                    exact runs
                | some changed =>
                    rw [result] at runs
                    exact runs.imp_left (atAbove channel changed result)
              · exact runs
          · exact runs.imp_right fun beside => besideIh beside

/-!
## Yielding and waking up
-/

variable {now : Time}

theorem fails_getJobsToRun : (channels.getJobsToRun now jobs).2.1.Fails job ↔ channels.Fails job := by
  unfold Fails
  induction channels generalizing jobs with
  | nil => exact Iff.rfl
  | cons name channel children siblings belowIh besideIh =>
      refine or_congr ?_ (or_congr belowIh besideIh)
      obtain ⟨moved, advances⟩ := (channel.enqueue (children.getJobsToRun now jobs).1
        (children.getJobsToRun now jobs).2.2).dispatch_advances now
          (children.getJobsToRun now jobs).1
      simp only [advances.failed]
      exact Iff.rfl

/-- A channel that yields jobs still has all its jobs. -/
theorem holds_dispatch {arrived : List JobId} (sound : channel.Sound jobs path)
    (unset : ∀ job ∈ arrived, (jobs job).eta = none) (here : channel.Holds job) :
    ((channel.enqueue jobs arrived).dispatch now jobs).2.1.Holds job := by
  obtain ⟨objects, _, _, _⟩ := @Channel.queue_enqueue _ channel arrived unset
  have keyed := Channel.keyed_enqueue sound.keyed arrived
  obtain ⟨moved, advances⟩ := (channel.enqueue jobs arrived).dispatch_advances now jobs
  rcases here with (queued | running) | failed
  · exact .inl ((advances.has keyed job).mpr (.inl ((objects job).mpr (.inl queued))))
  · exact .inl ((advances.has keyed job).mpr (.inr running))
  · refine .inr ?_
    rw [advances.failed]
    exact failed

/-- No job is lost when the jobs are yielded. -/
theorem holds_getJobsToRun (flows : Flows jobs parent passed channels)
    (present : channels.Holds job) : (channels.getJobsToRun now jobs).2.1.Holds job := by
  induction channels generalizing jobs parent passed with
  | nil => exact present
  | cons name channel children siblings belowIh besideIh =>
      obtain ⟨single, distinct, beside⟩ := flows_cons_iff.mp flows
      cases flows with
      | cons sound _ _ _ below _ =>
          have delivered := @getJobsToRun_delivered _ _ _ _ now below
          have here := @delivered_channel _ _ _ now _ _ _ _ single delivered
          obtain ⟨moved, store, under⟩ := delivered.store
          have soundBelow : channel.Sound (children.getJobsToRun now jobs).1
              (parent ++ [name]) := by
            rw [store]
            exact sound.cleared fun job member own => not_under_of_own own (under job member)
          obtain ⟨cleared, clearedStore, clearedUnder⟩ := here.store
          have besideFlows := beside.cleared fun job member sibling =>
            not_under_of_distinct distinct
              ((Under.cons.mp (clearedUnder job member)).resolve_right not_under_nil) sibling
          simp only at clearedStore
          rw [← clearedStore] at besideFlows
          rcases present with own | child | sibling
          · exact .inl (holds_dispatch soundBelow delivered.unset own)
          · exact .inr (.inl (belowIh below child))
          · exact .inr (.inr (besideIh besideFlows sibling))

/-- The jobs that are running once the jobs are yielded are those that were running, and
those that were handed out. -/
theorem runs_getJobsToRun (flows : Flows jobs [] channels.Runs channels) :
    (channels.getJobsToRun now jobs).2.1.Runs job ↔
      channels.Runs job ∨ job ∈ (channels.getJobsToRun now jobs).2.2 := by
  have delivered := @getJobsToRun_delivered _ _ _ _ now flows
  obtain ⟨moved, store, _⟩ := delivered.store
  have underAfter : channels.Under jobs [] job →
      (channels.getJobsToRun now jobs).2.1.Under (channels.getJobsToRun now jobs).1 [] job :=
    fun under => by
      rw [store, under_cleared, under_congr delivered.names]
      exact under
  constructor
  · intro runs
    have holds := (getJobsToRun_parts flows job).2.1 (holds_of_runs runs)
    exact (delivered.flows.passed_iff_runs (underAfter (flows.under_of_holds holds))).mpr runs
  · rintro (runs | handed)
    · exact (delivered.flows.passed_iff_runs
        (underAfter (flows.under_of_holds (holds_of_runs runs)))).mp (.inl runs)
    · exact (delivered.flows.passed_iff_runs (underAfter (delivered.under job handed))).mp
        (.inr handed)

theorem fails_getWakeupTime {wakeup : Time} :
    (channels.getWakeupTime jobs wakeup).2.Fails job ↔ channels.Fails job := by
  unfold Fails
  induction channels generalizing wakeup with
  | nil => exact Iff.rfl
  | cons name channel children siblings belowIh besideIh =>
      rw [getWakeupTime]
      split
      · split
        · exact or_congr_right (or_congr_right besideIh)
        · exact or_congr_right (or_congr belowIh besideIh)
      · exact or_congr_right (or_congr_right besideIh)

/-!
## Looking a channel up
-/

theorem has_ensure (path : Path) (named : path ≠ []) : (channels.ensure path).has path = true := by
  have fresh : ∀ path : Path, path ≠ [] → (Channels.fresh path).has path = true := by
    intro path
    induction path with
    | nil => exact fun absurdity => absurd rfl absurdity
    | cons name rest ih =>
        intro _
        unfold Channels.has Channels.fresh
        rw [get?, if_pos rfl]
        split
        · rfl
        · exact ih (by assumption)
  induction channels generalizing path with
  | nil => exact fresh path named
  | cons name channel children siblings belowIh besideIh =>
      cases path with
      | nil => exact absurd rfl named
      | cons first rest =>
          unfold Channels.has at belowIh besideIh ⊢
          rw [ensure]
          by_cases same : name = first
          · rw [if_pos same, get?, if_pos same]
            split
            · rfl
            · exact belowIh rest (by assumption)
          · rw [if_neg same, get?, if_neg same]
            exact besideIh (first :: rest) named

theorem Rooted.has_root (rooted : channels.Rooted) : channels.has [rootName] = true := by
  cases channels with
  | nil => exact (List.cons_ne_nil _ _ rooted.symm).elim
  | cons name channel children siblings =>
      obtain ⟨rfl, _⟩ := List.cons.inj rooted
      unfold Channels.has
      rw [get?, if_pos rfl, if_pos rfl]
      rfl

/-- The channel that is looked up exists then. -/
theorem has_lookup (rooted : channels.Rooted) {channelName : Option Name}
    {autocreate parentFallback : Bool} {outcome : Path × Channels}
    (found : channels.getChannelByName channelName autocreate parentFallback = some outcome) :
    outcome.2.has outcome.1 = true := by
  unfold getChannelByName at found
  cases channelName with
  | none =>
      cases found
      exact rooted.has_root
  | some channelName =>
      simp only at found
      split at found
      · cases found
        exact rooted.has_root
      · split at found
        · cases found
          assumption
        · split at found
          · exact (Option.some_ne_none _ found.symm).elim
          · cases found
            refine has_ensure _ fun empty => ?_
            have parents := (List.append_eq_nil_iff.mp empty).1
            split at parents
            · have head := rooted.head_configuredParent
                ((fullName channelName).splitOn '.').reverse
              rw [parents] at head
              exact Option.some_ne_none _ head.symm
            · exact List.cons_ne_nil _ _ parents

end Channels

end WorkflowStudio.Queue
