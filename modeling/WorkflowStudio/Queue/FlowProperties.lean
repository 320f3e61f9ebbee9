import WorkflowStudio.Queue.DispatchProperties

/-! How the jobs flow through the tree of channels: a job that is running in a channel
is in the queue of its parent or running there, and in no other place. -/

set_option autoImplicit false

namespace WorkflowStudio.Queue

open Lib PriorityQueue

namespace Channel

/-- The job is queued or running in the channel. -/
def Has (channel : Channel) (job : JobId) : Prop :=
  job ∈ channel.queue.objects ∨ job ∈ channel.running

def Holds (channel : Channel) (job : JobId) : Prop :=
  channel.Has job ∨ job ∈ channel.failed

/-- What holds in one channel. A queue compares jobs with an eta only among themselves,
and a job has one only in its own channel. -/
structure Sound (jobs : Jobs) (path : Path) (channel : Channel) : Prop where
  keyed : channel.queue.Keyed jobs
  etaOwn : ∀ job ∈ channel.queue.etaQueue.known, (jobs job).channel = path
  within : ∀ job, channel.Holds job → path <+: (jobs job).channel
  failedOwn : ∀ job ∈ channel.failed, (jobs job).channel = path
  runningApart : ∀ job ∈ channel.running, job ∉ channel.queue.objects
  failedApart : ∀ job ∈ channel.failed, ¬ channel.Has job

theorem references_iff {channel : Channel} {job : JobId} :
    channel.references job = true ↔ job ∈ channel.queue.queue.known ∨
      job ∈ channel.queue.etaQueue.known ∨ job ∈ channel.running ∨ job ∈ channel.failed := by
  simp only [references, Bool.or_eq_true, decide_eq_true_eq, or_assoc]

theorem references_of_holds {channel : Channel} {job : JobId} (holds : channel.Holds job) :
    channel.references job = true := by
  rw [references_iff]
  rcases holds with (queued | running) | failed
  · rcases ChannelQueue.mem_objects.mp queued with ready | waits
    · exact .inl (mem_known_of_mem ready)
    · exact .inr (.inl (mem_known_of_mem waits))
  · exact .inr (.inr (.inl running))
  · exact .inr (.inr (.inr failed))

/-- Another store of the jobs will do that differs only in etas that were cleared, of
jobs of other channels. -/
theorem Sound.congr {jobs other : Jobs} {path : Path} {channel : Channel}
    (sound : channel.Sound jobs path)
    (alike : ∀ job, channel.references job = true →
      (other job).channel = (jobs job).channel ∧ ((other job).eta = (jobs job).eta ∨
        (other job).eta = none ∧ (jobs job).channel ≠ path)) :
    channel.Sound other path := by
  refine ⟨⟨fun job member => ?_, fun job member => ?_⟩, fun job member => ?_,
    fun job holds => ?_, fun job member => ?_, sound.runningApart, sound.failedApart⟩
  · rcases (alike job (references_iff.mpr (.inr (.inl member)))).2 with eta | ⟨_, elsewhere⟩
    · exact eta ▸ sound.keyed.etaSet job member
    · exact absurd (sound.etaOwn job member) elsewhere
  · rcases (alike job (references_iff.mpr (.inl member))).2 with eta | ⟨cleared, _⟩
    · exact eta ▸ sound.keyed.etaUnset job member
    · exact cleared
  · have same := (alike job (references_iff.mpr (.inr (.inl member)))).1
    exact same.trans (sound.etaOwn job member)
  · exact (alike job (references_of_holds holds)).1 ▸ sound.within job holds
  · have same := (alike job (references_of_holds (.inr member))).1
    exact same.trans (sound.failedOwn job member)

theorem Sound.cleared {jobs : Jobs} {path : Path} {channel : Channel} {moved : Finset JobId}
    (sound : channel.Sound jobs path) (elsewhere : ∀ job ∈ moved, (jobs job).channel ≠ path) :
    channel.Sound (jobs.cleared moved) path := by
  refine sound.congr fun job _ => ⟨Jobs.channel_cleared jobs moved job, ?_⟩
  rw [Jobs.eta_cleared]
  by_cases member : job ∈ moved
  · rw [if_pos member]
    exact .inr ⟨rfl, elsewhere job member⟩
  · rw [if_neg member]
    exact .inl rfl

end Channel

namespace Channels

def names : Channels → List Name
  | .nil => []
  | .cons name _ _ siblings => name :: siblings.names

/-- The job belongs to one of the channels of the list or to one below them. -/
def Under (jobs : Jobs) (parent : Path) (channels : Channels) (job : JobId) : Prop :=
  ∃ name ∈ channels.names, parent ++ [name] <+: (jobs job).channel

/-- The parent of the list has the jobs for which `passed` holds, in its queue or
running. -/
inductive Flows (jobs : Jobs) : Path → (JobId → Prop) → Channels → Prop where
  | nil {parent : Path} {passed : JobId → Prop} : Flows jobs parent passed .nil
  | cons {parent : Path} {passed : JobId → Prop} {name : Name} {channel : Channel}
      {children siblings : Channels}
      (sound : channel.Sound jobs (parent ++ [name]))
      (running : ∀ job, parent ++ [name] <+: (jobs job).channel →
        (job ∈ channel.running ↔ passed job))
      (arrived : ∀ job, channel.Has job → (jobs job).channel = parent ++ [name] ∨
        children.Under jobs (parent ++ [name]) job)
      (distinct : name ∉ siblings.names)
      (below : Flows jobs (parent ++ [name]) channel.Has children)
      (beside : Flows jobs parent passed siblings) :
      Flows jobs parent passed (.cons name channel children siblings)

variable {jobs other : Jobs} {parent : Path} {passed : JobId → Prop} {channels : Channels}

theorem Under.cons {name : Name} {channel : Channel} {children siblings : Channels}
    {job : JobId} : Under jobs parent (.cons name channel children siblings) job ↔
      parent ++ [name] <+: (jobs job).channel ∨ siblings.Under jobs parent job := by
  simp only [Under, names, List.mem_cons, exists_eq_or_imp]

theorem not_under_nil {job : JobId} : ¬ Under jobs parent .nil job := by
  rintro ⟨_, absent, _⟩
  exact List.not_mem_nil absent

/-- The first name after a common part is the same. -/
theorem name_unique {name second : Name} {path : Path} (first : parent ++ [name] <+: path)
    (again : parent ++ [second] <+: path) : name = second := by
  have same := (List.prefix_of_prefix_length_le first again (by
    rw [List.length_append, List.length_append, List.length_singleton, List.length_singleton]))
  have equal := List.append_cancel_left (same.eq_of_length (by
    rw [List.length_append, List.length_append, List.length_singleton, List.length_singleton]))
  exact (List.cons.inj equal).1

/-- A job below a channel is not below another channel of the same list. -/
theorem not_under_of_distinct {name : Name} {job : JobId} (absent : name ∉ channels.names)
    (within : parent ++ [name] <+: (jobs job).channel) : ¬ channels.Under jobs parent job := by
  rintro ⟨second, member, again⟩
  exact absent (name_unique within again ▸ member)

theorem within_of_under {job : JobId} (under : channels.Under jobs parent job) :
    parent <+: (jobs job).channel := by
  obtain ⟨name, _, within⟩ := under
  exact (List.prefix_append parent [name]).trans within

/-- A job of the channel itself is below none of its children. -/
theorem not_under_of_own {job : JobId} (own : (jobs job).channel = parent) :
    ¬ channels.Under jobs parent job := by
  rintro ⟨name, _, within⟩
  rw [own] at within
  have long := within.length_le
  rw [List.length_append, List.length_singleton] at long
  omega

theorem Flows.congr_passed {again : JobId → Prop} (flows : Flows jobs parent passed channels)
    (same : ∀ job, channels.Under jobs parent job → (passed job ↔ again job)) :
    Flows jobs parent again channels := by
  induction flows with
  | nil => exact .nil
  | cons sound running arrived distinct below beside _ ih =>
      refine .cons sound (fun job within => ?_) arrived distinct below (ih fun job under => ?_)
      · exact (running job within).trans (same job (Under.cons.mpr (.inl within)))
      · exact same job (Under.cons.mpr (.inr under))

/-- The job means the same in both stores for the channels of the list: only the eta may
have been cleared, and only where the job belongs elsewhere; or nobody has the job. -/
def Alike (jobs other : Jobs) (parent : Path) (passed : JobId → Prop) (channels : Channels)
    (job : JobId) : Prop :=
  ((other job).channel = (jobs job).channel ∧ ((other job).eta = (jobs job).eta ∨
    (other job).eta = none ∧ ¬ channels.Under jobs parent job)) ∨
    (channels.references job = false ∧ ¬ passed job)

theorem Alike.below {name : Name} {channel : Channel} {children siblings : Channels}
    {job : JobId}
    (alike : Alike jobs other parent passed (.cons name channel children siblings) job) :
    Alike jobs other (parent ++ [name]) channel.Has children job := by
  rcases alike with ⟨same, eta⟩ | ⟨unknown, _⟩
  · refine .inl ⟨same, eta.imp_right fun ⟨cleared, elsewhere⟩ => ⟨cleared, fun under => ?_⟩⟩
    exact elsewhere (Under.cons.mpr (.inl (within_of_under under)))
  · rw [references, Bool.or_eq_false_iff, Bool.or_eq_false_iff] at unknown
    refine .inr ⟨unknown.1.2, fun has => ?_⟩
    rw [Channel.references_of_holds (.inl has)] at unknown
    exact Bool.noConfusion unknown.1.1

theorem Alike.beside {name : Name} {channel : Channel} {children siblings : Channels}
    {job : JobId}
    (alike : Alike jobs other parent passed (.cons name channel children siblings) job) :
    Alike jobs other parent passed siblings job := by
  rcases alike with ⟨same, eta⟩ | ⟨unknown, absent⟩
  · refine .inl ⟨same, eta.imp_right fun ⟨cleared, elsewhere⟩ => ⟨cleared, fun under => ?_⟩⟩
    exact elsewhere (Under.cons.mpr (.inr under))
  · rw [references, Bool.or_eq_false_iff] at unknown
    exact .inr ⟨unknown.2, absent⟩

theorem Alike.known {name : Name} {channel : Channel} {children siblings : Channels}
    {job : JobId}
    (alike : Alike jobs other parent passed (.cons name channel children siblings) job)
    (known : channel.references job = true) :
    (other job).channel = (jobs job).channel ∧ ((other job).eta = (jobs job).eta ∨
      (other job).eta = none ∧ ¬ parent ++ [name] <+: (jobs job).channel) := by
  rcases alike with ⟨same, eta⟩ | ⟨unknown, _⟩
  · refine ⟨same, eta.imp_right fun ⟨cleared, elsewhere⟩ => ⟨cleared, fun within => ?_⟩⟩
    exact elsewhere (Under.cons.mpr (.inl within))
  · rw [references, known] at unknown
    exact Bool.noConfusion unknown

theorem Flows.congr_jobs (flows : Flows jobs parent passed channels)
    (alike : ∀ job, Alike jobs other parent passed channels job) :
    Flows other parent passed channels := by
  induction flows with
  | nil => exact .nil
  | @cons parent passed name channel children siblings sound running arrived distinct _ _
      belowIh besideIh =>
      have known := fun job => Alike.known (alike job)
      refine .cons ?_ ?_ ?_ distinct (belowIh fun job => (alike job).below)
        (besideIh fun job => (alike job).beside)
      · refine sound.congr fun job referenced => ?_
        have kept := known job referenced
        refine ⟨kept.1, kept.2.imp_right fun ⟨cleared, elsewhere⟩ => ⟨cleared, ?_⟩⟩
        exact fun own => elsewhere (own ▸ List.prefix_rfl)
      · intro job within
        rcases alike job with ⟨same, _⟩ | ⟨unknown, absent⟩
        · exact running job (same ▸ within)
        · refine iff_of_false (fun member => ?_) absent
          rw [references, Channel.references_of_holds (.inl (.inr member))] at unknown
          exact Bool.noConfusion unknown
      · intro job has
        have kept := (known job (Channel.references_of_holds (.inl has))).1
        rw [kept, Under, kept]
        exact arrived job has

/-- Clearing the etas of jobs that belong elsewhere. -/
theorem Flows.cleared {moved : Finset JobId} (flows : Flows jobs parent passed channels)
    (elsewhere : ∀ job ∈ moved, ¬ channels.Under jobs parent job) :
    Flows (jobs.cleared moved) parent passed channels := by
  refine flows.congr_jobs fun job => .inl ⟨Jobs.channel_cleared jobs moved job, ?_⟩
  rw [Jobs.eta_cleared]
  by_cases member : job ∈ moved
  · rw [if_pos member]
    exact .inr ⟨rfl, elsewhere job member⟩
  · rw [if_neg member]
    exact .inl rfl

theorem flows_cons_iff {name : Name} {channel : Channel} {children siblings : Channels} :
    Flows jobs parent passed (.cons name channel children siblings) ↔
      Flows jobs parent passed (.cons name channel children .nil) ∧
        name ∉ siblings.names ∧ Flows jobs parent passed siblings := by
  constructor
  · intro flows
    cases flows with
    | cons sound running arrived distinct below beside =>
        exact ⟨.cons sound running arrived List.not_mem_nil below .nil, distinct, beside⟩
  · rintro ⟨flows, distinct, beside⟩
    cases flows with
    | cons sound running arrived _ below _ =>
        exact .cons sound running arrived distinct below beside

end Channels

/-!
## Yielding the jobs
-/

namespace Channel

variable {jobs : Jobs} {path : Path} {channel : Channel}

/-- Jobs without an eta, which come from the children, join the queue. -/
theorem queue_enqueue (arrived : List JobId) (unset : ∀ job ∈ arrived, (jobs job).eta = none) :
    (∀ job, job ∈ (channel.enqueue jobs arrived).queue.objects ↔
        job ∈ channel.queue.objects ∨ job ∈ arrived) ∧
      (channel.enqueue jobs arrived).queue.etaQueue = channel.queue.etaQueue ∧
      (channel.enqueue jobs arrived).queue.sequential = channel.queue.sequential ∧
      (∀ job, job ∈ (channel.enqueue jobs arrived).queue.queue.known ↔
        job ∈ channel.queue.queue.known ∨ job ∈ arrived) := by
  unfold enqueue
  simp only
  generalize channel.queue = queue
  induction arrived generalizing queue with
  | nil => simp
  | cons first rest ih =>
      have none := unset first List.mem_cons_self
      obtain ⟨objects, etaQueue, sequential, known⟩ :=
        ih (fun job member => unset job (List.mem_cons_of_mem _ member)) (queue.add jobs first)
      have plain : queue.add jobs first = { queue with queue := queue.queue.add first } := by
        rw [ChannelQueue.add, none]
        rfl
      rw [List.foldl_cons]
      refine ⟨fun job => ?_, ?_, ?_, fun job => ?_⟩
      · rw [objects, ChannelQueue.objects_add, Finset.mem_insert, List.mem_cons]
        tauto
      · rw [etaQueue, plain]
      · rw [sequential, plain]
      · rw [known, plain, known_add, Finset.mem_insert, List.mem_cons]
        tauto

theorem keyed_enqueue (keyed : channel.queue.Keyed jobs) (arrived : List JobId) :
    (channel.enqueue jobs arrived).queue.Keyed jobs := by
  unfold enqueue
  simp only
  generalize channel.queue = queue at keyed ⊢
  induction arrived generalizing queue with
  | nil => exact keyed
  | cons first rest ih => exact ih _ (keyed.add first)

theorem Sound.enqueue {arrived : List JobId} (sound : channel.Sound jobs path)
    (unset : ∀ job ∈ arrived, (jobs job).eta = none)
    (new : ∀ job ∈ arrived, ¬ channel.Has job)
    (upstream : ∀ job ∈ arrived, path <+: (jobs job).channel ∧ (jobs job).channel ≠ path) :
    (channel.enqueue jobs arrived).Sound jobs path := by
  obtain ⟨objects, etaQueue, _, _⟩ := @queue_enqueue _ channel arrived unset
  refine ⟨keyed_enqueue sound.keyed arrived, ?_, ?_, sound.failedOwn, ?_, ?_⟩
  · rw [etaQueue]
    exact sound.etaOwn
  · rintro job ((queued | running) | failed)
    · rcases (objects job).mp queued with queued | arrives
      · exact sound.within job (.inl (.inl queued))
      · exact (upstream job arrives).1
    · exact sound.within job (.inl (.inr running))
    · exact sound.within job (.inr failed)
  · intro job running queued
    rcases (objects job).mp queued with queued | arrives
    · exact sound.runningApart job running queued
    · exact new job arrives (.inr running)
  · rintro job failed (queued | running)
    · rcases (objects job).mp queued with queued | arrives
      · exact sound.failedApart job failed (.inl queued)
      · exact (upstream job arrives).2 (sound.failedOwn job failed)
    · exact sound.failedApart job failed (.inr running)

variable {now : Time} {moved : Finset JobId} {outcome : Jobs × Channel × List JobId}

/-- Yielding moves jobs from the queue of the channel to its running jobs. -/
theorem Advances.has (advances : Advances now jobs channel moved outcome)
    (keyed : channel.queue.Keyed jobs) (job : JobId) :
    outcome.2.1.Has job ↔ channel.Has job := by
  unfold Has
  rw [advances.mem_queue keyed.apart, advances.running, Finset.mem_union, List.mem_toFinset]
  have queued := @Advances.mem_queue_of_yielded _ _ _ _ _ advances job
  tauto

theorem Advances.moved_own (advances : Advances now jobs channel moved outcome)
    (sound : channel.Sound jobs path) {job : JobId} (member : job ∈ moved) :
    (jobs job).channel = path :=
  sound.etaOwn job (mem_known_of_mem (ChannelQueue.mem_ripe.mp (advances.moved_ripe member)).1)

theorem Advances.sound (advances : Advances now jobs channel moved outcome)
    (sound : channel.Sound jobs path) : outcome.2.1.Sound outcome.1 path := by
  have has := advances.has sound.keyed
  have same : ∀ job, (outcome.1 job).channel = (jobs job).channel := fun job => by
    rw [advances.store, Jobs.channel_cleared]
  refine ⟨advances.keyed sound.keyed, ?_, ?_, ?_, ?_, ?_⟩
  · intro job member
    rw [same]
    exact sound.etaOwn job (Finset.mem_sdiff.mp (advances.etaKnown member)).1
  · intro job holds
    rw [same]
    rcases holds with present | failed
    · exact sound.within job (.inl ((has job).mp present))
    · exact sound.within job (.inr (advances.failed ▸ failed))
  · intro job failed
    rw [same]
    exact sound.failedOwn job (advances.failed ▸ failed)
  · intro job running queued
    rw [advances.mem_queue sound.keyed.apart] at queued
    rw [advances.running, Finset.mem_union, List.mem_toFinset] at running
    rcases running with running | yielded
    · exact sound.runningApart job running queued.1
    · exact queued.2 yielded
  · intro job failed present
    exact sound.failedApart job (advances.failed ▸ failed) ((has job).mp present)

end Channel

namespace Channels

variable {jobs : Jobs} {parent : Path} {passed : JobId → Prop} {channels : Channels}
  {now : Time}

/-- What the channels of a list have done once they have yielded their jobs. -/
structure Delivered (jobs : Jobs) (parent : Path) (passed : JobId → Prop) (channels : Channels)
    (outcome : Jobs × Channels × List JobId) : Prop where
  store : ∃ moved, outcome.1 = jobs.cleared moved ∧
    ∀ job ∈ moved, channels.Under jobs parent job
  flows : Flows outcome.1 parent (fun job => passed job ∨ job ∈ outcome.2.2) outcome.2.1
  names : outcome.2.1.names = channels.names
  new : ∀ job ∈ outcome.2.2, ¬ passed job
  under : ∀ job ∈ outcome.2.2, channels.Under jobs parent job
  unset : ∀ job ∈ outcome.2.2, (outcome.1 job).eta = none
  nodup : outcome.2.2.Nodup

theorem under_cleared (moved : Finset JobId) (job : JobId) :
    channels.Under (jobs.cleared moved) parent job ↔ channels.Under jobs parent job := by
  unfold Under
  rw [Jobs.channel_cleared]

theorem under_congr {again : Channels} (same : again.names = channels.names) (job : JobId) :
    again.Under jobs parent job ↔ channels.Under jobs parent job := by
  unfold Under
  rw [same]

/-- The jobs that the children deliver are new to the channel. -/
theorem Delivered.sound_enqueue {path : Path} {channel : Channel} {children : Channels}
    {below : Jobs × Channels × List JobId} (sound : channel.Sound jobs path)
    (delivered : Delivered jobs path channel.Has children below) :
    (channel.enqueue below.1 below.2.2).Sound below.1 path := by
  obtain ⟨moved, store, movedUnder⟩ := delivered.store
  -- the etas that the children cleared are those of jobs of their own
  have elsewhere : ∀ job ∈ moved, (jobs job).channel ≠ path :=
    fun job member own => not_under_of_own own (movedUnder job member)
  have upstream : ∀ job ∈ below.2.2, path <+: (below.1 job).channel ∧
      (below.1 job).channel ≠ path := fun job member => by
    rw [store, Jobs.channel_cleared]
    have under := delivered.under job member
    exact ⟨within_of_under under, fun own => not_under_of_own own under⟩
  have soundBelow : channel.Sound below.1 path := store ▸ sound.cleared elsewhere
  exact soundBelow.enqueue delivered.unset delivered.new upstream

/-- One channel, once its children have delivered. -/
theorem delivered_channel {name : Name} {channel : Channel} {children : Channels}
    {below : Jobs × Channels × List JobId}
    (flows : Flows jobs parent passed (.cons name channel children .nil))
    (delivered : Delivered jobs (parent ++ [name]) channel.Has children below) :
    Delivered jobs parent passed (.cons name channel children .nil)
      (((channel.enqueue below.1 below.2.2).dispatch now below.1).1,
        .cons name ((channel.enqueue below.1 below.2.2).dispatch now below.1).2.1 below.2.1 .nil,
        ((channel.enqueue below.1 below.2.2).dispatch now below.1).2.2) := by
  cases flows with
  | cons sound running arrived _ flowsBelow _ =>
      have soundHere := delivered.sound_enqueue sound
      obtain ⟨⟨first, store, firstUnder⟩, belowFlows, names, new, under, unset, _⟩ := delivered
      obtain ⟨moved, advances⟩ :=
        (channel.enqueue below.1 below.2.2).dispatch_advances now below.1
      generalize (channel.enqueue below.1 below.2.2).dispatch now below.1 = outcome
        at advances ⊢
      have movedOwn : ∀ job ∈ moved, (below.1 job).channel = parent ++ [name] :=
        fun job member => advances.moved_own soundHere member
      have enqueued := (@Channel.queue_enqueue _ channel below.2.2 unset).1
      have has : ∀ job, outcome.2.1.Has job ↔ channel.Has job ∨ job ∈ below.2.2 :=
        fun job => by
          rw [advances.has soundHere.keyed, Channel.Has, Channel.Has, enqueued]
          exact or_right_comm
      have yielded : ∀ job ∈ outcome.2.2, (channel.Has job ∨ job ∈ below.2.2) ∧
          job ∉ channel.running := fun job member => by
        have queued := advances.mem_queue_of_yielded member
        refine ⟨((enqueued job).mp queued).imp_left .inl, fun running => ?_⟩
        exact soundHere.runningApart job running queued
      have sameChannel : ∀ job, (outcome.1 job).channel = (jobs job).channel := fun job => by
        rw [advances.store, Jobs.channel_cleared, store, Jobs.channel_cleared]
      have withinYielded : ∀ job ∈ outcome.2.2, parent ++ [name] <+: (jobs job).channel :=
        fun job member => by
          rcases (yielded job member).1 with has | arrives
          · exact sound.within job (.inl has)
          · exact within_of_under (under job arrives)
      refine ⟨⟨first ∪ moved, ?_, fun job member => ?_⟩, ?_, rfl, fun job member => ?_,
        fun job member => ?_, fun job member => ?_, advances.ready.nodup⟩
      · rw [advances.store, store, Jobs.cleared_cleared]
      · refine Under.cons.mpr (.inl ?_)
        rcases Finset.mem_union.mp member with member | member
        · exact within_of_under (firstUnder job member)
        · have own := movedOwn job member
          rw [store, Jobs.channel_cleared] at own
          exact own ▸ List.prefix_rfl
      · refine .cons (advances.sound soundHere) (fun job within => ?_) (fun job present => ?_)
          List.not_mem_nil ?_ .nil
        · rw [sameChannel] at within
          rw [advances.running, Finset.mem_union, List.mem_toFinset]
          exact or_congr_left (running job within)
        · rw [sameChannel]
          rcases (has job).mp present with present | arrives
          · refine (arrived job present).imp_right fun underHere => ?_
            unfold Under at underHere ⊢
            rw [names, sameChannel]
            exact underHere
          · refine .inr ?_
            have underHere := under job arrives
            unfold Under at underHere ⊢
            rw [names, sameChannel]
            exact underHere
        · rw [advances.store]
          refine Flows.congr_passed (Flows.cleared belowFlows fun job member => ?_)
            fun job _ => (has job).symm
          exact not_under_of_own (movedOwn job member)
      · exact fun before => (yielded job member).2
          ((running job (withinYielded job member)).mpr before)
      · exact Under.cons.mpr (.inl (withinYielded job member))
      · exact advances.eta_yielded soundHere.keyed member

/-- The first channel of a list and the others deliver independently. -/
theorem delivered_siblings {name : Name} {channel : Channel} {children siblings : Channels}
    {here : Jobs × Channels × List JobId} {advanced : Channel} {below : Channels}
    (single : here.2.1 = .cons name advanced below .nil)
    (distinct : name ∉ siblings.names)
    (first : Delivered jobs parent passed (.cons name channel children .nil) here)
    {others : Jobs × Channels × List JobId}
    (second : Delivered here.1 parent passed siblings others) :
    Delivered jobs parent passed (.cons name channel children siblings)
      (others.1, .cons name advanced below others.2.1, here.2.2 ++ others.2.2) := by
  obtain ⟨⟨firstMoved, firstStore, firstMovedUnder⟩, firstFlows, _, firstNew, firstUnder,
    firstUnset, firstNodup⟩ := first
  obtain ⟨⟨secondMoved, secondStore, secondMovedUnder⟩, secondFlows, names, secondNew,
    secondUnder, secondUnset, secondNodup⟩ := second
  have within : ∀ {job}, Under jobs parent (.cons name channel children .nil) job →
      parent ++ [name] <+: (jobs job).channel := fun under =>
    (Under.cons.mp under).resolve_right not_under_nil
  have secondHere : ∀ {job}, siblings.Under here.1 parent job →
      siblings.Under jobs parent job := fun under => by
    rw [firstStore, under_cleared] at under
    exact under
  have apart : ∀ {job}, siblings.Under jobs parent job →
      ¬ parent ++ [name] <+: (jobs job).channel := fun under here =>
    not_under_of_distinct distinct here under
  refine ⟨⟨firstMoved ∪ secondMoved, ?_, fun job member => ?_⟩, ?_, ?_, fun job member => ?_,
    fun job member => ?_, fun job member => ?_, ?_⟩
  · rw [secondStore, firstStore, Jobs.cleared_cleared]
  · rcases Finset.mem_union.mp member with member | member
    · exact Under.cons.mpr (.inl (within (firstMovedUnder job member)))
    · exact Under.cons.mpr (.inr (secondHere (secondMovedUnder job member)))
  · refine flows_cons_iff.mpr ⟨?_, names ▸ distinct, ?_⟩
    · rw [single] at firstFlows
      rw [secondStore]
      have elsewhere : ∀ job ∈ secondMoved,
          ¬ Under here.1 parent (.cons name advanced below .nil) job := fun job member under => by
        have sibling := secondHere (secondMovedUnder job member)
        rw [firstStore, under_cleared] at under
        exact apart sibling ((Under.cons.mp under).resolve_right not_under_nil)
      refine (firstFlows.cleared elsewhere).congr_passed fun job under => ?_
      rw [firstStore, under_cleared, under_cleared] at under
      have own := (Under.cons.mp under).resolve_right not_under_nil
      have other : job ∉ others.2.2 := fun member => apart (secondHere (secondUnder job member)) own
      simp only [List.mem_append, other, or_false]
    · refine secondFlows.congr_passed fun job under => ?_
      have sibling := secondHere ((under_congr names job).mp (by
        rw [secondStore, under_cleared] at under
        exact under))
      have other : job ∉ here.2.2 := fun member =>
        apart sibling (within (firstUnder job member))
      simp only [List.mem_append, other, false_or]
  · rw [Channels.names, Channels.names, names]
  · rcases List.mem_append.mp member with member | member
    · exact firstNew job member
    · exact secondNew job member
  · rcases List.mem_append.mp member with member | member
    · exact Under.cons.mpr (.inl (within (firstUnder job member)))
    · exact Under.cons.mpr (.inr (secondHere (secondUnder job member)))
  · rcases List.mem_append.mp member with member | member
    · rw [secondStore, Jobs.eta_cleared, firstUnset job member, ite_self]
    · exact secondUnset job member
  · refine List.nodup_append.mpr ⟨firstNodup, secondNodup, ?_⟩
    rintro job member other second rfl
    exact apart (secondHere (secondUnder job second)) (within (firstUnder job member))

/-- Asking the channels for the jobs they can run keeps the flow: the jobs they yield
are the ones their parent has in addition. -/
theorem getJobsToRun_delivered (flows : Flows jobs parent passed channels) :
    Delivered jobs parent passed channels (channels.getJobsToRun now jobs) := by
  induction channels generalizing jobs parent passed with
  | nil =>
      exact ⟨⟨∅, rfl, fun _ absent => absurd absent (Finset.notMem_empty _)⟩, .nil, rfl,
        fun _ absent => absurd absent List.not_mem_nil,
        fun _ absent => absurd absent List.not_mem_nil,
        fun _ absent => absurd absent List.not_mem_nil, List.nodup_nil⟩
  | cons name channel children siblings belowIh besideIh =>
      obtain ⟨single, distinct, beside⟩ := flows_cons_iff.mp flows
      cases flows with
      | cons _ _ _ _ below _ =>
          have here := @delivered_channel _ _ _ now _ _ _ _ single (belowIh below)
          obtain ⟨moved, store, under⟩ := here.store
          refine delivered_siblings rfl distinct here (besideIh ?_)
          simp only at store
          rw [store]
          refine beside.cleared fun job member sibling => ?_
          exact not_under_of_distinct distinct
            ((Under.cons.mp (under job member)).resolve_right not_under_nil) sibling

end Channels

end WorkflowStudio.Queue
