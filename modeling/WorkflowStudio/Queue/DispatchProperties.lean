import WorkflowStudio.Queue.Channels

/-! What the operations on the queue of a channel do to the jobs in it: those that are
ready and those that wait for their eta. -/

set_option autoImplicit false

namespace WorkflowStudio.Queue

open Lib PriorityQueue

namespace Jobs

/-- The jobs after the etas of some of them are cleared. -/
def cleared (jobs : Jobs) (ripe : Finset JobId) : Jobs := fun job =>
  if job ∈ ripe then { jobs job with eta := none, moment := no_eta }
  else jobs job

variable (jobs : Jobs) (ripe : Finset JobId)

theorem cleared_of_notMem {job : JobId} (absent : job ∉ ripe) :
    jobs.cleared ripe job = jobs job := by
  rw [cleared, if_neg absent]

theorem eta_cleared (job : JobId) :
    (jobs.cleared ripe job).eta = if job ∈ ripe then none else (jobs job).eta := by
  unfold cleared
  split <;> rfl

@[simp] theorem channel_cleared (job : JobId) :
    (jobs.cleared ripe job).channel = (jobs job).channel := by
  unfold cleared
  split <;> rfl

@[simp] theorem uuid_cleared (job : JobId) :
    (jobs.cleared ripe job).uuid = (jobs job).uuid := by
  unfold cleared
  split <;> rfl

@[simp] theorem dbName_cleared (job : JobId) :
    (jobs.cleared ripe job).dbName = (jobs job).dbName := by
  unfold cleared
  split <;> rfl

@[simp] theorem seq_cleared (job : JobId) :
    (jobs.cleared ripe job).seq = (jobs job).seq := by
  unfold cleared
  split <;> rfl

@[simp] theorem priority_cleared (job : JobId) :
    (jobs.cleared ripe job).priority = (jobs job).priority := by
  unfold cleared
  split <;> rfl

@[simp] theorem dateCreated_cleared (job : JobId) :
    (jobs.cleared ripe job).dateCreated = (jobs job).dateCreated := by
  unfold cleared
  split <;> rfl

@[simp] theorem key_cleared (job : JobId) :
    (jobs.cleared ripe).sortingKeyIgnoringEta job = jobs.sortingKeyIgnoringEta job := by
  unfold sortingKeyIgnoringEta cleared
  split <;> rfl

theorem keys_cleared :
    (jobs.cleared ripe).sortingKeyIgnoringEta = jobs.sortingKeyIgnoringEta :=
  funext (key_cleared jobs ripe)

@[simp] theorem cleared_empty : jobs.cleared ∅ = jobs := rfl

theorem setNoEta_eq (job : JobId) : jobs.setNoEta job = jobs.cleared {job} := by
  funext other
  simp only [setNoEta, cleared, Finset.mem_singleton]

theorem cleared_cleared (more : Finset JobId) :
    (jobs.cleared ripe).cleared more = jobs.cleared (ripe ∪ more) := by
  funext job
  unfold cleared
  by_cases first : job ∈ ripe
  · by_cases second : job ∈ more
    · simp [first, second]
    · simp [first, second]
  · by_cases second : job ∈ more
    · simp [first, second]
    · simp [first, second]

variable {jobs}

theorem eta_le_of_sortingKey_le {job other : JobId}
    (least : jobs.sortingKey job ≤ jobs.sortingKey other) :
    (jobs job).eta.getD 0 ≤ (jobs other).eta.getD 0 := by
  rcases Prod.Lex.le_iff.mp least with smaller | ⟨same, _⟩
  · exact le_of_lt smaller
  · exact le_of_eq same

end Jobs

namespace ChannelQueue

/-- The jobs in the queue. -/
def objects (queue : ChannelQueue) : Finset JobId :=
  queue.queue.objects ∪ queue.etaQueue.objects

theorem mem_objects {queue : ChannelQueue} {job : JobId} :
    job ∈ queue.objects ↔ job ∈ queue.queue.objects ∨ job ∈ queue.etaQueue.objects :=
  Finset.mem_union

theorem contains_iff {queue : ChannelQueue} {job : JobId} :
    queue.contains job = true ↔ job ∈ queue.objects := by
  rw [contains, Bool.or_eq_true, PriorityQueue.contains_iff, PriorityQueue.contains_iff,
    mem_objects, or_comm]

/-- The jobs among which a queue compares: no job without an eta is ever compared with
one that has an eta. -/
structure Keyed (jobs : Jobs) (queue : ChannelQueue) : Prop where
  etaSet : ∀ job ∈ queue.etaQueue.known, (jobs job).eta ≠ none
  etaUnset : ∀ job ∈ queue.queue.known, (jobs job).eta = none

@[simp] theorem objects_add (jobs : Jobs) (queue : ChannelQueue) (job : JobId) :
    (queue.add jobs job).objects = insert job queue.objects := by
  ext other
  rw [Finset.mem_insert, mem_objects, mem_objects]
  unfold add
  split
  · rw [PriorityQueue.objects_add, Finset.mem_insert]
    tauto
  · rw [PriorityQueue.objects_add, Finset.mem_insert]
    tauto

@[simp] theorem objects_remove (queue : ChannelQueue) (job : JobId) :
    (queue.remove job).objects = queue.objects.erase job := by
  ext other
  rw [Finset.mem_erase, mem_objects, mem_objects]
  simp only [remove, PriorityQueue.objects_remove, Finset.mem_erase]
  tauto

theorem Keyed.add {jobs : Jobs} {queue : ChannelQueue} (keyed : Keyed jobs queue)
    (job : JobId) : Keyed jobs (queue.add jobs job) := by
  unfold ChannelQueue.add
  cases eta : (jobs job).eta with
  | none =>
      refine ⟨keyed.etaSet, fun other member => ?_⟩
      simp only [Option.isSome_none, Bool.false_eq_true, if_false, known_add,
        Finset.mem_insert] at member
      rcases member with rfl | member
      · exact eta
      · exact keyed.etaUnset other member
  | some moment =>
      refine ⟨fun other member => ?_, keyed.etaUnset⟩
      simp only [Option.isSome_some, if_true, known_add, Finset.mem_insert] at member
      rcases member with rfl | member
      · exact eta ▸ Option.some_ne_none moment
      · exact keyed.etaSet other member

theorem Keyed.remove {jobs : Jobs} {queue : ChannelQueue} (keyed : Keyed jobs queue)
    (job : JobId) : Keyed jobs (queue.remove job) := by
  refine ⟨fun other member => ?_, fun other member => ?_⟩
  · exact keyed.etaSet other (known_remove queue.etaQueue job ▸ member)
  · exact keyed.etaUnset other (known_remove queue.queue job ▸ member)

/-- The jobs with an eta that is past. -/
def ripe (now : Time) (jobs : Jobs) (queue : ChannelQueue) : Finset JobId :=
  queue.etaQueue.objects.filter fun job => (jobs job).eta.getD 0 ≤ now

theorem mem_ripe {now : Time} {jobs : Jobs} {queue : ChannelQueue} {job : JobId} :
    job ∈ queue.ripe now jobs ↔
      job ∈ queue.etaQueue.objects ∧ (jobs job).eta.getD 0 ≤ now :=
  Finset.mem_filter

/-- What looking at the first job with an eta gives, and what it leaves. -/
structure Looked (jobs : Jobs) (queue : ChannelQueue) (answer : Option JobId)
    (after : ChannelQueue) : Prop where
  ready : after.queue = queue.queue
  sequential : after.sequential = queue.sequential
  objects : after.etaQueue.objects = queue.etaQueue.objects
  known : after.etaQueue.known ⊆ queue.etaQueue.known
  nobody : answer = none → queue.etaQueue.objects = ∅
  least : ∀ job, answer = some job → LeastIn jobs.sortingKey queue.etaQueue.objects job

theorem firstEta_looked (jobs : Jobs) (queue : ChannelQueue) :
    Looked jobs queue (queue.firstEta jobs).1 (queue.firstEta jobs).2 := by
  unfold firstEta
  by_cases empty : queue.etaQueue.length = 0
  · rw [if_pos empty]
    have none : queue.etaQueue.objects = ∅ := by
      rwa [PriorityQueue.length_eq, Finset.card_eq_zero] at empty
    exact ⟨rfl, rfl, rfl, Finset.Subset.refl _, fun _ => none,
      fun _ absent => (Option.some_ne_none _ absent.symm).elim⟩
  · rw [if_neg empty]
    have looks := queue.etaQueue.top_looks jobs.sortingKey
    exact ⟨rfl, rfl, looks.objects, looks.known, looks.none, looks.some⟩

/-- What `ripen` has done once every job with a past eta is among those that are ready. -/
structure Ripened (now : Time) (jobs : Jobs) (queue : ChannelQueue)
    (outcome : Jobs × ChannelQueue) : Prop where
  store : outcome.1 = jobs.cleared (queue.ripe now jobs)
  ready : outcome.2.queue.objects = queue.queue.objects ∪ queue.ripe now jobs
  waiting : outcome.2.etaQueue.objects = queue.etaQueue.objects \ queue.ripe now jobs
  known : outcome.2.queue.known ⊆ queue.queue.known ∪ queue.ripe now jobs
  etaKnown : outcome.2.etaQueue.known ⊆ queue.etaQueue.known \ queue.ripe now jobs
  sequential : outcome.2.sequential = queue.sequential

/-- Nothing is ripe: the first job with an eta, if there is one, is still to come. -/
theorem Looked.ripened {now : Time} {jobs : Jobs} {queue after : ChannelQueue}
    {answer : Option JobId} (looked : Looked jobs queue answer after)
    (future : ∀ job, answer = some job → ¬ (jobs job).eta.getD 0 ≤ now) :
    Ripened now jobs queue (jobs, after) := by
  have none : queue.ripe now jobs = ∅ := by
    refine Finset.eq_empty_of_forall_notMem fun job member => ?_
    obtain ⟨waits, past⟩ := mem_ripe.mp member
    cases first : answer with
    | none =>
        rw [looked.nobody first] at waits
        exact Finset.notMem_empty job waits
    | some first' =>
        have least := (looked.least first' first).2 job waits
        exact future first' first ((Jobs.eta_le_of_sortingKey_le least).trans past)
  refine ⟨?_, ?_, ?_, ?_, ?_, looked.sequential⟩
  · rw [none, Jobs.cleared_empty]
  · rw [none, Finset.union_empty, looked.ready]
  · rw [none, Finset.sdiff_empty, looked.objects]
  · rw [none, Finset.union_empty, looked.ready]
  · rw [none, Finset.sdiff_empty]
    exact looked.known

/-- A job whose eta is past goes over to those that are ready. -/
theorem Ripened.step {now : Time} {jobs : Jobs} {queue : ChannelQueue} {job : JobId}
    {etaQueue : PriorityQueue JobId} {outcome : Jobs × ChannelQueue}
    (past : (jobs job).eta.getD 0 ≤ now) (member : job ∈ queue.etaQueue.objects)
    (left : etaQueue.objects = queue.etaQueue.objects.erase job)
    (known : etaQueue.known ⊆ queue.etaQueue.known.erase job)
    (later : Ripened now (jobs.setNoEta job)
      { queue with etaQueue, queue := queue.queue.add job } outcome) :
    Ripened now jobs queue outcome := by
  have rest : ∀ other, other ∈ ripe now (jobs.setNoEta job)
      { queue with etaQueue, queue := queue.queue.add job } ↔
      other ≠ job ∧ other ∈ queue.ripe now jobs := by
    intro other
    rw [mem_ripe, mem_ripe, left, Finset.mem_erase, Jobs.setNoEta_eq]
    constructor
    · rintro ⟨⟨different, waits⟩, etaPast⟩
      rw [Jobs.cleared_of_notMem _ _ (Finset.notMem_singleton.mpr different)] at etaPast
      exact ⟨different, waits, etaPast⟩
    · rintro ⟨different, waits, etaPast⟩
      rw [Jobs.cleared_of_notMem _ _ (Finset.notMem_singleton.mpr different)]
      exact ⟨⟨different, waits⟩, etaPast⟩
  have here : job ∈ queue.ripe now jobs := mem_ripe.mpr ⟨member, past⟩
  have whole : {job} ∪ ripe now (jobs.setNoEta job)
      { queue with etaQueue, queue := queue.queue.add job } = queue.ripe now jobs := by
    ext other
    rw [Finset.mem_union, Finset.mem_singleton, rest]
    by_cases same : other = job
    · simp [same, here]
    · simp [same]
  refine ⟨?_, ?_, ?_, ?_, ?_, later.sequential⟩
  · rw [later.store, Jobs.setNoEta_eq, Jobs.cleared_cleared, ← whole, Jobs.setNoEta_eq]
  · rw [later.ready, ← whole, PriorityQueue.objects_add, Finset.insert_union,
      Finset.insert_eq, Finset.union_left_comm]
  · rw [later.waiting, ← whole, left]
    ext other
    simp only [Finset.mem_sdiff, Finset.mem_erase, Finset.mem_union, Finset.mem_singleton]
    tauto
  · rw [← whole, Finset.union_left_comm]
    refine later.known.trans ?_
    rw [known_add, Finset.insert_union, Finset.insert_eq]
  · rw [← whole]
    intro other member
    have kept := Finset.mem_sdiff.mp (later.etaKnown member)
    have stays := Finset.mem_erase.mp (known kept.1)
    rw [Finset.mem_sdiff, Finset.mem_union, Finset.mem_singleton]
    exact ⟨stays.2, fun taken => taken.elim stays.1 kept.2⟩

theorem ripen_ripened {now : Time} (rounds : Nat) (jobs : Jobs) (queue : ChannelQueue)
    (enough : queue.etaQueue.objects.card < rounds) :
    Ripened now jobs queue (queue.ripen now rounds jobs) := by
  induction rounds generalizing jobs queue with
  | zero => exact absurd enough (Nat.not_lt_zero _)
  | succ rounds ih =>
      have looked := queue.firstEta_looked jobs
      rw [ripen]
      generalize queue.firstEta jobs = first at looked ⊢
      obtain ⟨answer, after⟩ := first
      cases answer with
      | none => exact looked.ripened fun _ absent => (Option.some_ne_none _ absent.symm).elim
      | some first =>
          simp only
          by_cases past : (jobs first).eta.getD 0 ≤ now
          · rw [if_pos past]
            have takes := after.etaQueue.pop_takes jobs.sortingKey
            generalize after.etaQueue.pop jobs.sortingKey = popped at takes ⊢
            obtain ⟨taken, etaQueue⟩ := popped
            have least := looked.least first rfl
            cases takes with
            | none empty _ _ =>
                rw [looked.objects] at empty
                exact absurd least.1 (empty ▸ Finset.notMem_empty first)
            | @some etaJob _ leastEta left known =>
                simp only
                rw [looked.objects] at leastEta left
                have etaPast : (jobs etaJob).eta.getD 0 ≤ now :=
                  (Jobs.eta_le_of_sortingKey_le (leastEta.2 first least.1)).trans past
                have fewer : etaQueue.objects.card < rounds := by
                  rw [left, Finset.card_erase_of_mem leastEta.1]
                  have inhabited := Finset.card_pos.mpr ⟨_, leastEta.1⟩
                  omega
                refine Ripened.step etaPast leastEta.1 left
                  (known.trans (Finset.erase_subset_erase _ looked.known)) ?_
                have later := ih (jobs.setNoEta etaJob)
                  { after with etaQueue, queue := after.queue.add etaJob } fewer
                rw [looked.ready, looked.sequential] at later ⊢
                exact later
          · rw [if_neg past]
            refine looked.ripened fun job answer => ?_
            cases answer
            exact past

/-- The queue is sequential, and its first job with an eta sorts before all that are
ready. -/
def Held (jobs : Jobs) (queue : ChannelQueue) : Prop :=
  queue.sequential = true ∧ queue.queue.objects ≠ ∅ ∧
    ∃ etaJob, LeastIn jobs.sortingKey queue.etaQueue.objects etaJob ∧
      ∀ job ∈ queue.queue.objects,
        jobs.sortingKeyIgnoringEta etaJob < jobs.sortingKeyIgnoringEta job

structure Waited (jobs : Jobs) (queue : ChannelQueue) (outcome : Bool × ChannelQueue) :
    Prop where
  ready : outcome.2.queue.objects = queue.queue.objects
  waiting : outcome.2.etaQueue.objects = queue.etaQueue.objects
  known : outcome.2.queue.known ⊆ queue.queue.known
  etaKnown : outcome.2.etaQueue.known ⊆ queue.etaQueue.known
  sequential : outcome.2.sequential = queue.sequential
  held : outcome.1 = true ↔ queue.Held jobs

/-- Jobs with one key and one eta are the same for the other jobs. -/
theorem key_eq_of_sortingKey_eq {jobs : Jobs} {job other : JobId}
    (same : jobs.sortingKey job = jobs.sortingKey other) :
    jobs.sortingKeyIgnoringEta job = jobs.sortingKeyIgnoringEta other :=
  congrArg (fun key => (ofLex key).2) same

theorem waits_waited (jobs : Jobs) (queue : ChannelQueue) :
    Waited jobs queue (queue.waits jobs) := by
  unfold waits
  split
  · rename_i condition
    rw [Bool.and_eq_true, Bool.and_eq_true, decide_eq_true_eq, decide_eq_true_eq] at condition
    have etaLooks := queue.etaQueue.top_looks jobs.sortingKey
    have looks := queue.queue.top_looks jobs.sortingKeyIgnoringEta
    have filled : ∀ objects : PriorityQueue JobId, objects.length ≠ 0 → objects.objects ≠ ∅ :=
      fun objects long empty => long (by rw [PriorityQueue.length_eq, empty, Finset.card_empty])
    have ready := filled queue.queue condition.2
    cases etaFirst : (queue.etaQueue.top jobs.sortingKey).1 with
    | none => exact absurd (etaLooks.none etaFirst) (filled queue.etaQueue condition.1.2)
    | some etaJob =>
        cases first : (queue.queue.top jobs.sortingKeyIgnoringEta).1 with
        | none => exact absurd (looks.none first) ready
        | some job =>
            simp only [etaFirst, first]
            have least := etaLooks.some etaJob etaFirst
            have leastReady := looks.some job first
            refine ⟨looks.objects, etaLooks.objects, looks.known, etaLooks.known, rfl, ?_⟩
            rw [decide_eq_true_eq]
            constructor
            · intro before
              refine ⟨condition.1.1, ready, etaJob, least, fun other member => ?_⟩
              exact before.trans_le (leastReady.2 other member)
            · rintro ⟨_, _, other, otherLeast, before⟩
              have same := le_antisymm (least.2 other otherLeast.1) (otherLeast.2 etaJob least.1)
              rw [key_eq_of_sortingKey_eq same]
              exact before job leastReady.1
  · rename_i condition
    refine ⟨rfl, rfl, Finset.Subset.refl _, Finset.Subset.refl _, rfl, ?_⟩
    refine iff_of_false Bool.false_ne_true ?_
    rintro ⟨sequential, ready, etaJob, least, _⟩
    apply condition
    rw [Bool.and_eq_true, Bool.and_eq_true, decide_eq_true_eq, decide_eq_true_eq,
      PriorityQueue.length_eq, PriorityQueue.length_eq]
    refine ⟨⟨sequential, fun none => ?_⟩, fun none => ready (Finset.card_eq_zero.mp none)⟩
    rw [Finset.card_eq_zero.mp none] at least
    exact Finset.notMem_empty etaJob least.1

/-- What `pop` does: the jobs whose eta is past are ready too, and the first of those
that are ready is taken, unless the queue is held. -/
structure Popped (now : Time) (jobs : Jobs) (queue : ChannelQueue)
    (outcome : Jobs × Option JobId × ChannelQueue) : Prop where
  store : outcome.1 = jobs.cleared (queue.ripe now jobs)
  waiting : outcome.2.2.etaQueue.objects = queue.etaQueue.objects \ queue.ripe now jobs
  known : outcome.2.2.queue.known ⊆ queue.queue.known ∪ queue.ripe now jobs
  etaKnown : outcome.2.2.etaQueue.known ⊆ queue.etaQueue.known \ queue.ripe now jobs
  sequential : outcome.2.2.sequential = queue.sequential
  idle : outcome.2.1 = none →
    outcome.2.2.queue.objects = queue.queue.objects ∪ queue.ripe now jobs ∧
      (outcome.2.2.queue.objects = ∅ ∨ outcome.2.2.Held outcome.1)
  taken : ∀ job, outcome.2.1 = some job →
    LeastIn jobs.sortingKeyIgnoringEta (queue.queue.objects ∪ queue.ripe now jobs) job ∧
      outcome.2.2.queue.objects = (queue.queue.objects ∪ queue.ripe now jobs).erase job
  asleep : queue.ripe now jobs = ∅ → queue.queue.objects = ∅ ∨ queue.Held jobs →
    outcome.2.1 = none

theorem Held.congr {jobs : Jobs} {queue other : ChannelQueue} (held : queue.Held jobs)
    (ready : other.queue.objects = queue.queue.objects)
    (waiting : other.etaQueue.objects = queue.etaQueue.objects)
    (sequential : other.sequential = queue.sequential) : other.Held jobs := by
  unfold Held
  rw [ready, waiting, sequential]
  exact held

theorem pop_popped (now : Time) (jobs : Jobs) (queue : ChannelQueue) :
    Popped now jobs queue (queue.pop now jobs) := by
  have enough : queue.etaQueue.objects.card < queue.etaQueue.length + 1 := by
    rw [PriorityQueue.length_eq]
    exact Nat.lt_succ_self _
  have ripened := @ripen_ripened now _ jobs queue enough
  unfold pop
  generalize queue.ripen now (queue.etaQueue.length + 1) jobs = ripe at ripened ⊢
  have waited := ripe.2.waits_waited ripe.1
  simp only
  generalize ripe.2.waits ripe.1 = outcome at waited ⊢
  obtain ⟨holds, after⟩ := outcome
  have waiting := waited.waiting.trans ripened.waiting
  have ready := waited.ready.trans ripened.ready
  have known := waited.known.trans ripened.known
  have etaKnown := waited.etaKnown.trans ripened.etaKnown
  have sequential := waited.sequential.trans ripened.sequential
  cases holds with
  | true =>
      refine ⟨ripened.store, waiting, known, etaKnown, sequential, ?_,
        fun _ absent => (Option.some_ne_none _ absent.symm).elim, fun _ _ => rfl⟩
      intro _
      exact ⟨ready, .inr ((waited.held.mp rfl).congr waited.ready waited.waiting waited.sequential)⟩
  | false =>
      simp only [Bool.false_eq_true, if_false]
      have takes := after.queue.pop_takes ripe.1.sortingKeyIgnoringEta
      generalize after.queue.pop ripe.1.sortingKeyIgnoringEta = popped at takes ⊢
      obtain ⟨taken, rest⟩ := popped
      cases takes with
      | none empty left knownLeft =>
          refine ⟨ripened.store, waiting, knownLeft.trans known, etaKnown, sequential, ?_,
            fun _ absent => (Option.some_ne_none _ absent.symm).elim, fun _ _ => rfl⟩
          intro _
          exact ⟨left.trans (empty.symm.trans ready), .inl left⟩
      | @some job _ least left knownLeft =>
          refine ⟨ripened.store, waiting, ?_, etaKnown, sequential,
            fun absent => (Option.some_ne_none _ absent).elim, ?_, fun none empty => ?_⟩
          · exact (knownLeft.trans (Finset.erase_subset _ _)).trans known
          · intro other answer
            cases answer
            rw [ready, ripened.store, Jobs.keys_cleared] at least
            exact ⟨least, ready ▸ left⟩
          · rw [none, Finset.union_empty] at ready
            rcases empty with empty | held
            · rw [ready, empty] at least
              exact absurd least.1 (Finset.notMem_empty job)
            · have unripened := ripened.ready
              have unchanged := ripened.waiting
              have store := ripened.store
              rw [none, Finset.union_empty] at unripened
              rw [none, Finset.sdiff_empty] at unchanged
              rw [none, Jobs.cleared_empty] at store
              have still := held.congr unripened unchanged ripened.sequential
              rw [← store] at still
              exact absurd (waited.held.mpr still) Bool.false_ne_true

end ChannelQueue

end WorkflowStudio.Queue

/-! What one channel does when it is asked for the jobs that it can run. -/

namespace WorkflowStudio.Queue

open Lib PriorityQueue

namespace ChannelQueue

/-- Nothing can be taken from the queue: the etas are all to come, and no job is ready
unless the queue is held. -/
def Exhausted (now : Time) (jobs : Jobs) (queue : ChannelQueue) : Prop :=
  (∀ job ∈ queue.etaQueue.objects, now < (jobs job).eta.getD 0) ∧
    (queue.queue.objects = ∅ ∨ queue.Held jobs)

theorem Popped.exhausted {now : Time} {jobs : Jobs} {queue : ChannelQueue}
    {outcome : Jobs × Option JobId × ChannelQueue} (popped : Popped now jobs queue outcome)
    (idle : outcome.2.1 = none) : outcome.2.2.Exhausted now outcome.1 := by
  refine ⟨fun job member => ?_, (popped.idle idle).2⟩
  rw [popped.waiting, Finset.mem_sdiff, mem_ripe] at member
  have future : ¬ (jobs job).eta.getD 0 ≤ now := fun past => member.2 ⟨member.1, past⟩
  rw [popped.store, Jobs.cleared_of_notMem _ _ fun ripe => future (mem_ripe.mp ripe).2]
  exact not_le.mp future

/-- Once the ripe jobs are ready, the queue has no ripe job left. -/
theorem Popped.ripe_empty {now : Time} {jobs : Jobs} {queue : ChannelQueue}
    {outcome : Jobs × Option JobId × ChannelQueue} (popped : Popped now jobs queue outcome) :
    outcome.2.2.ripe now outcome.1 = ∅ := by
  refine Finset.eq_empty_of_forall_notMem fun job member => ?_
  obtain ⟨waits, past⟩ := mem_ripe.mp member
  rw [popped.waiting, Finset.mem_sdiff] at waits
  rw [popped.store, Jobs.cleared_of_notMem _ _ waits.2] at past
  exact waits.2 (mem_ripe.mpr ⟨waits.1, past⟩)

end ChannelQueue

namespace Channel

theorem hasCapacity_congr {channel other : Channel} (sequential : other.sequential = channel.sequential)
    (failed : other.failed = channel.failed) (capacity : other.capacity = channel.capacity)
    (running : other.running.card = channel.running.card) :
    other.hasCapacity = channel.hasCapacity := by
  unfold hasCapacity
  rw [sequential, failed, capacity, running]

/-- A channel that has capacity has it for one job more. -/
theorem card_lt_of_hasCapacity {channel : Channel} {capacity : Int}
    (free : channel.hasCapacity = true) (limited : channel.capacity = some capacity)
    (positive : capacity ≠ 0) : (channel.running.card : Int) < capacity := by
  unfold hasCapacity at free
  rw [limited] at free
  split at free
  · exact absurd free Bool.false_ne_true
  · simpa [positive] using free

/-- How a channel is changed when it yields jobs, where the jobs in `moved` are those
whose eta turned out to be past. -/
structure Advances (now : Time) (jobs : Jobs) (channel : Channel) (moved : Finset JobId)
    (outcome : Jobs × Channel × List JobId) : Prop where
  moved_ripe : moved ⊆ channel.queue.ripe now jobs
  store : outcome.1 = jobs.cleared moved
  waiting : outcome.2.1.queue.etaQueue.objects = channel.queue.etaQueue.objects \ moved
  ready : LeastFirst jobs.sortingKeyIgnoringEta (channel.queue.queue.objects ∪ moved)
    outcome.2.2 outcome.2.1.queue.queue.objects
  known : outcome.2.1.queue.queue.known ⊆ channel.queue.queue.known ∪ moved
  etaKnown : outcome.2.1.queue.etaQueue.known ⊆ channel.queue.etaQueue.known \ moved
  sequential : outcome.2.1.sequential = channel.sequential
  running : outcome.2.1.running = channel.running ∪ outcome.2.2.toFinset
  failed : outcome.2.1.failed = channel.failed
  capacity : outcome.2.1.capacity = channel.capacity
  throttle : outcome.2.1.throttle = channel.throttle
  within : ∀ limit, channel.capacity = some limit → limit ≠ 0 →
    (channel.running.card : Int) ≤ max limit 0 →
      (outcome.2.1.running.card : Int) ≤ max limit 0

/-- The loop ends where the channel is full, where it has to pause, or where nothing can
be taken from its queue. -/
structure Yielded (now : Time) (jobs : Jobs) (channel : Channel) (moved : Finset JobId)
    (outcome : Jobs × Channel × List JobId) : Prop
    extends Advances now jobs channel moved outcome where
  pauseUntil : outcome.2.1.pauseUntil =
    if channel.throttle ≠ 0 ∧ outcome.2.2 ≠ [] then now + 1000000 * channel.throttle
    else channel.pauseUntil
  stopped : outcome.2.1.hasCapacity = false ∨ (channel.throttle ≠ 0 ∧ outcome.2.2 ≠ []) ∨
    outcome.2.1.queue.Exhausted now outcome.1

theorem advances_nothing (now : Time) (jobs : Jobs) (channel : Channel) :
    Advances now jobs channel ∅ (jobs, channel, []) where
  moved_ripe := Finset.empty_subset _
  store := rfl
  waiting := Finset.sdiff_empty.symm
  ready := by
    rw [Finset.union_empty]
    exact .done _
  known := Finset.subset_union_left
  etaKnown := by rw [Finset.sdiff_empty]
  sequential := rfl
  running := by rw [List.toFinset_nil, Finset.union_empty]
  failed := rfl
  capacity := rfl
  throttle := rfl
  within := fun _ _ _ least => least

theorem yielded_nothing (now : Time) (jobs : Jobs) {channel : Channel}
    (full : channel.hasCapacity = false) :
    Yielded now jobs channel ∅ (jobs, channel, []) where
  toAdvances := advances_nothing now jobs channel
  pauseUntil := by rw [if_neg fun condition => condition.2 rfl]
  stopped := .inl full

/-- The queue has nothing to yield. -/
theorem yielded_idle {now : Time} {jobs cleared : Jobs} {channel : Channel}
    {queue : ChannelQueue}
    (popped : ChannelQueue.Popped now jobs channel.queue (cleared, none, queue)) :
    Yielded now jobs channel (channel.queue.ripe now jobs)
      (cleared, { channel with queue }, []) where
  moved_ripe := Finset.Subset.refl _
  store := popped.store
  waiting := popped.waiting
  ready := by
    rw [(popped.idle rfl).1]
    exact .done _
  known := popped.known
  etaKnown := popped.etaKnown
  sequential := popped.sequential
  running := by rw [List.toFinset_nil, Finset.union_empty]
  failed := rfl
  capacity := rfl
  throttle := rfl
  pauseUntil := by rw [if_neg fun condition => condition.2 rfl]
  within := fun _ _ _ least => least
  stopped := .inr (.inr (popped.exhausted rfl))

/-- One job is taken, and the channel goes on or pauses. -/
theorem Yielded.step {now : Time} {jobs cleared : Jobs} {channel : Channel} {job : JobId}
    {queue : ChannelQueue} {outcome : Jobs × Channel × List JobId}
    (free : channel.hasCapacity = true)
    (popped : ChannelQueue.Popped now jobs channel.queue (cleared, some job, queue))
    (unthrottled : channel.throttle = 0)
    (later : Yielded now cleared (channel.start queue job) ∅ outcome) :
    Yielded now jobs channel (channel.queue.ripe now jobs)
      (outcome.1, outcome.2.1, job :: outcome.2.2) where
  moved_ripe := Finset.Subset.refl _
  store := later.store.trans popped.store
  waiting := (later.waiting.trans Finset.sdiff_empty).trans popped.waiting
  ready := by
    have rest := later.ready
    have store : cleared = jobs.cleared (channel.queue.ripe now jobs) := popped.store
    have taken := popped.taken job rfl
    rw [Finset.union_empty, store, Jobs.keys_cleared] at rest
    refine .take taken.1 ?_
    rw [← taken.2]
    exact rest
  known := by
    have known := later.known
    rw [Finset.union_empty] at known
    exact known.trans popped.known
  etaKnown := by
    have known := later.etaKnown
    rw [Finset.sdiff_empty] at known
    exact known.trans popped.etaKnown
  sequential := later.sequential.trans popped.sequential
  running := by
    have running := later.running
    rw [running, List.toFinset_cons, Finset.union_insert]
    exact Finset.insert_union job channel.running outcome.2.2.toFinset
  failed := later.failed
  capacity := later.capacity
  throttle := later.throttle
  pauseUntil := by
    have same := later.pauseUntil
    rw [if_neg fun condition => condition.1 unthrottled] at same
    rw [if_neg fun condition => condition.1 unthrottled]
    exact same
  within := fun limit limited positive _ => by
    refine later.within limit limited positive ?_
    have room := card_lt_of_hasCapacity free limited positive
    have grown := Finset.card_insert_le job channel.running
    change ((insert job channel.running).card : Int) ≤ max limit 0
    omega
  stopped := by
    rcases later.stopped with full | ⟨throttled, _⟩ | exhausted
    · exact .inl full
    · exact absurd unthrottled throttled
    · exact .inr (.inr exhausted)

/-- One job is taken, and the channel pauses. -/
theorem Yielded.pause {now : Time} {jobs cleared : Jobs} {channel : Channel} {job : JobId}
    {queue : ChannelQueue} (free : channel.hasCapacity = true)
    (popped : ChannelQueue.Popped now jobs channel.queue (cleared, some job, queue))
    (throttled : channel.throttle ≠ 0) :
    Yielded now jobs channel (channel.queue.ripe now jobs)
      (cleared, { channel.start queue job with pauseUntil := now + 1000000 * channel.throttle },
        [job]) where
  moved_ripe := Finset.Subset.refl _
  store := popped.store
  waiting := popped.waiting
  ready := by
    have taken := popped.taken job rfl
    refine .take taken.1 ?_
    rw [← taken.2]
    exact .done _
  known := popped.known
  etaKnown := popped.etaKnown
  sequential := popped.sequential
  running := by
    rw [List.toFinset_cons, List.toFinset_nil, Finset.union_insert, Finset.union_empty]
    rfl
  failed := rfl
  capacity := rfl
  throttle := rfl
  pauseUntil := by rw [if_pos ⟨throttled, List.cons_ne_nil _ _⟩]
  within := fun limit limited positive _ => by
    have room := card_lt_of_hasCapacity free limited positive
    have grown := Finset.card_insert_le job channel.running
    change ((insert job channel.running).card : Int) ≤ max limit 0
    omega
  stopped := .inr (.inl ⟨throttled, List.cons_ne_nil _ _⟩)

theorem yieldJobs_yielded {now : Time} (rounds : Nat) (jobs : Jobs) (channel : Channel)
    (enough : (channel.queue.queue.objects ∪ channel.queue.ripe now jobs).card < rounds) :
    ∃ moved, (channel.queue.ripe now jobs = ∅ → moved = ∅) ∧
      Yielded now jobs channel moved (channel.yieldJobs now rounds jobs) := by
  induction rounds generalizing jobs channel with
  | zero => exact absurd enough (Nat.not_lt_zero _)
  | succ rounds ih =>
      rw [yieldJobs]
      cases free : channel.hasCapacity with
      | false => exact ⟨∅, fun _ => rfl, by simpa using yielded_nothing now jobs free⟩
      | true =>
          have popped := channel.queue.pop_popped now jobs
          generalize channel.queue.pop now jobs = taken at popped ⊢
          obtain ⟨cleared, answer, queue⟩ := taken
          refine ⟨channel.queue.ripe now jobs, fun empty => empty, ?_⟩
          cases answer with
          | none => simpa using yielded_idle popped
          | some job =>
              by_cases throttled : channel.throttle ≠ 0
              · have paused := Yielded.pause free popped throttled
                simpa [throttled, start] using paused
              · rw [not_not] at throttled
                have left := popped.taken job rfl
                have none := popped.ripe_empty
                have fewer : ((channel.start queue job).queue.queue.objects ∪
                    (channel.start queue job).queue.ripe now cleared).card < rounds := by
                  change (queue.queue.objects ∪ queue.ripe now cleared).card < rounds
                  rw [none, Finset.union_empty, left.2, Finset.card_erase_of_mem left.1.1]
                  have inhabited := Finset.card_pos.mpr ⟨_, left.1.1⟩
                  omega
                obtain ⟨moved, empty, later⟩ := ih cleared (channel.start queue job) fewer
                rw [empty none] at later
                have whole := later.step free popped throttled
                simpa [throttled, start] using whole

/-! A pause does not touch the queue and the jobs of the channel. -/

@[simp] theorem queue_unpause (channel : Channel) : channel.unpause.queue = channel.queue := by
  unfold unpause
  split <;> rfl

@[simp] theorem running_unpause (channel : Channel) :
    channel.unpause.running = channel.running := by
  unfold unpause
  split <;> rfl

@[simp] theorem failed_unpause (channel : Channel) :
    channel.unpause.failed = channel.failed := by
  unfold unpause
  split <;> rfl

@[simp] theorem capacity_unpause (channel : Channel) :
    channel.unpause.capacity = channel.capacity := by
  unfold unpause
  split <;> rfl

@[simp] theorem throttle_unpause (channel : Channel) :
    channel.unpause.throttle = channel.throttle := by
  unfold unpause
  split <;> rfl

theorem dispatch_paused {now : Time} (jobs : Jobs) {channel : Channel}
    (paused : channel.paused now = true) :
    channel.dispatch now jobs = (jobs, channel, []) := by
  rw [dispatch, if_pos paused]

theorem dispatch_yielded {now : Time} (jobs : Jobs) {channel : Channel}
    (active : channel.paused now = false) :
    ∃ moved, Yielded now jobs channel.unpause moved (channel.dispatch now jobs) := by
  have enough : (channel.unpause.queue.queue.objects ∪
      channel.unpause.queue.ripe now jobs).card < channel.queue.length + 1 := by
    rw [queue_unpause, ChannelQueue.length, PriorityQueue.length_eq, PriorityQueue.length_eq]
    have both := Finset.card_union_le channel.queue.queue.objects (channel.queue.ripe now jobs)
    have ripe := Finset.card_filter_le channel.queue.etaQueue.objects
      fun job => (jobs job).eta.getD 0 ≤ now
    change (channel.queue.ripe now jobs).card ≤ _ at ripe
    omega
  obtain ⟨moved, _, yielded⟩ := yieldJobs_yielded _ jobs channel.unpause enough
  refine ⟨moved, ?_⟩
  rw [dispatch, active]
  exact yielded

/-- Whether the channel is paused or not, its jobs only move on. -/
theorem dispatch_advances (now : Time) (jobs : Jobs) (channel : Channel) :
    ∃ moved, Advances now jobs channel moved (channel.dispatch now jobs) := by
  cases paused : channel.paused now with
  | true =>
      rw [dispatch_paused jobs paused]
      exact ⟨∅, advances_nothing now jobs channel⟩
  | false =>
      obtain ⟨moved, yielded⟩ := dispatch_yielded jobs paused
      refine ⟨moved, ?_⟩
      have sequential : channel.unpause.sequential = channel.sequential := by
        rw [Channel.sequential, queue_unpause, Channel.sequential]
      have advances := yielded.toAdvances
      exact
        { moved_ripe := queue_unpause channel ▸ advances.moved_ripe
          store := advances.store
          waiting := queue_unpause channel ▸ advances.waiting
          ready := queue_unpause channel ▸ advances.ready
          known := queue_unpause channel ▸ advances.known
          etaKnown := queue_unpause channel ▸ advances.etaKnown
          sequential := advances.sequential.trans sequential
          running := running_unpause channel ▸ advances.running
          failed := failed_unpause channel ▸ advances.failed
          capacity := capacity_unpause channel ▸ advances.capacity
          throttle := throttle_unpause channel ▸ advances.throttle
          within := fun limit => by
            have within := advances.within limit
            rw [capacity_unpause, running_unpause] at within
            exact within }

namespace Advances

variable {now : Time} {jobs : Jobs} {channel : Channel} {moved : Finset JobId}
  {outcome : Jobs × Channel × List JobId}

/-- The jobs that are ready. -/
theorem mem_ready (advances : Advances now jobs channel moved outcome) {job : JobId} :
    job ∈ channel.queue.queue.objects ∪ moved → job ∈ channel.queue.objects := by
  intro member
  rcases Finset.mem_union.mp member with ready | ripe
  · exact ChannelQueue.mem_objects.mpr (.inl ready)
  · exact ChannelQueue.mem_objects.mpr
      (.inr (ChannelQueue.mem_ripe.mp (advances.moved_ripe ripe)).1)

theorem mem_queue_of_yielded (advances : Advances now jobs channel moved outcome) {job : JobId}
    (yielded : job ∈ outcome.2.2) : job ∈ channel.queue.objects :=
  advances.mem_ready (advances.ready.mem_taken yielded)

/-- Every job of the queue is still there or was yielded. -/
theorem mem_queue (advances : Advances now jobs channel moved outcome)
    (apart : ∀ job ∈ channel.queue.queue.objects, job ∉ channel.queue.etaQueue.objects)
    (job : JobId) :
    job ∈ outcome.2.1.queue.objects ↔ job ∈ channel.queue.objects ∧ job ∉ outcome.2.2 := by
  rw [ChannelQueue.mem_objects, ChannelQueue.mem_objects, advances.waiting,
    advances.ready.mem_left, Finset.mem_union, Finset.mem_sdiff]
  have ripe : job ∈ moved → job ∈ channel.queue.etaQueue.objects := fun member =>
    (ChannelQueue.mem_ripe.mp (advances.moved_ripe member)).1
  have ready := @LeastFirst.mem_taken _ _ _ _ _ _ _ _ advances.ready job
  have alone := apart job
  rw [Finset.mem_union] at ready
  tauto

theorem eta_yielded (advances : Advances now jobs channel moved outcome)
    (keyed : channel.queue.Keyed jobs) {job : JobId} (yielded : job ∈ outcome.2.2) :
    (outcome.1 job).eta = none := by
  rw [advances.store, Jobs.eta_cleared]
  rcases Finset.mem_union.mp (advances.ready.mem_taken yielded) with ready | ripe
  · rw [keyed.etaUnset job (mem_known_of_mem ready), ite_self]
  · rw [if_pos ripe]

theorem keyed (advances : Advances now jobs channel moved outcome)
    (keyed : channel.queue.Keyed jobs) : outcome.2.1.queue.Keyed outcome.1 := by
  refine ⟨fun job member => ?_, fun job member => ?_⟩
  · have stays := Finset.mem_sdiff.mp (advances.etaKnown member)
    rw [advances.store, Jobs.eta_cleared, if_neg stays.2]
    exact keyed.etaSet job stays.1
  · rw [advances.store, Jobs.eta_cleared]
    rcases Finset.mem_union.mp (advances.known member) with known | ripe
    · rw [keyed.etaUnset job known, ite_self]
    · rw [if_pos ripe]

end Advances

end Channel

namespace ChannelQueue

/-- No job is both among the ready ones and among those with an eta. -/
theorem Keyed.apart {jobs : Jobs} {queue : ChannelQueue} (keyed : queue.Keyed jobs) :
    ∀ job ∈ queue.queue.objects, job ∉ queue.etaQueue.objects := fun job ready waits =>
  keyed.etaSet job (mem_known_of_mem waits) (keyed.etaUnset job (mem_known_of_mem ready))

end ChannelQueue

end WorkflowStudio.Queue
