import WorkflowStudio.Queue.FlowProperties

/-! What a notification about a job does to the tree of channels: the job moves along
the path from its channel to the root, and every other job stays where it is. -/

set_option autoImplicit false

namespace WorkflowStudio.Queue

open Lib PriorityQueue

namespace ChannelQueue

theorem known_add_or {jobs : Jobs} {queue : ChannelQueue} {job other : JobId}
    (known : other ∈ (queue.add jobs job).queue.known ∨
      other ∈ (queue.add jobs job).etaQueue.known) :
    (other ∈ queue.queue.known ∨ other ∈ queue.etaQueue.known) ∨ other = job := by
  unfold add at known
  split at known
  · rw [known_add, Finset.mem_insert] at known
    tauto
  · rw [known_add, Finset.mem_insert] at known
    tauto

/-- A job joins the jobs with an eta only with an eta of its own. -/
theorem etaKnown_add {jobs : Jobs} {queue : ChannelQueue} {job other : JobId}
    (known : other ∈ (queue.add jobs job).etaQueue.known) :
    other ∈ queue.etaQueue.known ∨ other = job := by
  unfold add at known
  split at known
  · rw [known_add, Finset.mem_insert] at known
    exact known.symm
  · exact .inl known

end ChannelQueue

namespace Channel

/-- A method moved the job in the channel, and `runs` tells whether the job is running
there now. -/
structure Moves (jobs : Jobs) (path : Path) (job : JobId) (runs : Prop)
    (before after : Channel) : Prop where
  sound : after.Sound jobs path
  others : ∀ other, other ≠ job → (after.Has other ↔ before.Has other) ∧
    (other ∈ after.running ↔ other ∈ before.running) ∧
    (other ∈ after.failed ↔ other ∈ before.failed)
  running : job ∈ after.running ↔ runs
  references : ∀ other, after.references other = true →
    before.references other = true ∨ other = job

variable {jobs : Jobs} {path : Path} {job : JobId} {channel changed : Channel}

theorem Moves.holds {runs : Prop} (moves : Moves jobs path job runs channel changed)
    {other : JobId} (different : other ≠ job) : changed.Holds other ↔ channel.Holds other :=
  or_congr (moves.others other different).1 (moves.others other different).2.2

theorem not_holds_drop (channel : Channel) (job : JobId) : ¬ (channel.drop job).Holds job := by
  rintro ((queued | running) | failed)
  · rw [drop, ChannelQueue.objects_remove] at queued
    exact Finset.notMem_erase job _ queued
  · exact Finset.notMem_erase job _ running
  · exact Finset.notMem_erase job _ failed

theorem moves_drop (sound : channel.Sound jobs path) (job : JobId) :
    Moves jobs path job False channel (channel.drop job) := by
  have queue : ∀ other, other ∈ (channel.drop job).queue.objects ↔
      other ≠ job ∧ other ∈ channel.queue.objects := fun other => by
    rw [drop, ChannelQueue.objects_remove, Finset.mem_erase]
  have running : ∀ other, other ∈ (channel.drop job).running ↔
      other ≠ job ∧ other ∈ channel.running := fun other => Finset.mem_erase
  have failed : ∀ other, other ∈ (channel.drop job).failed ↔
      other ≠ job ∧ other ∈ channel.failed := fun other => Finset.mem_erase
  refine ⟨⟨sound.keyed.remove job, ?_, ?_, ?_, ?_, ?_⟩, ?_, ?_, ?_⟩
  · intro other member
    exact sound.etaOwn other (known_remove channel.queue.etaQueue job ▸ member)
  · intro other holds
    unfold Holds Has at holds
    rw [queue, running, failed] at holds
    have within := sound.within other
    unfold Holds Has at within
    tauto
  · exact fun other member => sound.failedOwn other ((failed other).mp member).2
  · intro other runs queued
    exact sound.runningApart other ((running other).mp runs).2 ((queue other).mp queued).2
  · intro other fails has
    refine sound.failedApart other ((failed other).mp fails).2 ?_
    exact has.imp (fun queued => ((queue other).mp queued).2) fun runs =>
      ((running other).mp runs).2
  · intro other different
    unfold Has
    rw [queue, running, failed]
    tauto
  · exact iff_of_false (fun runs => ((running job).mp runs).1 rfl) id
  · intro other known
    rw [references_iff] at known ⊢
    rw [running, failed, show (channel.drop job).queue.queue.known = _ from
      known_remove channel.queue.queue job, show (channel.drop job).queue.etaQueue.known = _ from
      known_remove channel.queue.etaQueue job] at known
    tauto

theorem moves_setPending (sound : channel.Sound jobs path) (own : (jobs job).channel = path)
    (pending : channel.setPending jobs job = some changed) :
    Moves jobs path job False channel changed := by
  unfold setPending at pending
  split at pending
  · exact (Option.some_ne_none _ pending.symm).elim
  · cases pending
    refine ⟨⟨sound.keyed.add job, ?_, ?_, ?_, ?_, ?_⟩, ?_, ?_, ?_⟩
    · intro other member
      rcases ChannelQueue.etaKnown_add member with member | rfl
      · exact sound.etaOwn other member
      · exact own
    · intro other holds
      by_cases same : other = job
      · exact same ▸ own ▸ List.prefix_rfl
      · unfold Holds Has at holds
        rw [ChannelQueue.objects_add, Finset.mem_insert, Finset.mem_erase, Finset.mem_erase]
          at holds
        have within := sound.within other
        unfold Holds Has at within
        tauto
    · exact fun other member => sound.failedOwn other (Finset.mem_of_mem_erase member)
    · intro other member queued
      rw [ChannelQueue.objects_add, Finset.mem_insert] at queued
      have runs := Finset.mem_erase.mp member
      exact sound.runningApart other runs.2 (queued.resolve_left runs.1)
    · intro other member has
      have fails := Finset.mem_erase.mp member
      unfold Has at has
      rw [ChannelQueue.objects_add, Finset.mem_insert, Finset.mem_erase] at has
      refine sound.failedApart other fails.2 ?_
      exact has.imp (fun queued => queued.resolve_left fails.1) And.right
    · intro other different
      unfold Has
      rw [ChannelQueue.objects_add, Finset.mem_insert, Finset.mem_erase, Finset.mem_erase]
      tauto
    · exact iff_of_false (Finset.notMem_erase job _) id
    · intro other known
      rw [references_iff, Finset.mem_erase, Finset.mem_erase, ← or_assoc] at known
      rw [references_iff]
      have added := @ChannelQueue.known_add_or jobs channel.queue job other
      tauto

theorem moves_setFailed (sound : channel.Sound jobs path) (own : (jobs job).channel = path)
    (failing : channel.setFailed job = some changed) :
    Moves jobs path job False channel changed := by
  unfold setFailed at failing
  split at failing
  · exact (Option.some_ne_none _ failing.symm).elim
  · cases failing
    refine ⟨⟨sound.keyed.remove job, ?_, ?_, ?_, ?_, ?_⟩, ?_, ?_, ?_⟩
    · intro other member
      exact sound.etaOwn other (known_remove channel.queue.etaQueue job ▸ member)
    · intro other holds
      by_cases same : other = job
      · exact same ▸ own ▸ List.prefix_rfl
      · unfold Holds Has at holds
        rw [ChannelQueue.objects_remove, Finset.mem_insert, Finset.mem_erase, Finset.mem_erase]
          at holds
        have within := sound.within other
        unfold Holds Has at within
        tauto
    · intro other member
      rcases Finset.mem_insert.mp member with rfl | member
      · exact own
      · exact sound.failedOwn other member
    · intro other member queued
      rw [ChannelQueue.objects_remove] at queued
      exact sound.runningApart other (Finset.mem_of_mem_erase member)
        (Finset.mem_of_mem_erase queued)
    · intro other member has
      unfold Has at has
      rw [ChannelQueue.objects_remove, Finset.mem_erase, Finset.mem_erase] at has
      rcases Finset.mem_insert.mp member with rfl | member
      · tauto
      · refine sound.failedApart other member ?_
        exact has.imp And.right And.right
    · intro other different
      unfold Has
      rw [ChannelQueue.objects_remove, Finset.mem_insert, Finset.mem_erase, Finset.mem_erase]
      tauto
    · exact iff_of_false (Finset.notMem_erase job _) id
    · intro other known
      rw [references_iff] at known ⊢
      simp only [ChannelQueue.remove, known_remove, Finset.mem_erase, Finset.mem_insert] at known
      tauto

theorem moves_setRunning (sound : channel.Sound jobs path) (within : path <+: (jobs job).channel)
    (starting : channel.setRunning job = some changed) :
    Moves jobs path job True channel changed := by
  unfold setRunning at starting
  split at starting
  · exact (Option.some_ne_none _ starting.symm).elim
  · cases starting
    refine ⟨⟨sound.keyed.remove job, ?_, ?_, ?_, ?_, ?_⟩, ?_, ?_, ?_⟩
    · intro other member
      exact sound.etaOwn other (known_remove channel.queue.etaQueue job ▸ member)
    · intro other holds
      by_cases same : other = job
      · exact same ▸ within
      · unfold Holds Has at holds
        rw [ChannelQueue.objects_remove, Finset.mem_insert, Finset.mem_erase, Finset.mem_erase]
          at holds
        have here := sound.within other
        unfold Holds Has at here
        tauto
    · exact fun other member => sound.failedOwn other (Finset.mem_of_mem_erase member)
    · intro other member queued
      rw [ChannelQueue.objects_remove, Finset.mem_erase] at queued
      rcases Finset.mem_insert.mp member with same | member
      · exact queued.1 same
      · exact sound.runningApart other member queued.2
    · intro other member has
      unfold Has at has
      rw [ChannelQueue.objects_remove, Finset.mem_erase, Finset.mem_insert] at has
      have fails := Finset.mem_erase.mp member
      refine sound.failedApart other fails.2 ?_
      exact has.imp And.right fun runs => runs.resolve_left fails.1
    · intro other different
      unfold Has
      rw [ChannelQueue.objects_remove, Finset.mem_insert, Finset.mem_erase, Finset.mem_erase]
      tauto
    · exact iff_of_true (Finset.mem_insert_self job _) trivial
    · intro other known
      rw [references_iff] at known ⊢
      simp only [ChannelQueue.remove, known_remove, Finset.mem_erase, Finset.mem_insert] at known
      tauto

theorem setRunning_eq_none_iff {channel : Channel} {job : JobId} :
    channel.setRunning job = none ↔ job ∈ channel.running := by
  unfold setRunning
  split
  · exact iff_of_true rfl (by assumption)
  · exact iff_of_false (Option.some_ne_none _) (by assumption)

end Channel

namespace Channels

/-- A channel of the tree has the job in its queue, running or failed. -/
def Holds : Channels → JobId → Prop
  | .nil, _ => False
  | .cons _ channel children siblings, job =>
      channel.Holds job ∨ children.Holds job ∨ siblings.Holds job

/-- One of the first channels of the list is running the job. -/
def Runs : Channels → JobId → Prop
  | .nil, _ => False
  | .cons _ channel _ siblings, job => job ∈ channel.running ∨ siblings.Runs job

variable {jobs : Jobs} {parent : Path} {passed : JobId → Prop} {channels : Channels}
  {job : JobId}

theorem references_of_holds (holds : channels.Holds job) : channels.references job = true := by
  induction channels with
  | nil => exact holds.elim
  | cons name channel children siblings belowIh besideIh =>
      rw [references, Bool.or_eq_true, Bool.or_eq_true]
      rcases holds with here | below | beside
      · exact .inl (.inl (Channel.references_of_holds here))
      · exact .inl (.inr (belowIh below))
      · exact .inr (besideIh beside)

theorem holds_of_runs (runs : channels.Runs job) : channels.Holds job := by
  induction channels with
  | nil => exact runs.elim
  | cons name channel children siblings belowIh besideIh =>
      rcases runs with here | beside
      · exact .inl (.inl (.inr here))
      · exact .inr (.inr (besideIh beside))

theorem Flows.under_of_holds (flows : Flows jobs parent passed channels)
    (holds : channels.Holds job) : channels.Under jobs parent job := by
  induction flows with
  | nil => exact holds.elim
  | cons sound running arrived distinct below beside belowIh besideIh =>
      rcases holds with here | below | beside
      · exact Under.cons.mpr (.inl (sound.within job here))
      · exact Under.cons.mpr (.inl (within_of_under (belowIh below)))
      · exact Under.cons.mpr (.inr (besideIh beside))

theorem Flows.passed_iff_runs (flows : Flows jobs parent passed channels)
    (under : channels.Under jobs parent job) : passed job ↔ channels.Runs job := by
  induction flows with
  | nil => exact absurd under not_under_nil
  | cons sound running arrived distinct below beside belowIh besideIh =>
      rcases Under.cons.mp under with within | under
      · have elsewhere : ¬ Channels.Runs _ job := fun runs =>
          not_under_of_distinct distinct within (beside.under_of_holds (holds_of_runs runs))
        rw [← running job within, Runs]
        exact (or_iff_left elsewhere).symm
      · rw [besideIh under, Runs, or_iff_right]
        exact fun here => not_under_of_distinct distinct
          (sound.within job (.inl (.inr here))) under

/-- The parent of the list has one job in addition, or not any more. -/
def Instead (job : JobId) (runs : Prop) (passed : JobId → Prop) (other : JobId) : Prop :=
  (other = job ∧ runs) ∨ (other ≠ job ∧ passed other)

theorem instead_self {runs : Prop} : Instead job runs passed job ↔ runs := by
  unfold Instead
  tauto

theorem instead_of_ne {runs : Prop} {other : JobId} (different : other ≠ job) :
    Instead job runs passed other ↔ passed other := by
  unfold Instead
  tauto

/-- What a method that climbs from the channel of the job to the root has done to the
list of channels on its way. -/
structure Climbed (jobs : Jobs) (parent : Path) (passed : JobId → Prop) (job : JobId)
    (runs : Prop) (channels : Channels) (outcome : Channels × Bool) : Prop where
  past : outcome.2 = true → (runs → ¬ passed job) ∧ channels.Under jobs parent job ∧
    Flows jobs parent (Instead job runs passed) outcome.1
  stopped : outcome.2 = false → Flows jobs parent passed outcome.1
  names : outcome.1.names = channels.names
  references : ∀ other, outcome.1.references other = true →
    channels.references other = true ∨ other = job
  holds : ∀ other, other ≠ job → (outcome.1.Holds other ↔ channels.Holds other)
  running : ∀ other, other ≠ job → (outcome.1.Runs other ↔ channels.Runs other)

theorem Climbed.unchanged {runs : Prop} (flows : Flows jobs parent passed channels) :
    Climbed jobs parent passed job runs channels (channels, false) where
  past := fun absurdity => (Bool.false_ne_true absurdity).elim
  stopped := fun _ => flows
  names := rfl
  references := fun _ known => .inl known
  holds := fun _ _ => Iff.rfl
  running := fun _ _ => Iff.rfl

section Climb

variable {runs : Prop} {own above : Channel → Option Channel} {name : Name}
  {channel changed : Channel} {children siblings : Channels}

/-- The method reaches the channel of the job. -/
theorem Climbed.atOwn (flows : Flows jobs parent passed (.cons name channel children siblings))
    (here : (jobs job).channel = parent ++ [name])
    (moves : Channel.Moves jobs (parent ++ [name]) job runs channel changed)
    (new : runs → job ∉ channel.running) :
    Climbed jobs parent passed job runs (.cons name channel children siblings)
      (.cons name changed children siblings, true) := by
  have within : parent ++ [name] <+: (jobs job).channel := here ▸ List.prefix_rfl
  cases flows with
  | cons sound running arrived distinct below beside =>
      refine ⟨fun _ => ⟨fun runs before => ?_, Under.cons.mpr (.inl within), ?_⟩,
        fun absurdity => (Bool.false_ne_true absurdity.symm).elim, rfl, ?_, ?_, ?_⟩
      · exact new runs ((running job within).mpr before)
      · refine .cons moves.sound (fun other owned => ?_) (fun other has => ?_) distinct
          (below.congr_passed fun other under => ?_) (beside.congr_passed fun other under => ?_)
        · by_cases same : other = job
          · rw [same, instead_self]
            exact moves.running
          · rw [instead_of_ne same, (moves.others other same).2.1]
            exact running other owned
        · by_cases same : other = job
          · exact .inl (same ▸ here)
          · exact arrived other ((moves.others other same).1.mp has)
        · have different : other ≠ job := fun same => not_under_of_own (same ▸ here) under
          exact (moves.others other different).1.symm
        · have different : other ≠ job := fun same =>
            not_under_of_distinct distinct (same ▸ within) under
          exact (instead_of_ne different).symm
      · intro other known
        rw [Channels.references, Bool.or_eq_true, Bool.or_eq_true] at known ⊢
        have before := moves.references other
        tauto
      · intro other different
        unfold Holds
        rw [moves.holds different]
      · intro other different
        unfold Runs
        rw [(moves.others other different).2.1]

/-- The method has gone on from the channel below. -/
theorem Climbed.passing {below : Channels × Bool}
    (flows : Flows jobs parent passed (.cons name channel children siblings))
    (within : parent ++ [name] <+: (jobs job).channel)
    (climbed : Climbed jobs (parent ++ [name]) channel.Has job runs children below)
    (past : below.2 = true) (moves : Channel.Moves jobs (parent ++ [name]) job runs channel changed)
    (has : changed.Has job ↔ runs) :
    Climbed jobs parent passed job runs (.cons name channel children siblings)
      (.cons name changed below.1 siblings, true) := by
  obtain ⟨new, under, flowsBelow⟩ := climbed.past past
  cases flows with
  | cons sound running arrived distinct _ beside =>
      refine ⟨fun _ => ⟨fun runs before => ?_, Under.cons.mpr (.inl within), ?_⟩,
        fun absurdity => (Bool.false_ne_true absurdity.symm).elim, rfl, ?_, ?_, ?_⟩
      · exact new runs (.inr ((running job within).mpr before))
      · refine .cons moves.sound (fun other owned => ?_) (fun other present => ?_) distinct
          (flowsBelow.congr_passed fun other _ => ?_) (beside.congr_passed fun other under => ?_)
        · by_cases same : other = job
          · rw [same, instead_self]
            exact moves.running
          · rw [instead_of_ne same, (moves.others other same).2.1]
            exact running other owned
        · rw [under_congr climbed.names]
          by_cases same : other = job
          · exact .inr (same ▸ under)
          · exact arrived other ((moves.others other same).1.mp present)
        · by_cases same : other = job
          · rw [same, instead_self, has]
          · rw [instead_of_ne same, (moves.others other same).1]
        · have different : other ≠ job := fun same =>
            not_under_of_distinct distinct (same ▸ within) under
          exact (instead_of_ne different).symm
      · intro other known
        rw [Channels.references, Bool.or_eq_true, Bool.or_eq_true] at known ⊢
        have before := moves.references other
        have beneath := climbed.references other
        tauto
      · intro other different
        unfold Holds
        rw [moves.holds different, climbed.holds other different]
      · intro other different
        unfold Runs
        rw [(moves.others other different).2.1]

/-- The method has stopped below. -/
theorem Climbed.beneath {below : Channels × Bool}
    (flows : Flows jobs parent passed (.cons name channel children siblings))
    (climbed : Climbed jobs (parent ++ [name]) channel.Has job runs children below)
    (stopped : below.2 = false) :
    Climbed jobs parent passed job runs (.cons name channel children siblings)
      (.cons name channel below.1 siblings, false) := by
  cases flows with
  | cons sound running arrived distinct _ beside =>
      refine ⟨fun absurdity => (Bool.false_ne_true absurdity).elim, fun _ => ?_, rfl, ?_, ?_,
        fun _ _ => Iff.rfl⟩
      · refine .cons sound running (fun other has => ?_) distinct (climbed.stopped stopped) beside
        rw [under_congr climbed.names]
        exact arrived other has
      · intro other known
        rw [Channels.references, Bool.or_eq_true, Bool.or_eq_true] at known ⊢
        have beneath := climbed.references other
        tauto
      · intro other different
        unfold Holds
        rw [climbed.holds other different]

/-- The method goes on among the other channels of the list. -/
theorem Climbed.beside {others : Channels × Bool}
    (flows : Flows jobs parent passed (.cons name channel children siblings))
    (climbed : Climbed jobs parent passed job runs siblings others) :
    Climbed jobs parent passed job runs (.cons name channel children siblings)
      (.cons name channel children others.1, others.2) := by
  cases flows with
  | cons sound running arrived distinct below _ =>
      have apart : name ∉ others.1.names := climbed.names ▸ distinct
      refine ⟨fun past => ?_, fun stopped => ?_, ?_, ?_, ?_, ?_⟩
      · obtain ⟨new, under, flows⟩ := climbed.past past
        refine ⟨new, Under.cons.mpr (.inr under), ?_⟩
        refine .cons sound (fun other owned => ?_) arrived apart below flows
        have different : other ≠ job := fun same =>
          not_under_of_distinct distinct (same ▸ owned) under
        rw [instead_of_ne different]
        exact running other owned
      · exact .cons sound running arrived apart below (climbed.stopped stopped)
      · rw [Channels.names, Channels.names, climbed.names]
      · intro other known
        rw [Channels.references, Bool.or_eq_true, Bool.or_eq_true] at known ⊢
        have beyond := climbed.references other
        tauto
      · intro other different
        unfold Holds
        rw [climbed.holds other different]
      · intro other different
        unfold Runs
        rw [climbed.running other different]

/-- The rule for the methods that climb: what they do to the channel of the job, and to
a channel above it, where they only stop because the job is running there already. -/
theorem climb_climbed
    (ownMoves : ∀ channel changed, channel.Sound jobs (jobs job).channel →
      own channel = some changed →
      Channel.Moves jobs (jobs job).channel job runs channel changed ∧ (runs → job ∉ channel.running))
    (aboveMoves : ∀ path channel changed, path <+: (jobs job).channel →
      channel.Sound jobs path → above channel = some changed →
      Channel.Moves jobs path job runs channel changed ∧ (changed.Has job ↔ runs))
    (aboveStops : ∀ channel, above channel = none → runs ∧ channel.Has job)
    (flows : Flows jobs parent passed channels) {path : Path}
    (target : (jobs job).channel = parent ++ path) :
    Climbed jobs parent passed job runs channels (channels.climb own above path) := by
  induction channels generalizing parent passed path with
  | nil => exact .unchanged flows
  | cons name channel children siblings belowIh besideIh =>
      cases path with
      | nil => exact .unchanged flows
      | cons first rest =>
          rw [climb]
          by_cases named : name = first
          · rw [if_pos named]
            subst named
            have within : parent ++ [name] <+: (jobs job).channel := by
              rw [target]
              exact (List.prefix_append_right_inj parent).mpr ⟨rest, rfl⟩
            have flowsHere := flows
            cases flowsHere with
            | cons sound _ _ _ below _ =>
                by_cases last : rest = []
                · rw [if_pos last]
                  have here : (jobs job).channel = parent ++ [name] := by rw [target, last]
                  cases result : own channel with
                  | none => exact .unchanged flows
                  | some changed =>
                      have done := ownMoves channel changed (here ▸ sound) result
                      exact .atOwn flows here (here ▸ done.1) done.2
                · rw [if_neg last]
                  have further : (jobs job).channel = (parent ++ [name]) ++ rest := by
                    rw [target, List.append_assoc, List.singleton_append]
                  have climbed := belowIh below further
                  simp only
                  cases past : (children.climb own above rest).2 with
                  | false => exact .beneath flows climbed past
                  | true =>
                      simp only [if_true]
                      cases result : above channel with
                      | none =>
                          have stops := aboveStops channel result
                          exact absurd stops.2 ((climbed.past past).1 stops.1)
                      | some changed =>
                          have done := aboveMoves _ channel changed within sound result
                          exact .passing flows within climbed past done.1 done.2
          · rw [if_neg named]
            cases flows with
            | cons sound running arrived distinct below beside =>
                exact .beside (.cons sound running arrived distinct below beside)
                  (besideIh beside target)

end Climb

theorem Climbed.flows {runs : Prop} {outcome : Channels × Bool}
    (climbed : Climbed jobs parent passed job runs channels outcome) :
    ∃ again, Flows jobs parent again outcome.1 := by
  cases past : outcome.2 with
  | false => exact ⟨passed, climbed.stopped past⟩
  | true => exact ⟨_, (climbed.past past).2.2⟩

variable {path : Path}

theorem remove_climbed (flows : Flows jobs parent passed channels)
    (target : (jobs job).channel = parent ++ path) :
    Climbed jobs parent passed job False channels
      (channels.climb (fun channel => some (channel.drop job))
        (fun channel => some (channel.drop job)) path) := by
  refine climb_climbed (fun channel changed sound result => ?_)
    (fun path channel changed _ sound result => ?_) (fun channel result => ?_) flows target
  · cases result
    exact ⟨Channel.moves_drop sound job, False.elim⟩
  · cases result
    refine ⟨Channel.moves_drop sound job, iff_of_false (fun has => ?_) id⟩
    exact Channel.not_holds_drop channel job (.inl has)
  · exact (Option.some_ne_none _ result).elim

theorem setPending_climbed (flows : Flows jobs parent passed channels)
    (target : (jobs job).channel = parent ++ path) :
    Climbed jobs parent passed job False channels
      (channels.climb (Channel.setPending jobs job) (fun channel => some (channel.drop job))
        path) := by
  refine climb_climbed (fun channel changed sound result => ?_)
    (fun path channel changed _ sound result => ?_) (fun channel result => ?_) flows target
  · exact ⟨Channel.moves_setPending sound rfl result, False.elim⟩
  · cases result
    refine ⟨Channel.moves_drop sound job, iff_of_false (fun has => ?_) id⟩
    exact Channel.not_holds_drop channel job (.inl has)
  · exact (Option.some_ne_none _ result).elim

theorem setFailed_climbed (flows : Flows jobs parent passed channels)
    (target : (jobs job).channel = parent ++ path) :
    Climbed jobs parent passed job False channels
      (channels.climb (Channel.setFailed job) (fun channel => some (channel.drop job)) path) := by
  refine climb_climbed (fun channel changed sound result => ?_)
    (fun path channel changed _ sound result => ?_) (fun channel result => ?_) flows target
  · exact ⟨Channel.moves_setFailed sound rfl result, False.elim⟩
  · cases result
    refine ⟨Channel.moves_drop sound job, iff_of_false (fun has => ?_) id⟩
    exact Channel.not_holds_drop channel job (.inl has)
  · exact (Option.some_ne_none _ result).elim

theorem setRunning_climbed (flows : Flows jobs parent passed channels)
    (target : (jobs job).channel = parent ++ path) :
    Climbed jobs parent passed job True channels
      (channels.climb (Channel.setRunning job) (Channel.setRunning job) path) := by
  refine climb_climbed (fun channel changed sound result => ?_)
    (fun path channel changed within sound result => ?_) (fun channel result => ?_) flows target
  · refine ⟨Channel.moves_setRunning sound List.prefix_rfl result, fun _ running => ?_⟩
    rw [Channel.setRunning_eq_none_iff.mpr running] at result
    exact (Option.some_ne_none _ result.symm).elim
  · have moves := Channel.moves_setRunning sound within result
    exact ⟨moves, iff_of_true (.inr (moves.running.mpr trivial)) trivial⟩
  · exact ⟨trivial, .inr (Channel.setRunning_eq_none_iff.mp result)⟩

theorem not_own_of_further {name : Name} {rest : Path} (further : rest ≠ [])
    (target : (jobs job).channel = parent ++ name :: rest) :
    (jobs job).channel ≠ parent ++ [name] := fun own =>
  further (List.cons.inj (List.append_cancel_left (own.symm.trans target))).2.symm

/-- A job that the parent has is in each channel of its path, so that removing it goes
past all of them. -/
theorem remove_past (flows : Flows jobs parent passed channels)
    (target : (jobs job).channel = parent ++ path) (has : passed job)
    (under : channels.Under jobs parent job) :
    (channels.climb (fun channel => some (channel.drop job))
      (fun channel => some (channel.drop job)) path).2 = true := by
  induction flows generalizing path with
  | nil => exact absurd under not_under_nil
  | @cons parent passed name channel children siblings sound running arrived distinct below
      beside belowIh besideIh =>
      cases path with
      | nil =>
          rw [List.append_nil] at target
          exact absurd under (not_under_of_own target)
      | cons first rest =>
          have going : parent ++ [first] <+: (jobs job).channel := by
            rw [target]
            exact (List.prefix_append_right_inj parent).mpr ⟨rest, rfl⟩
          rw [climb]
          by_cases named : name = first
          · rw [if_pos named]
            subst named
            by_cases last : rest = []
            · rw [if_pos last]
            · rw [if_neg last]
              have further : (jobs job).channel = (parent ++ [name]) ++ rest := by
                rw [target, List.append_assoc, List.singleton_append]
              have here : channel.Has job := .inr ((running job going).mpr has)
              have child := (arrived job here).resolve_left (not_own_of_further last target)
              simp only [belowIh further here child, if_true]
          · rw [if_neg named]
            refine besideIh target has ((Under.cons.mp under).resolve_left fun within => ?_)
            exact named (name_unique within going)

theorem not_holds_remove (flows : Flows jobs parent passed channels)
    (target : (jobs job).channel = parent ++ path) :
    ¬ (channels.remove path job).Holds job := by
  unfold remove
  induction flows generalizing path with
  | nil => exact id
  | @cons parent passed name channel children siblings sound running arrived distinct below
      beside belowIh besideIh =>
      cases path with
      | nil =>
          rw [List.append_nil] at target
          intro holds
          have under := (Flows.cons sound running arrived distinct below beside).under_of_holds holds
          exact not_under_of_own target under
      | cons first rest =>
          have going : parent ++ [first] <+: (jobs job).channel := by
            rw [target]
            exact (List.prefix_append_right_inj parent).mpr ⟨rest, rfl⟩
          rw [climb]
          by_cases named : name = first
          · rw [if_pos named]
            subst named
            have noSibling : ¬ siblings.Holds job := fun holds =>
              not_under_of_distinct distinct going (beside.under_of_holds holds)
            by_cases last : rest = []
            · rw [if_pos last]
              have own : (jobs job).channel = parent ++ [name] := by rw [target, last]
              have noChild : ¬ children.Holds job := fun holds =>
                not_under_of_own own (below.under_of_holds holds)
              rintro (here | child | sibling)
              · exact Channel.not_holds_drop channel job here
              · exact noChild child
              · exact noSibling sibling
            · rw [if_neg last]
              have further : (jobs job).channel = (parent ++ [name]) ++ rest := by
                rw [target, List.append_assoc, List.singleton_append]
              have noChild := belowIh further
              simp only
              split
              · rintro (here | child | sibling)
                · exact Channel.not_holds_drop channel job here
                · exact noChild child
                · exact noSibling sibling
              · rename_i stopped
                rintro ((has | failed) | child | sibling)
                · have child := (arrived job has).resolve_left (not_own_of_further last target)
                  exact stopped (remove_past below further has child)
                · exact not_own_of_further last target (sound.failedOwn job failed)
                · exact noChild child
                · exact noSibling sibling
          · rw [if_neg named]
            rintro (here | child | sibling)
            · exact named (name_unique (sound.within job here) going)
            · exact named (name_unique (within_of_under (below.under_of_holds child)) going)
            · exact besideIh target sibling

end Channels

end WorkflowStudio.Queue
