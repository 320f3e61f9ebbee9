import WorkflowStudio.Queue.DependencyProperties

/-! A job that is on its way to a worker, or with one, depends on nothing that is not done,
in every run in which no parent is taken back after it was done. -/

set_option autoImplicit false

namespace WorkflowStudio.Queue

open Lib JobRunner

namespace JobQueue

variable {table : JobTable} {queue : JobQueue} {uuid other parent child : String}
  {state : JobState} {values : Values}

/-- The parents of the job that exist are done. -/
def ParentsDone (queue : JobQueue) (uuid : String) : Prop :=
  ∀ parent ∈ (queue.dependencies uuid).dependsOn, ∀ values,
    queue.values? parent = some values → values.state = .done

/-- A job that is done and that others depend on, so that it should stay done. -/
def Final (queue : JobQueue) (uuid : String) : Prop :=
  (∃ values, queue.values? uuid = some values ∧ values.state = .done) ∧
    (queue.dependencies uuid).reverseDependsOn ≠ []

theorem not_final (found : queue.values? uuid = some values) (notDone : values.state ≠ .done) :
    ¬ queue.Final uuid := by
  rintro ⟨⟨other, present, done⟩, _⟩
  rw [found] at present
  cases present
  exact notDone done

/-- The invariant. -/
structure Safe (table : JobTable) (queue : JobQueue) : Prop where
  related : queue.Related
  consistent : queue.runner.Consistent table
  live : ∀ uuid, queue.runner.Live uuid → uuid ∈ queue.created ∧ queue.ParentsDone uuid

theorem Safe.parentsDone (safe : queue.Safe table) (found : queue.values? uuid = some values)
    (runnable : values.state.Runnable) : queue.ParentsDone uuid :=
  (safe.live uuid (.inl ⟨values, found, runnable⟩)).2

/-- What may be written: a job is only made runnable when its parents are done, and only a
job that none waited for stops being done. -/
theorem Safe.write (safe : queue.Safe table) {written : Option Values}
    (created : ∀ values, written = some values → uuid ∈ queue.created)
    (allowed : queue.runner.OnlyRunnerEnqueues (.write uuid written))
    (kept : ∀ child, queue.runner.Live child → uuid ∈ (queue.dependencies child).dependsOn →
      ∀ values, written = some values → values.state = .done)
    (ready : ∀ values, written = some values → values.state.Runnable → queue.ParentsDone uuid) :
    (queue.write uuid written).Safe table := by
  have known : ∀ other values, (queue.write uuid written).values? other = some values →
      other ∈ queue.created := by
    intro other values found
    rw [values?_write] at found
    split at found
    · rename_i same
      exact same ▸ created values found
    · exact safe.related.known other values found
  refine ⟨safe.related.aside (queue.aside_write uuid written) known,
    @Consistent.step _ _ safe.consistent (.write uuid written) allowed, fun other live => ?_⟩
  have done : ∀ child, queue.ParentsDone child → (uuid ∈ (queue.dependencies child).dependsOn →
      ∀ values, written = some values → values.state = .done) →
        (queue.write uuid written).ParentsDone child := by
    intro child before mine parent depends values found
    rw [values?_write] at found
    split at found
    · rename_i same
      exact mine (same ▸ depends) values found
    · exact before parent depends values found
  have still : queue.runner.Live other → other ∈ queue.created ∧
      (queue.write uuid written).ParentsDone other := fun before =>
    ⟨(safe.live other before).1, done other (safe.live other before).2 (kept other before)⟩
  rcases live with ⟨values, found, runnable⟩ | elsewhere
  · have row := queue.values?_write uuid other written
    unfold values? at row
    rw [row] at found
    split at found
    · rename_i same
      subst same
      -- none depends on itself
      exact ⟨created values found, done other (ready values found runnable) fun depends =>
        absurd depends (safe.related.irreflexive other)⟩
    · exact still (.inl ⟨values, found, runnable⟩)
  · exact still (.inr elsewhere)

theorem Safe.setState (safe : queue.Safe table)
    (allowed : ∀ values, queue.values? uuid = some values → state.Active → values.state.Active)
    (kept : state = .done ∨ ¬ queue.Final uuid)
    (ready : state.Runnable → queue.ParentsDone uuid) :
    (queue.setState state uuid).Safe table := by
  unfold JobQueue.setState
  cases found : queue.values? uuid with
  | none => exact safe
  | some values =>
      refine safe.write (fun _ _ => safe.related.known uuid values found)
        (fun active => ⟨values, found, allowed values found active⟩)
        (fun child live depends _ same => ?_) fun _ same runnable => ?_
      · cases same
        refine kept.resolve_right (not_not_intro ⟨⟨values, found, ?_⟩, ?_⟩)
        · exact (safe.live child live).2 uuid depends values found
        · exact List.ne_nil_of_mem ((safe.related.mirrored uuid child).mpr depends)
      · cases same
        exact ready runnable

/-- What does not concern the rows, the channels or the columns. -/
theorem Safe.waking (safe : queue.Safe table) (waking : List String) :
    Safe table { queue with waking } :=
  ⟨⟨safe.related.mirrored, safe.related.grouped, safe.related.irreflexive,
    safe.related.unrelated, safe.related.known⟩, safe.consistent, safe.live⟩

/-!
## Updating the dependent jobs
-/

theorem Safe.setStates {uuids : List String} (safe : queue.Safe table)
    (idle : ¬ state.Active)
    (open_ : ∀ uuid ∈ uuids, ∀ values, queue.values? uuid = some values → values.state ≠ .done)
    (ready : ∀ uuid ∈ uuids, state.Runnable → queue.ParentsDone uuid) (notDone : state ≠ .done) :
    (uuids.foldl (fun queue uuid => queue.setState state uuid) queue).Safe table := by
  induction uuids generalizing queue with
  | nil => exact safe
  | cons uuid rest ih =>
      have notFinal : ¬ queue.Final uuid := by
        rintro ⟨⟨values, found, done⟩, _⟩
        exact open_ uuid List.mem_cons_self values found done
      refine ih (safe.setState (fun _ _ active => absurd active idle) (.inr notFinal)
        (ready uuid List.mem_cons_self)) ?_ ?_
      · intro other member values found
        rw [values?_setState] at found
        split at found
        · obtain ⟨_, _, rfl⟩ := Option.map_eq_some_iff.mp found
          exact notDone
        · exact open_ other (List.mem_cons_of_mem _ member) values found
      · intro other member runnable parent depends values found
        rw [(queue.aside_setState state uuid).dependencies] at depends
        have done := ready other (List.mem_cons_of_mem _ member) runnable parent depends
        rw [values?_setState] at found
        split at found
        · rename_i same
          obtain ⟨old, before, rfl⟩ := Option.map_eq_some_iff.mp found
          exact absurd (done old (same ▸ before)) (open_ uuid List.mem_cons_self old before)
        · exact done values found

theorem Related.dependent_not_done (related : queue.Related) {required : JobState}
    (member : child ∈ queue.dependentJobs uuid required)
    (found : queue.values? child = some values) : values.state ≠ .done := by
  rw [related.dependent_waits member found]
  decide

theorem Safe.enqueueWaiting (safe : queue.Safe table) (uuid : String) :
    (queue.enqueueWaiting uuid).Safe table :=
  safe.setStates (by decide) (fun _ member _ => safe.related.dependent_not_done member)
    (fun _ member _ => (safe.related.mem_dependentJobs.mp member).2.2.2) (by decide)

theorem Safe.cancelDependentJobs (safe : queue.Safe table) (uuid : String) :
    (queue.cancelDependentJobs uuid).Safe table :=
  safe.setStates (by decide) (fun _ member _ => safe.related.dependent_not_done member)
    (fun _ _ runnable => absurd runnable (by decide)) (by decide)

theorem Safe.setPending (safe : queue.Safe table)
    (kept : ¬ queue.Final uuid) : (queue.setPending uuid).Safe table := by
  rcases queue.pendingState_eq uuid with ⟨state, done⟩ | ⟨state, _⟩
  · unfold JobQueue.setPending
    rw [state]
    exact safe.setState (fun _ _ active => absurd active (by decide)) (.inr kept) fun _ => done
  · unfold JobQueue.setPending
    rw [state]
    exact safe.setState (fun _ _ active => absurd active (by decide)) (.inr kept)
      fun runnable => absurd runnable (by decide)

/-!
## The workers
-/

theorem hasState_iff {states : List JobState} : queue.hasState uuid states = true ↔
    ∃ values, queue.values? uuid = some values ∧ values.state ∈ states := by
  unfold hasState
  rw [Option.any_eq_true]
  simp only [decide_eq_true_eq]

theorem Safe.acquireJob (safe : queue.Safe table) (uuid : String) :
    (queue.acquireJob uuid).Safe table := by
  unfold JobQueue.acquireJob
  split
  · rename_i enqueued
    obtain ⟨values, found, state⟩ := hasState_iff.mp enqueued
    have state := List.mem_singleton.mp state
    have notDone : values.state ≠ .done := by
      rw [state]
      decide
    refine safe.setState (fun other present _ => ?_) (.inr (not_final found notDone)) fun _ =>
      safe.parentsDone found (.inr (.inl state))
    rw [found] at present
    cases present
    exact .inl state
  · exact safe

theorem Safe.tryPerformJob (safe : queue.Safe table) (uuid : String) :
    (queue.tryPerformJob uuid).Safe table := by
  have done : (queue.setState .done uuid).Safe table :=
    safe.setState (fun _ _ active => absurd active (by decide)) (.inl rfl)
      fun runnable => absurd runnable (by decide)
  unfold JobQueue.tryPerformJob
  split
  · simp only
    split
    · exact done
    · exact done.waking (uuid :: queue.waking)
  · exact safe

theorem Safe.enqueueDependentJobs (safe : queue.Safe table) (uuid : String) :
    (queue.enqueueDependentJobs uuid).Safe table := by
  unfold JobQueue.enqueueDependentJobs
  split
  · exact (safe.waking (queue.waking.erase uuid)).enqueueWaiting uuid
  · exact safe

theorem Safe.retryPostpone (safe : queue.Safe table) (uuid : String)
    (eta : {eta : Time // eta ≠ 0}) : (queue.retryPostpone uuid eta).Safe table := by
  unfold JobQueue.retryPostpone
  split
  · rename_i started
    obtain ⟨values, found, state⟩ := hasState_iff.mp started
    have state := List.mem_singleton.mp state
    have done := safe.parentsDone found (.inr (.inr state))
    have pending : queue.pendingState uuid = .pending := by
      rcases queue.pendingState_eq uuid with ⟨pending, _⟩ | ⟨_, parent, depends, old, present, notDone⟩
      · exact pending
      · exact absurd (done parent depends old present) notDone
    rw [found]
    refine safe.write (fun _ _ => safe.related.known uuid values found) (fun active => ?_)
      (fun child live depends _ _ => ?_) fun _ _ _ => done
    · have idle : ¬ JobState.pending.Active := by decide
      rw [pending] at active
      exact absurd active idle
    · have before := (safe.live child live).2 uuid depends values found
      rw [state] at before
      exact absurd before (by decide)
  · exact safe

theorem Safe.fail (safe : queue.Safe table) (uuid : String) : (queue.fail uuid).Safe table := by
  unfold JobQueue.fail
  split
  · rename_i started
    obtain ⟨values, found, state⟩ := hasState_iff.mp started
    have notDone : values.state ≠ .done := by
      rw [List.mem_singleton.mp state]
      decide
    exact safe.setState (fun _ _ active => absurd active (by decide))
      (.inr (not_final found notDone)) fun runnable => absurd runnable (by decide)
  · exact safe

theorem Safe.requeueDeadJob (safe : queue.Safe table) (uuid : String) (tooManyRetries : Bool) :
    (queue.requeueDeadJob uuid tooManyRetries).Safe table := by
  unfold JobQueue.requeueDeadJob
  split
  · rename_i dead
    obtain ⟨values, found, state⟩ := hasState_iff.mp dead
    have active : values.state.Active := by
      rcases List.mem_cons.mp state with enqueued | started
      · exact .inl enqueued
      · exact .inr (List.mem_singleton.mp started)
    have notDone : values.state ≠ .done := by
      rcases active with enqueued | started
      · rw [enqueued]
        decide
      · rw [started]
        decide
    refine safe.setState (fun _ present _ => ?_) (.inr (not_final found notDone)) fun _ =>
      safe.parentsDone found (JobState.runnable_of_active active)
    rw [found] at present
    cases present
    exact active
  · exact safe

/-!
## The users
-/

/-- A transaction that makes no job done. -/
def MakesNoneDone (before after : JobQueue) : Prop :=
  ∀ uuid values, after.values? uuid = some values → values.state = .done →
    ∃ old, before.values? uuid = some old ∧ old.state = .done

theorem makesNoneDone_foldl (notDone : state ≠ .done) (uuids : List String) :
    MakesNoneDone queue (uuids.foldl (fun queue uuid => queue.setState state uuid) queue) := by
  intro uuid values found done
  rw [values?_foldl_setState] at found
  split at found
  · obtain ⟨_, _, rfl⟩ := Option.map_eq_some_iff.mp found
    exact absurd done notDone
  · exact ⟨values, found, done⟩

theorem makesNoneDone_setState (notDone : state ≠ .done) (uuid : String) :
    MakesNoneDone queue (queue.setState state uuid) :=
  makesNoneDone_foldl notDone [uuid]

theorem MakesNoneDone.trans {first second third : JobQueue} (left : MakesNoneDone first second)
    (right : MakesNoneDone second third) : MakesNoneDone first third := by
  intro uuid values found done
  obtain ⟨old, present, wasDone⟩ := right uuid values found done
  exact left uuid old present wasDone

theorem pendingState_ne_done (queue : JobQueue) (uuid : String) :
    queue.pendingState uuid ≠ .done := by
  rcases queue.pendingState_eq uuid with ⟨state, _⟩ | ⟨state, _⟩
  · rw [state]
    decide
  · rw [state]
    decide

theorem Safe.buttonDone (safe : queue.Safe table) (uuids : List String) :
    (queue.buttonDone uuids).Safe table := by
  have all : ∀ (uuids : List String) (queue : JobQueue), queue.Safe table →
      (uuids.foldl (changeJobState .done) queue).Safe table := by
    intro uuids
    induction uuids with
    | nil => exact fun _ safe => safe
    | cons uuid rest ih =>
        intro queue safe
        refine ih _ (Safe.enqueueWaiting ?_ uuid)
        exact safe.setState (fun _ _ active => absurd active (by decide)) (.inl rfl)
          fun runnable => absurd runnable (by decide)
  exact all _ queue safe

theorem Safe.buttonCancelled (safe : queue.Safe table) (uuids : List String) :
    (queue.buttonCancelled uuids).Safe table := by
  have all : ∀ (uuids : List String) (queue : JobQueue), queue.Safe table →
      (∀ uuid ∈ uuids, ∀ values, queue.values? uuid = some values → values.state ≠ .done) →
        (uuids.foldl (changeJobState .cancelled) queue).Safe table := by
    intro uuids
    induction uuids with
    | nil => exact fun _ safe _ => safe
    | cons uuid rest ih =>
        intro queue safe open_
        have notFinal : ¬ queue.Final uuid := by
          rintro ⟨⟨values, found, done⟩, _⟩
          exact open_ uuid List.mem_cons_self values found done
        have cancelled : (queue.setState .cancelled uuid).Safe table :=
          safe.setState (fun _ _ active => absurd active (by decide)) (.inr notFinal)
            fun runnable => absurd runnable (by decide)
        refine ih _ (cancelled.cancelDependentJobs uuid) fun other member values found done => ?_
        have none : MakesNoneDone queue ((queue.setState .cancelled uuid).cancelDependentJobs uuid) :=
          (makesNoneDone_setState (by decide) uuid).trans (makesNoneDone_foldl (by decide) _)
        obtain ⟨old, present, wasDone⟩ := none other values found done
        exact open_ other (List.mem_cons_of_mem _ member) old present wasDone
  refine all _ queue safe fun uuid member values found done => ?_
  obtain ⟨old, present, closes⟩ := hasState_iff.mp (List.mem_filter.mp member).2
  rw [found] at present
  cases present
  rw [done] at closes
  exact absurd closes (by decide)

theorem Safe.requeue (safe : queue.Safe table) {uuids : List String}
    (open_ : ∀ uuid ∈ uuids, ¬ queue.Final uuid) : (queue.requeue uuids).Safe table := by
  have all : ∀ (uuids : List String) (queue : JobQueue), queue.Safe table →
      (∀ uuid ∈ uuids, ¬ queue.Final uuid) →
        (uuids.foldl (changeJobState .pending) queue).Safe table := by
    intro uuids
    induction uuids with
    | nil => exact fun _ safe _ => safe
    | cons uuid rest ih =>
        intro queue safe open_
        refine ih _ (safe.setPending (open_ uuid List.mem_cons_self)) fun other member final => ?_
        obtain ⟨⟨values, found, done⟩, waitedFor⟩ := final
        have same : (changeJobState .pending queue uuid).dependencies = queue.dependencies :=
          (queue.aside_setState (queue.pendingState uuid) uuid).dependencies
        rw [same] at waitedFor
        refine open_ other (List.mem_cons_of_mem _ member) ⟨?_, waitedFor⟩
        exact makesNoneDone_setState (queue.pendingState_ne_done uuid) uuid other values found done
  exact all _ queue safe fun uuid member => open_ uuid (List.mem_filter.mp member).1

theorem Safe.edit (safe : queue.Safe table) (uuid : String) (edited : Values) :
    (queue.edit uuid edited).Safe table := by
  unfold JobQueue.edit
  cases found : queue.values? uuid with
  | none => exact safe
  | some values =>
      refine safe.write (fun _ _ => safe.related.known uuid values found)
        (fun active => ⟨values, found, active⟩) (fun child live depends _ same => ?_)
        fun _ same runnable => ?_
      · cases same
        exact (safe.live child live).2 uuid depends values found
      · cases same
        exact safe.parentsDone found runnable

theorem Safe.unlink (safe : queue.Safe table) (uuid : String) :
    (queue.unlink uuid).Safe table := by
  unfold JobQueue.unlink
  split
  · exact safe.write (fun _ absurdity => absurd absurdity.symm (Option.some_ne_none _)) trivial
      (fun _ _ _ _ absurdity => absurd absurdity.symm (Option.some_ne_none _))
      fun _ absurdity => absurd absurdity.symm (Option.some_ne_none _)
  · exact safe

/-!
## Delaying a graph
-/

theorem values?_foldl_write (new : String → Values) (uuids : List String) (queue : JobQueue)
    (other : String) :
    (uuids.foldl (fun queue uuid => queue.write uuid (some (new uuid))) queue).values? other =
      if other ∈ uuids then some (new other) else queue.values? other := by
  induction uuids generalizing queue with
  | nil => rfl
  | cons uuid rest ih =>
      rw [List.foldl_cons, ih, values?_write]
      by_cases same : other = uuid
      · subst same
        rw [if_pos rfl, if_pos List.mem_cons_self, ite_self]
      · rw [if_neg same]
        simp only [List.mem_cons, same, false_or]

theorem consistent_foldl_write {new : String → Values} (idle : ∀ uuid, ¬ (new uuid).state.Active)
    (uuids : List String) {queue : JobQueue} (consistent : queue.runner.Consistent table) :
    (uuids.foldl (fun queue uuid => queue.write uuid (some (new uuid)))
      queue).runner.Consistent table := by
  induction uuids generalizing queue with
  | nil => exact consistent
  | cons uuid rest ih =>
      exact ih (@Consistent.step _ _ consistent (.write uuid (some (new uuid)))
        fun active => absurd active (idle uuid))

/-- What a delayed graph adds to the queue. -/
structure Delayed (before : JobQueue) (graph : Graph String) (graphUuid : Option String)
    (after : JobQueue) : Prop where
  created : after.created = before.created ++ graph.vertices
  elsewhere : ∀ uuid ∉ graph.vertices, after.dependencies uuid = before.dependencies uuid ∧
    after.values? uuid = before.values? uuid
  graphUuid : ∀ uuid ∈ graph.vertices, (after.dependencies uuid).graphUuid = graphUuid
  dependsOn : ∀ parent, ∀ child ∈ graph.vertices,
    parent ∈ (after.dependencies child).dependsOn ↔ child ∈ graph.neighbours parent
  reverseDependsOn : ∀ parent ∈ graph.vertices, ∀ child,
    child ∈ (after.dependencies parent).reverseDependsOn ↔ child ∈ graph.neighbours parent
  state : ∀ uuid ∈ graph.vertices, ∃ values, after.values? uuid = some values ∧
    ((values.state = .pending ∧ (after.dependencies uuid).dependsOn = []) ∨
      (values.state = .waitDependencies ∧ (after.dependencies uuid).dependsOn ≠ []))
  waking : after.waking = before.waking
  channelManager : after.runner.channelManager = before.runner.channelManager
  task : after.runner.task = before.runner.task

theorem delay_delayed {graph : Graph String} {graphUuid : String} {jobs : String → GeneratedJob}
    (result : buildJobs graph graphUuid = some jobs) (queue : JobQueue)
    (values : String → Values) :
    Delayed queue graph (if graph.vertices.length = 1 then none else some graphUuid)
      (queue.delay graph graphUuid values) := by
  have built := buildJobs_built result
  unfold JobQueue.delay
  simp only [result]
  have aside := aside_foldl (fun queue uuid => queue.aside_write uuid
      (some { values uuid with state := (jobs uuid).state })) graph.vertices
    { queue with
      dependencies := fun uuid =>
        if uuid ∈ graph.vertices then (jobs uuid).dependencies else queue.dependencies uuid
      created := queue.created ++ graph.vertices }
  have rows := values?_foldl_write (fun uuid => { values uuid with state := (jobs uuid).state })
    graph.vertices
    { queue with
      dependencies := fun uuid =>
        if uuid ∈ graph.vertices then (jobs uuid).dependencies else queue.dependencies uuid
      created := queue.created ++ graph.vertices }
  have columns : ∀ uuid ∈ graph.vertices,
      (if uuid ∈ graph.vertices then (jobs uuid).dependencies else queue.dependencies uuid) =
        (jobs uuid).dependencies := fun uuid member => if_pos member
  refine ⟨aside.created, fun uuid absent => ⟨?_, ?_⟩, fun uuid member => ?_,
    fun parent child member => ?_, fun parent member child => ?_, fun uuid member => ?_,
    aside.waking, aside.channelManager, aside.task⟩
  · rw [aside.dependencies]
    exact if_neg absent
  · rw [rows uuid, if_neg absent]
    rfl
  · rw [aside.dependencies]
    exact (congrArg Dependencies.graphUuid (columns uuid member)).trans (built.graphUuid uuid)
  · rw [aside.dependencies, ← Graph.mem_edges, ← built.dependsOn parent child]
    simp only [columns child member]
  · rw [aside.dependencies, ← Graph.mem_edges, ← built.reverseDependsOn parent child]
    simp only [columns parent member]
  · rw [aside.dependencies, rows uuid, if_pos member]
    refine ⟨_, rfl, ?_⟩
    simp only [columns uuid member]
    by_cases free : (jobs uuid).dependencies.dependsOn = []
    · exact .inl ⟨built.free uuid free, free⟩
    · exact .inr ⟨built.waits uuid free, free⟩

theorem Related.delayed {graph : Graph String} {graphUuid : String} {after : JobQueue}
    (related : queue.Related) (fresh : ∀ uuid ∈ graph.vertices, uuid ∉ queue.created)
    (noLoop : ∀ edge ∈ graph.edges, edge.1 ≠ edge.2)
    (delayed : Delayed queue graph (if graph.vertices.length = 1 then none else some graphUuid)
      after) : after.Related := by
  have parents : ∀ {parent child}, child ∈ graph.neighbours parent → parent ∈ graph.vertices :=
    fun edge => Graph.mem_vertices.mpr (Graph.has_of_neighbour edge)
  have children : ∀ {parent child}, child ∈ graph.neighbours parent → child ∈ graph.vertices :=
    fun edge => Graph.mem_vertices.mpr (Graph.has_neighbour edge)
  have old : ∀ {child}, child ∉ graph.vertices → ∀ {parent},
      parent ∈ (after.dependencies child).dependsOn →
        parent ∈ (queue.dependencies child).dependsOn ∧ parent ∉ graph.vertices := by
    intro child absent parent depends
    rw [(delayed.elsewhere child absent).1] at depends
    exact ⟨depends, fun member => fresh parent member (related.parent_created depends)⟩
  refine ⟨fun parent child => ?_, fun parent child depends => ?_, fun uuid depends => ?_,
    fun uuid absent => ?_, fun uuid values found => ?_⟩
  · by_cases isParent : parent ∈ graph.vertices
    · rw [delayed.reverseDependsOn parent isParent child]
      by_cases isChild : child ∈ graph.vertices
      · exact (delayed.dependsOn parent child isChild).symm
      · exact iff_of_false (fun edge => isChild (children edge))
          fun depends => (old isChild depends).2 isParent
    · rw [(delayed.elsewhere parent isParent).1, related.mirrored parent child]
      by_cases isChild : child ∈ graph.vertices
      · refine iff_of_false (fun depends => fresh child isChild (related.child_created depends)) ?_
        exact fun depends => isParent (parents ((delayed.dependsOn parent child isChild).mp depends))
      · rw [(delayed.elsewhere child isChild).1]
  · by_cases isChild : child ∈ graph.vertices
    · have edge := (delayed.dependsOn parent child isChild).mp depends
      have several : graph.vertices.length ≠ 1 := by
        intro single
        obtain ⟨only, vertices⟩ := List.length_eq_one_iff.mp single
        have first := parents edge
        rw [vertices, List.mem_singleton] at first isChild
        exact noLoop (parent, child) (Graph.mem_edges.mpr edge) (first.trans isChild.symm)
      have graphs := delayed.graphUuid
      rw [if_neg several] at graphs
      exact ⟨graphUuid, graphs child isChild, graphs parent (parents edge)⟩
    · obtain ⟨before, isParent⟩ := old isChild depends
      rw [(delayed.elsewhere child isChild).1, (delayed.elsewhere parent isParent).1]
      exact related.grouped parent child before
  · by_cases member : uuid ∈ graph.vertices
    · exact noLoop (uuid, uuid)
        (Graph.mem_edges.mpr ((delayed.dependsOn uuid uuid member).mp depends)) rfl
    · exact related.irreflexive uuid (old member depends).1
  · rw [delayed.created, List.mem_append, not_or] at absent
    rw [(delayed.elsewhere uuid absent.2).1]
    exact related.unrelated uuid absent.1
  · rw [delayed.created, List.mem_append]
    by_cases member : uuid ∈ graph.vertices
    · exact .inr member
    · rw [(delayed.elsewhere uuid member).2] at found
      exact .inl (related.known uuid values found)

theorem waiting_not_runnable : ¬ JobState.waitDependencies.Runnable := by
  decide

theorem Safe.delay (safe : queue.Safe table) {graph : Graph String}
    (fresh : ∀ uuid ∈ graph.vertices, uuid ∉ queue.created) (graphUuid : String)
    (values : String → Values) : (queue.delay graph graphUuid values).Safe table := by
  cases result : buildJobs graph graphUuid with
  | none =>
      unfold JobQueue.delay
      simp only [result]
      exact safe
  | some jobs =>
      have delayed := delay_delayed result queue values
      have built := buildJobs_built result
      refine ⟨safe.related.delayed fresh (not_self_of_built result) delayed, ?_,
        fun uuid live => ?_⟩
      · unfold JobQueue.delay
        simp only [result]
        exact consistent_foldl_write built.idle graph.vertices safe.consistent
      · have selected : (queue.delay graph graphUuid values).runner.selected =
            queue.runner.selected := by
          unfold JobRunner.selected
          rw [delayed.task]
        by_cases member : uuid ∈ graph.vertices
        · rcases live with ⟨row, found, runnable⟩ | elsewhere
          · obtain ⟨new, present, ⟨_, free⟩ | ⟨waits, _⟩⟩ := delayed.state uuid member
            · refine ⟨?_, fun parent depends => ?_⟩
              · rw [delayed.created]
                exact List.mem_append_right _ member
              · rw [free] at depends
                exact absurd depends List.not_mem_nil
            · unfold values? at present
              rw [found] at present
              cases present
              rw [waits] at runnable
              exact absurd runnable waiting_not_runnable
          · rw [delayed.channelManager, selected] at elsewhere
            exact absurd (safe.live uuid (.inr elsewhere)).1 (fresh uuid member)
        · have before : queue.runner.Live uuid := by
            unfold Live at live ⊢
            rw [delayed.channelManager, selected] at live
            have row := (delayed.elsewhere uuid member).2
            unfold values? at row
            rwa [row] at live
          obtain ⟨known, done⟩ := safe.live uuid before
          refine ⟨?_, fun parent depends old found => ?_⟩
          · rw [delayed.created]
            exact List.mem_append_left _ known
          · rw [(delayed.elsewhere uuid member).1] at depends
            have isOld : parent ∉ graph.vertices := fun new =>
              fresh parent new (safe.related.parent_created depends)
            rw [(delayed.elsewhere parent isOld).2] at found
            exact done parent depends old found

/-!
## Whole runs
-/

/-- The uuids of new jobs are new, and no job that others depend on is taken back after it
was done: not by a user, and not by the runner that marks it as enqueued too late. -/
def Orderly (queue : JobQueue) : QueueEvent → Prop
  | .delay graph _ _ => ∀ uuid ∈ graph.vertices, uuid ∉ queue.created
  | .requeue uuids => ∀ uuid ∈ uuids, ¬ queue.Final uuid
  | .runner .setJobEnqueued => ∀ job rest, queue.runner.task = .runJobs (job :: rest) →
      ¬ queue.Final (queue.runner.channelManager.jobs job).uuid
  | _ => True

theorem rows_notify (runner : JobRunner) (uuid : String) (values : Values) :
    (runner.notify table uuid values).rows = runner.rows := by
  unfold JobRunner.notify
  generalize runner.channelManager.notify (table.jobData uuid values) = outcome
  obtain ⟨manager, failed⟩ := outcome
  cases failed with
  | false => rfl
  | true => rfl

/-- The runner only writes the rows that it marks. -/
theorem rows_step {runner : JobRunner} {event : RunnerEvent}
    (own : ∀ uuid values, event ≠ .write uuid values) (marks : event ≠ .setJobEnqueued) :
    (runner.step table event).rows = runner.rows := by
  obtain ⟨rows, sent, notifies, manager, task⟩ := runner
  cases event with
  | write uuid values => exact absurd rfl (own uuid values)
  | setJobEnqueued => exact absurd rfl marks
  | receive count => rfl
  | restart sent => rfl
  | runJobs now => cases task <;> rfl
  | waitNotification => cases task <;> rfl
  | initializeNext =>
      cases task with
      | failed => rfl
      | idle => rfl
      | runJobs handed => rfl
      | initializeDatabases selected =>
          cases selected with
          | nil => rfl
          | cons entry rest => exact rows_notify _ entry.1 entry.2
  | processNotification =>
      cases task with
      | failed => rfl
      | initializeDatabases selected => rfl
      | runJobs handed => rfl
      | idle =>
          change (JobRunner.processNotification table ⟨rows, sent, notifies, manager, .idle⟩).rows =
            rows
          cases last : notifies.getLast? with
          | none =>
              unfold JobRunner.processNotification
              simp only [last]
          | some uuid =>
              unfold JobRunner.processNotification
              simp only [last]
              cases found : rows.get? uuid with
              | none => rfl
              | some values => exact rows_notify _ uuid values

/-- The row that is marked is the one of the first job that was handed out. -/
theorem rows_setJobEnqueued (runner : JobRunner) (uuid : String) :
    runner.setJobEnqueued.rows.get? uuid = runner.rows.get? uuid ∨
      ∃ job rest old, runner.task = .runJobs (job :: rest) ∧
        (runner.channelManager.jobs job).uuid = uuid ∧ runner.rows.get? uuid = some old ∧
          runner.setJobEnqueued.rows.get? uuid = some { old with state := .enqueued } := by
  obtain ⟨rows, sent, notifies, manager, task⟩ := runner
  cases task with
  | failed => exact .inl rfl
  | idle => exact .inl rfl
  | initializeDatabases selected => exact .inl rfl
  | runJobs handed =>
      cases handed with
      | nil => exact .inl rfl
      | cons job rest =>
          unfold JobRunner.setJobEnqueued
          simp only
          cases row : rows.get? (manager.jobs job).uuid with
          | none => exact .inl rfl
          | some old =>
              simp only
              by_cases same : uuid = (manager.jobs job).uuid
              · subst same
                refine .inr ⟨job, rest, old, rfl, rfl, row, ?_⟩
                rw [get?_write, if_pos rfl]
              · refine .inl ?_
                rw [get?_write, if_neg same]

/-- A step of the runner, after which the jobs that are done still are, unless nothing
depends on them. -/
theorem Safe.act (safe : queue.Safe table) {event : RunnerEvent}
    (own : ∀ uuid values, event ≠ .write uuid values)
    (kept : ∀ uuid values, (queue.runner.step table event).rows.get? uuid = some values →
      ∃ old, queue.values? uuid = some old ∧ (values.state = old.state ∨ ¬ queue.Final uuid)) :
    Safe table { queue with runner := queue.runner.step table event } := by
  have allowed : queue.runner.OnlyRunnerEnqueues event := by
    cases event with
    | write uuid values => exact absurd rfl (own uuid values)
    | _ => trivial
  refine ⟨⟨safe.related.mirrored, safe.related.grouped, safe.related.irreflexive,
    safe.related.unrelated, fun uuid values found => ?_⟩, safe.consistent.step allowed,
    fun uuid live => ?_⟩
  · obtain ⟨old, before, _⟩ := kept uuid values found
    exact safe.related.known uuid old before
  · obtain ⟨known, done⟩ := safe.live uuid (live_step safe.consistent own live)
    refine ⟨known, fun parent depends values found => ?_⟩
    obtain ⟨old, before, same | notFinal⟩ := kept parent values found
    · exact same.trans (done parent depends old before)
    · refine absurd ⟨⟨old, before, done parent depends old before⟩, ?_⟩ notFinal
      exact List.ne_nil_of_mem ((safe.related.mirrored parent uuid).mpr depends)

theorem Safe.runner (safe : queue.Safe table) {event : RunnerEvent}
    (orderly : queue.Orderly (.runner event)) : (queue.step table (.runner event)).Safe table := by
  have quiet : (∀ uuid values, event ≠ .write uuid values) → event ≠ .setJobEnqueued →
      Safe table { queue with runner := queue.runner.step table event } := fun own marks =>
    safe.act own fun uuid values found => by
      rw [rows_step own marks] at found
      exact ⟨values, found, .inl rfl⟩
  cases event with
  | write uuid values => exact safe
  | receive count => exact quiet (fun _ _ => RunnerEvent.noConfusion) RunnerEvent.noConfusion
  | initializeNext => exact quiet (fun _ _ => RunnerEvent.noConfusion) RunnerEvent.noConfusion
  | processNotification =>
      exact quiet (fun _ _ => RunnerEvent.noConfusion) RunnerEvent.noConfusion
  | runJobs now => exact quiet (fun _ _ => RunnerEvent.noConfusion) RunnerEvent.noConfusion
  | waitNotification =>
      exact quiet (fun _ _ => RunnerEvent.noConfusion) RunnerEvent.noConfusion
  | restart sent => exact quiet (fun _ _ => RunnerEvent.noConfusion) RunnerEvent.noConfusion
  | setJobEnqueued =>
      refine safe.act (fun _ _ => RunnerEvent.noConfusion) fun uuid values found => ?_
      change queue.runner.setJobEnqueued.rows.get? uuid = some values at found
      rcases rows_setJobEnqueued queue.runner uuid with same | ⟨job, rest, old, task, rfl, row, _⟩
      · rw [same] at found
        exact ⟨values, found, .inl rfl⟩
      · exact ⟨old, row, .inr (orderly job rest task)⟩

theorem Safe.step (safe : queue.Safe table) {event : QueueEvent}
    (orderly : queue.Orderly event) : (queue.step table event).Safe table := by
  cases event with
  | delay graph graphUuid values => exact safe.delay orderly graphUuid values
  | acquireJob uuid => exact safe.acquireJob uuid
  | tryPerformJob uuid => exact safe.tryPerformJob uuid
  | enqueueDependentJobs uuid => exact safe.enqueueDependentJobs uuid
  | workerDies uuid => exact safe.waking (queue.waking.erase uuid)
  | retryPostpone uuid eta => exact safe.retryPostpone uuid eta
  | fail uuid => exact safe.fail uuid
  | requeueDeadJob uuid tooManyRetries => exact safe.requeueDeadJob uuid tooManyRetries
  | buttonDone uuids => exact safe.buttonDone uuids
  | buttonCancelled uuids => exact safe.buttonCancelled uuids
  | requeue uuids => exact safe.requeue orderly
  | edit uuid edited => exact safe.edit uuid edited
  | unlink uuid => exact safe.unlink uuid
  | runner event => exact safe.runner orderly

theorem related_start (manager : ChannelManager) (sent : List String) :
    (start manager sent).Related :=
  ⟨fun _ _ => iff_of_false List.not_mem_nil List.not_mem_nil,
    fun _ _ depends => absurd depends List.not_mem_nil, fun _ => List.not_mem_nil, fun _ _ => rfl,
    fun _ _ found => absurd found.symm (Option.some_ne_none _)⟩

variable {int : Name → Except Name Int} {configString : Name} {configured : ChannelManager}

theorem safe_start
    (success : ChannelManager.init.simpleConfigure int configString = .ok configured)
    (sent : List String) : (start configured sent).Safe table := by
  refine ⟨related_start configured sent,
    @consistent_run table .empty sent int configString configured success [] trivial,
    fun uuid live => ?_⟩
  rcases live with ⟨values, found, _⟩ | ⟨job, holds, _⟩ | ⟨_, among, _⟩
  · exact absurd found.symm (Option.some_ne_none values)
  · exact absurd holds ((empty_simpleConfigure success).2 job)
  · exact absurd among List.not_mem_nil

/-- Whatever the workers, the users and the runner do, in whatever order their
transactions are committed and however late the runner hears of them: as long as no job
that others depend on is taken back after it was done, every job that a job depends on is
done, if it still exists, when that one is pending, enqueued or started. -/
theorem runnable_after_parents
    (success : ChannelManager.init.simpleConfigure int configString = .ok configured)
    (sent : List String) (events : List QueueEvent)
    (orderly : GuardedRun.Meets (step table) Orderly (start configured sent) events)
    (parent child : String) (parentValues values : Values) :
    let after := GuardedRun.run (step table) (start configured sent) events
    parent ∈ (after.dependencies child).dependsOn →
      after.values? child = some values → values.state.Runnable →
        after.values? parent = some parentValues → parentValues.state = .done := by
  intro after depends found runnable present
  have safe : after.Safe table := GuardedRun.guarded_invariant (Safe table)
    (fun _ _ safe orderly => safe.step orderly) (safe_start success sent) orderly
  exact safe.parentsDone found runnable parent depends parentValues present

/-- Two jobs, of which the second depends on the first. -/
def twoJobs : Graph String :=
  Graph.empty.addEdge "first" "second"

def twoJobsRun : List QueueEvent :=
  [.delay twoJobs "graph" fun _ => waitingRow, .runner .initializeNext, .runner (.receive 2),
    .runner .processNotification, .buttonDone ["first"], .runner (.receive 2),
    .runner .processNotification, .runner (.runJobs 5)]

theorem runnable_after_parents_two :
    let after := GuardedRun.run (step jobTable) (start ChannelManager.init []) twoJobsRun
    ∀ parentValues, after.values? "first" = some parentValues → parentValues.state = .done :=
  fun parentValues => @runnable_after_parents jobTable (fun text => .error text) []
    ChannelManager.init rfl [] twoJobsRun
    ⟨fun _ _ => List.not_mem_nil, trivial, trivial, trivial, trivial, trivial, trivial, trivial,
      trivial⟩ "first" "second" parentValues waitingRow (by decide) rfl (.inl rfl)

end JobQueue

end WorkflowStudio.Queue
