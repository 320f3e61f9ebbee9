import WorkflowStudio.Lib.GuardedRun
import WorkflowStudio.Workflow.History

/-! The revision list over whole runs: ids fall strictly, milestones stay, and
pruning keeps the bound. The newest revision is the current draft, and no id is
given to two contents, as long as the milestones leave room for a revision. -/

set_option autoImplicit false

namespace WorkflowStudio.Workflow

open Lib GuardedRun

/-!
## Pruning
-/

/-- Newest first, without repeated ids. -/
def Descending (revisions : List Revision) : Prop :=
  revisions.Pairwise fun newer older => older.revisionId < newer.revisionId

instance : IsTrans Revision Revision.NotOlder where
  trans _ _ _ := fun first second => Nat.le_trans second first

instance : Std.Total Revision.NotOlder where
  total left right := Nat.le_total right.revisionId left.revisionId

theorem pruned_subperm (revisions : List Revision) :
    ∃ kept whole : List Revision, kept.Perm (pruneRevisions revisions) ∧ kept.Sublist whole ∧
      whole.Perm revisions := by
  refine ⟨_, revisions.filter (·.isMilestone) ++ revisions.filter (!·.isMilestone),
    (List.perm_insertionSort Revision.NotOlder _).symm, ?_, ?_⟩
  · exact (List.Sublist.refl _).append (List.take_sublist _ _)
  · exact List.filter_append_perm _ revisions

theorem mem_of_mem_prune {revisions : List Revision} {revision : Revision}
    (listed : revision ∈ pruneRevisions revisions) : revision ∈ revisions := by
  obtain ⟨kept, whole, same, part, all⟩ := pruned_subperm revisions
  exact all.mem_iff.mp (part.subset (same.mem_iff.mpr listed))

theorem milestone_mem_prune {revisions : List Revision} {revision : Revision}
    (listed : revision ∈ revisions) (milestone : revision.isMilestone = true) :
    revision ∈ pruneRevisions revisions := by
  unfold pruneRevisions
  rw [List.mem_insertionSort, List.mem_append]
  exact .inl (List.mem_filter.mpr ⟨listed, milestone⟩)

theorem Descending.prune {revisions : List Revision} (descending : Descending revisions) :
    Descending (pruneRevisions revisions) := by
  obtain ⟨kept, whole, same, part, all⟩ := pruned_subperm revisions
  have distinct : (revisions.map Revision.revisionId).Nodup := by
    refine List.pairwise_map.mpr (descending.imp fun falls => ?_)
    exact (Nat.ne_of_lt falls).symm
  have pruned : ((pruneRevisions revisions).map Revision.revisionId).Nodup := by
    rw [← (same.map Revision.revisionId).nodup_iff]
    refine (part.map Revision.revisionId).nodup ?_
    exact (all.map Revision.revisionId).nodup_iff.mpr distinct
  have sorted : (pruneRevisions revisions).Pairwise Revision.NotOlder :=
    List.pairwise_insertionSort Revision.NotOlder _
  refine (sorted.and (List.pairwise_map.mp pruned)).imp fun ⟨notOlder, different⟩ => ?_
  exact Nat.lt_of_le_of_ne notOlder (Ne.symm different)

theorem prune_bound (revisions : List Revision) :
    ((pruneRevisions revisions).filter (!·.isMilestone)).length ≤
      workflowFieldHistorySizeLimit - ((pruneRevisions revisions).filter (·.isMilestone)).length := by
  have sorted := List.perm_insertionSort Revision.NotOlder
    (revisions.filter (·.isMilestone) ++ (revisions.filter (!·.isMilestone)).take
      (workflowFieldHistorySizeLimit - (revisions.filter (·.isMilestone)).length))
  have others : ∀ taken : List Revision, taken.Sublist (revisions.filter (!·.isMilestone)) →
      taken.filter (·.isMilestone) = [] ∧ taken.filter (!·.isMilestone) = taken := by
    intro taken part
    constructor
    · refine List.filter_eq_nil_iff.mpr fun revision member => ?_
      simpa using (List.mem_filter.mp (part.subset member)).2
    · exact List.filter_eq_self.mpr fun revision member =>
        (List.mem_filter.mp (part.subset member)).2
  obtain ⟨none, same⟩ := others _ (List.take_sublist _ _)
  have milestones := (sorted.filter (·.isMilestone)).length_eq
  have rest := (sorted.filter (!·.isMilestone)).length_eq
  rw [List.filter_append, none, List.append_nil, List.filter_filter] at milestones
  rw [List.filter_append, same, List.filter_filter, List.length_append] at rest
  simp only [Bool.and_self] at milestones
  simp only [Bool.not_and_self, List.filter_false, List.length_nil, Nat.zero_add] at rest
  unfold pruneRevisions
  dsimp only
  rw [rest, milestones]
  exact List.length_take_le _ _

theorem head?_prune {newest : Revision} {older : List Revision}
    (descending : Descending (newest :: older))
    (room : newest.isMilestone = true ∨
      (older.filter (·.isMilestone)).length < workflowFieldHistorySizeLimit) :
    (pruneRevisions (newest :: older)).head? = some newest := by
  have kept : newest ∈ pruneRevisions (newest :: older) := by
    cases flag : newest.isMilestone with
    | true => exact milestone_mem_prune List.mem_cons_self flag
    | false =>
        have space : (older.filter (·.isMilestone)).length < workflowFieldHistorySizeLimit := by
          rcases room with milestone | space
          · rw [flag] at milestone
            cases milestone
          · exact space
        obtain ⟨slots, available⟩ := Nat.exists_eq_succ_of_ne_zero (Nat.sub_ne_zero_of_lt space)
        simp [pruneRevisions, List.mem_insertionSort, flag, available]
  have falls := Descending.prune descending
  cases pruned : pruneRevisions (newest :: older) with
  | nil =>
      rw [pruned] at kept
      cases kept
  | cons first rest =>
      rw [pruned] at kept falls
      have listed : first ∈ newest :: older :=
        mem_of_mem_prune (by rw [pruned]; exact List.mem_cons_self)
      rcases List.mem_cons.mp listed with same | older
      · rw [same]
        rfl
      · -- an older revision cannot stand before the newest one
        have below := (List.pairwise_cons.mp descending).1 first older
        rcases List.mem_cons.mp kept with same | later
        · rw [same] at below
          exact absurd below (Nat.lt_irrefl _)
        · exact absurd ((List.pairwise_cons.mp falls).1 newest later) (Nat.lt_asymm below)

/-!
## What a request does to the history
-/

/-- The revision is in the list, up to its note and its milestone flag. -/
def Revision.SameContent (left right : Revision) : Prop :=
  left.revisionId = right.revisionId ∧ left.hash = right.hash ∧ left.snapshotRef = right.snapshotRef

def HistoryRecord.draftHash (digests : Digests) (record : HistoryRecord) : Option String :=
  computeSnapshotHash digests (record.draftSnapshot.orElse (.dict []))

def HistoryRecord.milestoneCount (record : HistoryRecord) : Nat :=
  (record.revisions.filter (·.isMilestone)).length

/-- The list after a pruning write: a revision of the current draft before the
older ones, either new with the next id or the newest one made a milestone. -/
structure Recorded (digests : Digests) (before after : HistoryRecord) (revision : Revision)
    (older : List Revision) : Prop where
  pruned : after.revisions = pruneRevisions (revision :: older)
  hash : revision.hash = after.draftHash digests
  origin : older = before.revisions ∧ revision.revisionId = before.nextRevisionId ∨
    revision.isMilestone = true ∧ ∃ newest, before.revisions = newest :: older ∧
      revision.SameContent newest

namespace HistoryRecord

variable {digests : Digests} {record : HistoryRecord}

theorem nextRevisionId_pos (record : HistoryRecord) : 0 < record.nextRevisionId := by
  unfold nextRevisionId
  split <;> exact Nat.succ_pos _

theorem chosenRevisionId_eq {revisionId : Option Nat}
    (given : revisionId = none ∨ revisionId = some record.nextRevisionId) :
    record.chosenRevisionId revisionId = record.nextRevisionId := by
  rcases given with rfl | rfl
  · rfl
  · obtain ⟨before, positive⟩ := Nat.exists_eq_succ_of_ne_zero record.nextRevisionId_pos.ne'
    rw [positive]
    rfl

variable (digests record) in
theorem insertRevision_recorded (author : Author) (note : String) (isMilestone : Bool)
    {revisionId : Option Nat}
    (given : revisionId = none ∨ revisionId = some record.nextRevisionId) :
    ∃ after revision,
      insertRevision digests author record (record.draftSnapshot.orElse (.dict [])) note
        isMilestone revisionId = (after, revision.revisionId) ∧
      revision.isMilestone = isMilestone ∧ after.draftSnapshot = record.draftSnapshot ∧
      Recorded digests record after revision record.revisions := by
  let snapshot := record.draftSnapshot.orElse (.dict [])
  let revision : Revision := {
    revisionId := record.chosenRevisionId revisionId
    snapshotRef := (getOrCreateFromSnapshot digests record.blobs snapshot).2
    hash := computeSnapshotHash digests snapshot
    createDate := author.now
    createUid := author.uid
    createUserName := author.userName
    note := note
    isMilestone := isMilestone }
  refine ⟨_, revision, rfl, rfl, rfl, rfl, rfl, .inl ⟨rfl, ?_⟩⟩
  exact chosenRevisionId_eq given

variable (digests record) in
/-- A write of the current draft to the history: nothing when the newest
revision has its hash, else a recorded revision. -/
theorem createSnapshotRevision_cases (author : Author) (contextNote note : Option String)
    (isMilestone : Bool) {revisionId : Option Nat}
    (given : revisionId = none ∨ revisionId = some record.nextRevisionId) :
    (isMilestone = false ∧
      createSnapshotRevision digests author contextNote record
        (record.draftSnapshot.orElse (.dict [])) note isMilestone revisionId = (record, none) ∧
      ∃ newest older, record.revisions = newest :: older ∧
        newest.hash = record.draftHash digests) ∨
    ∃ after revision older,
      createSnapshotRevision digests author contextNote record
        (record.draftSnapshot.orElse (.dict [])) note isMilestone revisionId =
          (after, some revision.revisionId) ∧
      revision.isMilestone = isMilestone ∧ after.draftSnapshot = record.draftSnapshot ∧
      Recorded digests record after revision older := by
  obtain ⟨after, revision, inserted, flag, draft, recorded⟩ := insertRevision_recorded digests
    record author (noteValue note contextNote) isMilestone given
  unfold createSnapshotRevision
  dsimp only
  cases listed : record.revisions with
  | nil => exact .inr ⟨after, revision, _, by rw [inserted], flag, draft, recorded⟩
  | cons newest older =>
      dsimp only
      split
      · next same =>
          cases isMilestone with
          | false => exact .inl ⟨rfl, rfl, newest, older, rfl, same⟩
          | true =>
              let marked : Revision :=
                { newest with isMilestone := true, note := noteValue note contextNote }
              exact .inr ⟨_, marked, older, rfl, rfl, rfl, rfl, same,
                .inr ⟨rfl, newest, listed, rfl, rfl, rfl⟩⟩
      · exact .inr ⟨after, revision, _, by rw [inserted], flag, draft, recorded⟩

theorem changeRevision_forall (revisionId : Nat) (change : Revision → Revision)
    (revisions : List Revision) :
    List.Forall₂ (fun changed original => changed = original ∨
        original.revisionId = revisionId ∧ changed = change original)
      (changeRevision revisionId change revisions) revisions := by
  induction revisions with
  | nil => exact .nil
  | cons revision rest ih =>
      unfold changeRevision
      split
      · next here =>
          refine .cons (.inr ⟨here, rfl⟩) ?_
          exact List.forall₂_same.mpr fun _ _ => .inl rfl
      · exact .cons (.inl rfl) ih

end HistoryRecord

def HistoryOperation.WritesDraft (record : HistoryRecord) : HistoryOperation → Prop
  | .write _ _ => True
  | .restore _ revisionId => record.getContentAtRevision revisionId ≠ none
  | .createMilestone _ _ | .markMilestone _ _ | .unmarkMilestone _ => False

def HistoryOperation.Unmarks (revisionId : Nat) (operation : HistoryOperation) : Prop :=
  operation = .unmarkMilestone revisionId

section Requests

variable {digests : Digests} {record : HistoryRecord}

/-- The flags and notes of a request without a new revision: the revisions
correspond, and flags are only lost to `unmark`. -/
def Relabelled (operation : HistoryOperation) (after before : List Revision) : Prop :=
  List.Forall₂ (fun changed original => changed.SameContent original ∧
    (original.isMilestone = true → changed.isMilestone = true ∨
      operation.Unmarks original.revisionId)) after before

theorem Relabelled.refl (operation : HistoryOperation) (revisions : List Revision) :
    Relabelled operation revisions revisions :=
  List.forall₂_same.mpr fun _ _ => ⟨⟨rfl, rfl, rfl⟩, .inl⟩

theorem write_cases (author : Author) (contextNote : Option String) (value : Value) :
    ((record.write digests author contextNote value).2 = none ∧
      (record.write digests author contextNote value).1.revisions = record.revisions ∧
      ∃ newest older, record.revisions = newest :: older ∧
        newest.hash = (record.write digests author contextNote value).1.draftHash digests) ∨
    ∃ revision older,
      (record.write digests author contextNote value).2 = some revision.revisionId ∧
      Recorded digests record (record.write digests author contextNote value).1 revision older := by
  let written := { record with draftSnapshot := value.orElse (.bool false) }
  rcases HistoryRecord.createSnapshotRevision_cases digests written author contextNote none
    false (.inl rfl) with
    ⟨_, unchanged, newest, older, listed, hash⟩ | ⟨after, revision, older, recorded, _, draft, spec⟩
  · refine .inl ?_
    unfold HistoryRecord.write
    rw [unchanged]
    exact ⟨rfl, rfl, newest, older, listed, hash⟩
  · refine .inr ⟨revision, older, ?_⟩
    unfold HistoryRecord.write
    rw [recorded]
    exact ⟨rfl, spec.pruned, spec.hash, spec.origin⟩

variable (digests record) in
theorem perform_cases (operation : HistoryOperation) :
    ((operation.perform digests record).2 = none ∧
      Relabelled operation (operation.apply digests record).revisions record.revisions ∧
      (operation.WritesDraft record → ∃ newest older, record.revisions = newest :: older ∧
        (operation.apply digests record).revisions = record.revisions ∧
        newest.hash = (operation.apply digests record).draftHash digests)) ∨
    ∃ revision older, (operation.perform digests record).2 = some revision.revisionId ∧
      Recorded digests record (operation.apply digests record) revision older ∧
      (revision.isMilestone = true ∨ operation.WritesDraft record) := by
  cases operation with
  | write author value =>
      rcases write_cases author none value with
        ⟨none, same, newest, older, listed, hash⟩ | ⟨revision, older, created, recorded⟩
      · refine .inl ⟨none, ?_, fun _ => ⟨newest, older, listed, same, hash⟩⟩
        simp only [HistoryOperation.apply, HistoryOperation.perform, same]
        exact .refl _ _
      · exact .inr ⟨revision, older, created, recorded, .inr trivial⟩
  | createMilestone author name =>
      rcases HistoryRecord.createSnapshotRevision_cases digests record author none _ true
        (.inr rfl) with
        ⟨never, _⟩ | ⟨after, revision, older, created, flag, _, recorded⟩
      · cases never
      · refine .inr ⟨revision, older, ?_⟩
        simp only [HistoryOperation.apply, HistoryOperation.perform, HistoryRecord.createMilestone]
        rw [created]
        exact ⟨rfl, recorded, .inl flag⟩
  | markMilestone revisionId name =>
      refine .inl ?_
      simp only [HistoryOperation.apply, HistoryOperation.perform, HistoryRecord.markMilestone]
      split
      · next marked result =>
          split at result
          · cases result
            refine ⟨rfl, ?_, fun writes => nomatch writes⟩
            refine (HistoryRecord.changeRevision_forall revisionId _ record.revisions).imp ?_
            rintro changed original (rfl | ⟨_, rfl⟩)
            · exact ⟨⟨rfl, rfl, rfl⟩, .inl⟩
            · exact ⟨⟨rfl, rfl, rfl⟩, fun _ => .inl rfl⟩
          · cases result
      · exact ⟨rfl, .refl _ _, fun writes => nomatch writes⟩
  | unmarkMilestone revisionId =>
      refine .inl ⟨rfl, ?_, fun writes => nomatch writes⟩
      refine (HistoryRecord.changeRevision_forall revisionId _ record.revisions).imp ?_
      rintro changed original (rfl | ⟨here, rfl⟩)
      · exact ⟨⟨rfl, rfl, rfl⟩, .inl⟩
      · exact ⟨⟨rfl, rfl, rfl⟩, fun _ => .inr (by rw [here]; rfl)⟩
  | restore author revisionId =>
      simp only [HistoryOperation.apply, HistoryOperation.perform, HistoryRecord.restore,
        HistoryOperation.WritesDraft]
      cases content : record.getContentAtRevision revisionId with
      | none => exact .inl ⟨rfl, .refl _ _, fun writes => absurd rfl writes⟩
      | some restored =>
          rcases write_cases author (some s!"Restored from v{revisionId}") restored with
            ⟨none, same, newest, older, listed, hash⟩ | ⟨revision, older, created, recorded⟩
          · refine .inl ⟨none, ?_, fun _ => ⟨newest, older, listed, same, hash⟩⟩
            simp only [same]
            exact .refl _ _
          · exact .inr ⟨revision, older, created, recorded, .inr nofun⟩

/-!
## One request
-/

theorem lt_nextRevisionId (descending : Descending record.revisions) :
    ∀ revision ∈ record.revisions, revision.revisionId < record.nextRevisionId := by
  intro revision member
  unfold HistoryRecord.nextRevisionId
  cases listed : record.revisions with
  | nil =>
      rw [listed] at member
      cases member
  | cons newest older =>
      rw [listed] at member descending
      rcases List.mem_cons.mp member with rfl | later
      · exact Nat.lt_succ_self _
      · exact Nat.lt_succ_of_lt ((List.pairwise_cons.mp descending).1 revision later)

theorem Recorded.descending {after : HistoryRecord} {revision : Revision} {older : List Revision}
    (recorded : Recorded digests record after revision older)
    (descending : Descending record.revisions) : Descending (revision :: older) := by
  rcases recorded.origin with ⟨rfl, next⟩ | ⟨_, newest, listed, same⟩
  · refine List.pairwise_cons.mpr ⟨fun other member => ?_, descending⟩
    rw [next]
    exact lt_nextRevisionId descending other member
  · rw [listed] at descending
    refine List.pairwise_cons.mpr ⟨fun other member => ?_, (List.pairwise_cons.mp descending).2⟩
    rw [same.1]
    exact (List.pairwise_cons.mp descending).1 other member

theorem Relabelled.corresponding {operation : HistoryOperation} {after before : List Revision}
    (relabelled : Relabelled operation after before) {revision : Revision}
    (listed : revision ∈ before) :
    ∃ kept ∈ after, kept.SameContent revision ∧ (revision.isMilestone = true →
      kept.isMilestone = true ∨ operation.Unmarks revision.revisionId) := by
  induction relabelled with
  | nil => cases listed
  | cons first _ ih =>
      rcases List.mem_cons.mp listed with rfl | later
      · exact ⟨_, List.mem_cons_self, first⟩
      · obtain ⟨kept, member, same⟩ := ih later
        exact ⟨kept, List.mem_cons_of_mem _ member, same⟩

theorem Relabelled.descending {operation : HistoryOperation} {after before : List Revision}
    (relabelled : Relabelled operation after before) (descending : Descending before) :
    Descending after := by
  have ids : after.map Revision.revisionId = before.map Revision.revisionId := by
    refine List.forall₂_eq_eq_eq ▸ ?_
    rw [List.forall₂_map_left_iff, List.forall₂_map_right_iff]
    exact relabelled.imp fun _ _ same => same.1.1
  unfold Descending at descending ⊢
  rw [← List.pairwise_map (f := Revision.revisionId) (R := fun newer older => older < newer)]
    at descending ⊢
  rw [ids]
  exact descending

theorem descending_apply (descending : Descending record.revisions)
    (operation : HistoryOperation) : Descending (operation.apply digests record).revisions := by
  rcases perform_cases digests record operation with
    ⟨_, relabelled, _⟩ | ⟨revision, older, _, recorded, _⟩
  · exact relabelled.descending descending
  · rw [recorded.pruned]
    exact (recorded.descending descending).prune

theorem milestone_kept {revision : Revision} (listed : revision ∈ record.revisions)
    (milestone : revision.isMilestone = true) (operation : HistoryOperation) :
    ∃ kept ∈ (operation.apply digests record).revisions, kept.SameContent revision ∧
      (kept.isMilestone = true ∨ operation.Unmarks revision.revisionId) := by
  rcases perform_cases digests record operation with
    ⟨_, relabelled, _⟩ | ⟨created, older, _, recorded, _⟩
  · obtain ⟨kept, member, same, flag⟩ := relabelled.corresponding listed
    exact ⟨kept, member, same, flag milestone⟩
  · rw [recorded.pruned]
    rcases recorded.origin with ⟨rfl, _⟩ | ⟨flag, newest, before, same⟩
    · exact ⟨revision, milestone_mem_prune (List.mem_cons_of_mem _ listed) milestone,
        ⟨rfl, rfl, rfl⟩, .inl milestone⟩
    · rw [before] at listed
      rcases List.mem_cons.mp listed with rfl | later
      · exact ⟨created, milestone_mem_prune List.mem_cons_self flag, same, .inl flag⟩
      · exact ⟨revision, milestone_mem_prune (List.mem_cons_of_mem _ later) milestone,
          ⟨rfl, rfl, rfl⟩, .inl milestone⟩

theorem pruned_bound {operation : HistoryOperation}
    (pruning : (operation.perform digests record).2 ≠ none) :
    ((operation.apply digests record).revisions.filter (!·.isMilestone)).length ≤
      workflowFieldHistorySizeLimit - (operation.apply digests record).milestoneCount := by
  rcases perform_cases digests record operation with
    ⟨nothing, _⟩ | ⟨revision, older, _, recorded, _⟩
  · exact absurd nothing pruning
  · unfold HistoryRecord.milestoneCount
    rw [recorded.pruned]
    exact prune_bound _

theorem Recorded.newest {after : HistoryRecord} {revision : Revision} {older : List Revision}
    (recorded : Recorded digests record after revision older)
    (descending : Descending record.revisions)
    (room : revision.isMilestone = true ∨
      record.milestoneCount < workflowFieldHistorySizeLimit) :
    after.revisions.head? = some revision := by
  rw [recorded.pruned]
  refine head?_prune (recorded.descending descending) ?_
  rcases recorded.origin with ⟨rfl, _⟩ | ⟨flag, _⟩
  · exact room
  · exact .inl flag

theorem newest_of_write (descending : Descending record.revisions) {operation : HistoryOperation}
    (writes : operation.WritesDraft record)
    (room : record.milestoneCount < workflowFieldHistorySizeLimit) :
    ∃ newest, (operation.apply digests record).revisions.head? = some newest ∧
      newest.hash = (operation.apply digests record).draftHash digests := by
  rcases perform_cases digests record operation with
    ⟨_, _, unchanged⟩ | ⟨revision, older, _, recorded, _⟩
  · obtain ⟨newest, older, listed, same, hash⟩ := unchanged writes
    exact ⟨newest, by rw [same, listed]; rfl, hash⟩
  · exact ⟨revision, recorded.newest descending (.inr room), recorded.hash⟩

end Requests

/-!
## Whole runs
-/

def HistoryOperation.HasRoom (record : HistoryRecord) (operation : HistoryOperation) : Prop :=
  operation.WritesDraft record → record.milestoneCount < workflowFieldHistorySizeLimit

/-- The ids that a run gives to contents, with the hashes of the contents. -/
def assigned (digests : Digests) (record : HistoryRecord) :
    List HistoryOperation → List (Nat × Option String)
  | [] => []
  | operation :: rest =>
      match (operation.perform digests record).2 with
      | none => assigned digests (operation.apply digests record) rest
      | some revisionId =>
          (revisionId, (operation.apply digests record).draftHash digests) ::
            assigned digests (operation.apply digests record) rest

/-- The id was given before, and if the newest revision has it, to its content. -/
def HistoryRecord.Remembers (record : HistoryRecord) (given : Nat × Option String) : Prop :=
  given.1 < record.nextRevisionId ∧
    ∀ newest, record.revisions.head? = some newest → given.1 = newest.revisionId →
      given.2 = newest.hash

section Runs

variable {digests : Digests} {record : HistoryRecord}

theorem nextRevisionId_of_head {newest : Revision} (head : record.revisions.head? = some newest) :
    record.nextRevisionId = newest.revisionId + 1 := by
  unfold HistoryRecord.nextRevisionId
  cases listed : record.revisions with
  | nil =>
      rw [listed] at head
      cases head
  | cons first rest =>
      rw [listed] at head
      cases head
      rfl

theorem Relabelled.remembers {operation : HistoryOperation} {after : HistoryRecord}
    (relabelled : Relabelled operation after.revisions record.revisions)
    {given : Nat × Option String} (remembers : record.Remembers given) :
    after.Remembers given := by
  obtain ⟨below, newestHash⟩ := remembers
  unfold HistoryRecord.Remembers
  unfold HistoryRecord.nextRevisionId at below ⊢
  cases now : after.revisions with
  | nil =>
      rw [now] at relabelled
      rw [List.forall₂_nil_left_iff.mp relabelled] at below
      exact ⟨below, fun _ head => nomatch head⟩
  | cons first rest =>
      rw [now] at relabelled
      obtain ⟨original, others, same, _, listed⟩ := List.forall₂_cons_left_iff.mp relabelled
      rw [listed] at below newestHash
      refine ⟨Nat.lt_of_lt_of_eq below (congrArg (· + 1) same.1.1.symm),
        fun newest head equal => ?_⟩
      cases head
      rw [same.1.2.1]
      exact newestHash original rfl (equal.trans same.1.1)

theorem Recorded.head_of_room {operation : HistoryOperation} {after : HistoryRecord}
    {revision : Revision} {older : List Revision}
    (recorded : Recorded digests record after revision older)
    (descending : Descending record.revisions) (room : operation.HasRoom record)
    (kind : revision.isMilestone = true ∨ operation.WritesDraft record) :
    after.revisions.head? = some revision := by
  refine recorded.newest descending ?_
  rcases kind with milestone | writes
  · exact .inl milestone
  · exact .inr (room writes)

theorem Recorded.agrees {after : HistoryRecord} {revision : Revision} {older : List Revision}
    (recorded : Recorded digests record after revision older) {given : Nat × Option String}
    (remembers : record.Remembers given) :
    given.1 ≤ revision.revisionId ∧ (given.1 = revision.revisionId → given.2 = revision.hash) := by
  obtain ⟨below, newestHash⟩ := remembers
  rcases recorded.origin with ⟨_, next⟩ | ⟨_, newest, listed, same⟩
  · rw [← next] at below
    exact ⟨Nat.le_of_lt below, fun equal => absurd equal (Nat.ne_of_lt below)⟩
  · have head : record.revisions.head? = some newest := by rw [listed]; rfl
    rw [nextRevisionId_of_head head, ← same.1] at below
    refine ⟨Nat.le_of_lt_succ below, fun equal => ?_⟩
    rw [same.2.1]
    exact newestHash newest head (equal.trans same.1)

theorem remembers_apply (descending : Descending record.revisions) {operation : HistoryOperation}
    (room : operation.HasRoom record) {given : Nat × Option String}
    (known : record.Remembers given ∨ ∃ revisionId,
      (operation.perform digests record).2 = some revisionId ∧
      given = (revisionId, (operation.apply digests record).draftHash digests)) :
    (operation.apply digests record).Remembers given := by
  rcases perform_cases digests record operation with
    ⟨nothing, relabelled, _⟩ | ⟨revision, older, created, recorded, kind⟩
  · rcases known with remembers | ⟨revisionId, gives, _⟩
    · exact relabelled.remembers remembers
    · rw [nothing] at gives
      cases gives
  · have head := recorded.head_of_room descending room kind
    have agrees : given.1 ≤ revision.revisionId ∧
        (given.1 = revision.revisionId → given.2 = revision.hash) := by
      rcases known with remembers | ⟨revisionId, gives, rfl⟩
      · exact recorded.agrees remembers
      · rw [created] at gives
        cases gives
        exact ⟨Nat.le_refl _, fun _ => recorded.hash.symm⟩
    refine ⟨?_, fun newest newestHead equal => ?_⟩
    · rw [nextRevisionId_of_head head]
      exact Nat.lt_succ_of_le agrees.1
    · rw [head] at newestHead
      cases newestHead
      exact agrees.2 equal

/-- Later contents never get an id that is remembered for another content. -/
theorem assigned_agrees (operations : List HistoryOperation)
    (descending : Descending record.revisions)
    (room : Meets (HistoryOperation.apply digests) HistoryOperation.HasRoom record operations) :
    (∀ given, record.Remembers given → ∀ later ∈ assigned digests record operations,
      given.1 = later.1 → given.2 = later.2) ∧
    (assigned digests record operations).Pairwise fun earlier later =>
      earlier.1 = later.1 → earlier.2 = later.2 := by
  induction operations generalizing record with
  | nil => exact ⟨fun _ _ _ member => (nomatch member), .nil⟩
  | cons operation rest ih =>
      obtain ⟨here, roomy⟩ := room
      obtain ⟨past, between⟩ := ih (descending_apply descending operation) roomy
      unfold assigned
      split
      · exact ⟨fun given remembers => past given
          (remembers_apply descending here (.inl remembers)), between⟩
      · next revisionId gives =>
          constructor
          · intro given remembers later member equal
            rcases List.mem_cons.mp member with rfl | afterwards
            · rcases perform_cases digests record operation with
                ⟨nothing, _⟩ | ⟨revision, older, created, recorded, _⟩
              · rw [nothing] at gives
                cases gives
              · rw [created] at gives
                cases gives
                rw [← recorded.hash]
                exact (recorded.agrees remembers).2 equal
            · exact past given (remembers_apply descending here (.inl remembers)) later
                afterwards equal
          · refine List.pairwise_cons.mpr ⟨fun later member => ?_, between⟩
            exact past _ (remembers_apply descending here (.inr ⟨revisionId, gives, rfl⟩)) later
              member

variable (digests) in
theorem descending_run (descending : Descending record.revisions)
    (operations : List HistoryOperation) :
    Descending (run (HistoryOperation.apply digests) record operations).revisions :=
  run_invariant (fun record : HistoryRecord => Descending record.revisions)
    (fun _ operation descending => descending_apply descending operation) descending operations

end Runs

/-- Over every run of requests on a record without history: the ids of the
revisions fall strictly; no request drops a milestone; a pruning write keeps the
bound; a write of the draft that finds fewer milestones than the limit leaves
its hash at the newest revision; and while all of them do, no id is given to two
contents. -/
theorem history_invariant (digests : Digests) (draft : Value) (blobs : OrderedMap String Value)
    (operations : List HistoryOperation) :
    let record := run (HistoryOperation.apply digests) (HistoryRecord.fresh draft blobs) operations
    Descending record.revisions ∧
    (∀ operation revision, revision ∈ record.revisions → revision.isMilestone = true →
      ∃ kept ∈ (HistoryOperation.apply digests record operation).revisions,
        kept.SameContent revision ∧
          (kept.isMilestone = true ∨ operation.Unmarks revision.revisionId)) ∧
    (∀ operation, (HistoryOperation.perform digests record operation).2 ≠ none →
      ((HistoryOperation.apply digests record operation).revisions.filter
        (!·.isMilestone)).length ≤ workflowFieldHistorySizeLimit -
          (HistoryOperation.apply digests record operation).milestoneCount) ∧
    (∀ operation, HistoryOperation.WritesDraft record operation →
      record.milestoneCount < workflowFieldHistorySizeLimit →
      ∃ newest, (HistoryOperation.apply digests record operation).revisions.head? = some newest ∧
        newest.hash = (HistoryOperation.apply digests record operation).draftHash digests) ∧
    (Meets (HistoryOperation.apply digests) HistoryOperation.HasRoom
        (HistoryRecord.fresh draft blobs) operations →
      (assigned digests (HistoryRecord.fresh draft blobs) operations).Pairwise
        fun earlier later => earlier.1 = later.1 → earlier.2 = later.2) := by
  have started : Descending (HistoryRecord.fresh draft blobs).revisions := .nil
  have descending := descending_run digests started operations
  refine ⟨descending, ?_, ?_, ?_, ?_⟩
  · intro operation revision listed milestone
    exact milestone_kept listed milestone operation
  · intro operation pruning
    exact pruned_bound pruning
  · intro operation writes room
    exact newest_of_write descending writes room
  · intro room
    exact (assigned_agrees operations started room).2

/-!
## A history full of milestones
-/

def draftOf (nodes : Nat) : Value :=
  .dict [(.str "nodes", .list (List.replicate nodes .none))]

def countingDigests : Digests where
  snapshot := countNodes
  blob := countNodes
  version := countNodes
where
  countNodes : Value → String
    | .dict [(_, .list nodes)] => String.ofList (List.replicate nodes.length 'n')
    | _ => ""

def milestones : Nat → List HistoryOperation
  | 0 => []
  | nodes + 1 => milestones nodes ++
      [.write ⟨0, 2, "Admin"⟩ (draftOf (nodes + 1)), .createMilestone ⟨0, 2, "Admin"⟩ none]

/-- Fifty drafts, all milestones, and the drafts after them. -/
def crowded (drafts : List Nat) : List HistoryOperation :=
  milestones 50 ++ drafts.map fun nodes => .write ⟨0, 2, "Admin"⟩ (draftOf nodes)

def crowdedRecord : HistoryRecord :=
  run (HistoryOperation.apply countingDigests) (HistoryRecord.fresh (.bool false) OrderedMap.empty)
    (crowded [51])

/-- With 50 milestones a new draft is not recorded, and the id it was given is
given to the next draft too. -/
theorem full_history_drops_draft :
    crowdedRecord.revisions.head?.map Revision.hash ≠
      some (crowdedRecord.draftHash countingDigests) ∧
    (assigned countingDigests (HistoryRecord.fresh (.bool false) OrderedMap.empty)
      (crowded [51, 52])).drop 100 =
        [(51, some (countingDigests.snapshot (draftOf 51))),
          (51, some (countingDigests.snapshot (draftOf 52)))] ∧
    countingDigests.snapshot (draftOf 51) ≠ countingDigests.snapshot (draftOf 52) := by
  decide +kernel

end WorkflowStudio.Workflow
