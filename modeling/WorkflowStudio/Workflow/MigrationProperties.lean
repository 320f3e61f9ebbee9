import WorkflowStudio.Workflow.Migration
import WorkflowStudio.Workflow.RetrievalProperties

/-! A migration keeps what is known of every revision, and gives it the blob of the
snapshot that the newer entries and its own lead to from the draft. -/

set_option autoImplicit false

namespace WorkflowStudio.Workflow

open Lib

theorem LegacyRevision.snapshotRef_of_ref {revision : LegacyRevision} {blobHash : String}
    (ref : revision.ref = some blobHash) : revision.snapshotRef = some blobHash :=
  (Option.filter_eq_some_iff.mp ref).1

namespace LegacyRecord

/-- What an entry makes of the snapshot after it. -/
def effect (blobs : OrderedMap String Value) (snapshot : Snapshot) (revision : LegacyRevision) :
    Snapshot :=
  match revision.ref with
  | some blobHash => (getSnapshot blobs blobHash).getD snapshot
  | none => revision.unpacked snapshot

/-- The snapshot to which the entries lead, from the draft down to the revision. -/
def foldedAt (record : LegacyRecord) (revisionId : Nat) : Snapshot :=
  (record.ordered.filter fun revision => decide (revisionId ≤ revision.revisionId)).foldl
    (effect record.blobs) record.draftSnapshot

/-- Every entry with the snapshot to which it leads. -/
def trail (blobs : OrderedMap String Value) (snapshot : Snapshot) :
    List LegacyRevision → List (LegacyRevision × Snapshot)
  | [] => []
  | revision :: rest =>
      (revision, effect blobs snapshot revision) ::
        trail blobs (effect blobs snapshot revision) rest

/-- What the migration writes for an entry and its snapshot. -/
def entryOf (digests : Digests) (pair : LegacyRevision × Snapshot) : LegacyRevision :=
  match pair.1.ref with
  | some blobHash => pair.1.rewritten blobHash ((pair.1.hash.filter (· ≠ "")).orElse fun _ =>
      computeSnapshotHash digests (.dict pair.2))
  | none => pair.1.rewritten (digests.blob (.dict pair.2))
      (computeSnapshotHash digests (.dict pair.2))

/-- Every entry that refers to a blob refers to one that is stored. -/
def Resolved (blobs : OrderedMap String Value) (revisions : List LegacyRevision) : Prop :=
  ∀ revision ∈ revisions, ∀ blobHash, revision.ref = some blobHash →
    (getSnapshot blobs blobHash).isSome

variable {digests : Digests}

/-!
## The loop
-/

/-- The blobs after the entries of a trail. -/
structure Grown (digests : Digests) (before : OrderedMap String Value)
    (pairs : List (LegacyRevision × Snapshot)) (after : OrderedMap String Value) : Prop where
  grows : ∀ blobHash held, before.get? blobHash = some held → after.get? blobHash = some held
  origin : ∀ held ∈ after.values,
    held ∈ before.values ∨ ∃ pair ∈ pairs, held = .dict pair.2
  present : ∀ pair ∈ pairs, pair.1.ref = none →
    (after.get? (digests.blob (.dict pair.2))).isSome
  addressed : digests.Addresses before → digests.Addresses after

theorem getSnapshot_grows {before after : OrderedMap String Value}
    (grows : ∀ blobHash held, before.get? blobHash = some held → after.get? blobHash = some held)
    {blobHash : String} (resolved : (getSnapshot before blobHash).isSome) :
    getSnapshot after blobHash = getSnapshot before blobHash := by
  rw [getSnapshot] at resolved ⊢
  cases found : before.get? blobHash with
  | none =>
      rw [found] at resolved
      cases resolved
  | some held => rw [getSnapshot, grows blobHash held found, found]

theorem Grown.cons_ref {before after : OrderedMap String Value}
    {pairs : List (LegacyRevision × Snapshot)} {pair : LegacyRevision × Snapshot}
    (grown : Grown digests before pairs after) {blobHash : String}
    (ref : pair.1.ref = some blobHash) : Grown digests before (pair :: pairs) after where
  grows := grown.grows
  origin held member := by
    rcases grown.origin held member with old | ⟨other, listed, same⟩
    · exact .inl old
    · exact .inr ⟨other, List.mem_cons_of_mem _ listed, same⟩
  present other listed missing := by
    rcases List.mem_cons.mp listed with rfl | later
    · rw [ref] at missing
      cases missing
    · exact grown.present other later missing
  addressed := grown.addressed

theorem Grown.cons_stored {before middle after : OrderedMap String Value}
    {pairs : List (LegacyRevision × Snapshot)} {pair : LegacyRevision × Snapshot}
    (stored : Stored digests before (.dict pair.2) middle)
    (grown : Grown digests middle pairs after) : Grown digests before (pair :: pairs) after where
  grows blobHash held found := grown.grows blobHash held (stored.grows blobHash held found)
  origin held member := by
    rcases grown.origin held member with old | ⟨other, listed, same⟩
    · rcases stored.origin held old with older | new
      · exact .inl older
      · exact .inr ⟨pair, List.mem_cons_self, new⟩
    · exact .inr ⟨other, List.mem_cons_of_mem _ listed, same⟩
  present other listed missing := by
    rcases List.mem_cons.mp listed with rfl | later
    · obtain ⟨held, found⟩ := Option.isSome_iff_exists.mp stored.present
      exact Option.isSome_iff_exists.mpr ⟨held, grown.grows _ held found⟩
    · exact grown.present other later missing
  addressed known := grown.addressed (stored.addressed known)

/-- The loop writes the entries of the trail, and stores their snapshots. -/
theorem migrateRevisions_spec {base blobs : OrderedMap String Value}
    (grows : ∀ blobHash held, base.get? blobHash = some held → blobs.get? blobHash = some held)
    {revisions : List LegacyRevision} (resolved : Resolved base revisions) (snapshot : Snapshot) :
    (migrateRevisions digests snapshot blobs revisions).2 =
        (trail base snapshot revisions).map (entryOf digests) ∧
      Grown digests blobs (trail base snapshot revisions)
        (migrateRevisions digests snapshot blobs revisions).1 := by
  induction revisions generalizing snapshot blobs with
  | nil => exact ⟨rfl, fun _ _ => id, fun _ => .inl, List.forall_mem_nil _, id⟩
  | cons revision rest ih =>
      have later : Resolved base rest := fun other member =>
        resolved other (List.mem_cons_of_mem _ member)
      cases ref : revision.ref with
      | some blobHash =>
          have known := getSnapshot_grows grows (resolved revision List.mem_cons_self blobHash ref)
          obtain ⟨entries, grown⟩ := ih grows later ((getSnapshot base blobHash).getD snapshot)
          have first :
              effect base snapshot revision = (getSnapshot base blobHash).getD snapshot := by
            rw [effect, ref]
          rw [migrateRevisions, trail, first]
          simp only [ref, known, entries, List.map_cons]
          exact ⟨by rw [entryOf, ref], grown.cons_ref ref⟩
      | none =>
          obtain ⟨hash, stored⟩ := @getOrCreate_stored digests blobs
            (.dict (revision.unpacked snapshot))
          rw [orElse_blank] at hash stored
          have first : effect base snapshot revision = revision.unpacked snapshot := by
            rw [effect, ref]
          obtain ⟨entries, grown⟩ := @ih _
            (fun blobHash held found => stored.grows blobHash held (grows blobHash held found))
            later (revision.unpacked snapshot)
          rw [migrateRevisions, trail, first]
          simp only [ref, hash, entries, List.map_cons]
          exact ⟨by rw [entryOf, ref], grown.cons_stored stored⟩

/-!
## The trail
-/

theorem map_fst_trail (blobs : OrderedMap String Value) (snapshot : Snapshot)
    (revisions : List LegacyRevision) :
    (trail blobs snapshot revisions).map Prod.fst = revisions := by
  induction revisions generalizing snapshot with
  | nil => rfl
  | cons revision rest ih => exact congrArg (List.cons revision) (ih _)

theorem mem_trail {blobs : OrderedMap String Value} {snapshot : Snapshot}
    {revisions : List LegacyRevision} {pair : LegacyRevision × Snapshot}
    (listed : pair ∈ trail blobs snapshot revisions) :
    ∃ newer older, revisions = newer ++ pair.1 :: older ∧
      pair.2 = (newer ++ [pair.1]).foldl (effect blobs) snapshot := by
  induction revisions generalizing snapshot with
  | nil => cases listed
  | cons revision rest ih =>
      rcases List.mem_cons.mp listed with rfl | later
      · exact ⟨[], rest, rfl, rfl⟩
      · obtain ⟨newer, older, rfl, content⟩ := ih later
        exact ⟨revision :: newer, older, rfl, content⟩

/-- Newest first, without repeated ids. -/
def Falling (revisions : List LegacyRevision) : Prop :=
  revisions.Pairwise fun newer older => older.revisionId < newer.revisionId

instance : IsTrans LegacyRevision LegacyRevision.NotOlder where
  trans _ _ _ := fun first second => Nat.le_trans second first

instance : Std.Total LegacyRevision.NotOlder where
  total left right := Nat.le_total right.revisionId left.revisionId

theorem ordered_falling {record : LegacyRecord}
    (distinct : (record.revisions.map LegacyRevision.revisionId).Nodup) :
    Falling record.ordered := by
  have sorted : record.ordered.Pairwise LegacyRevision.NotOlder :=
    List.pairwise_insertionSort _ _
  have same := List.perm_insertionSort LegacyRevision.NotOlder record.revisions
  have different : (record.ordered.map LegacyRevision.revisionId).Nodup :=
    (same.map LegacyRevision.revisionId).nodup_iff.mpr distinct
  refine (sorted.and (List.pairwise_map.mp different)).imp ?_
  rintro newer older ⟨notOlder, differs⟩
  exact Nat.lt_of_le_of_ne notOlder (Ne.symm differs)

/-- The entries down to a revision are those with an id that is not smaller. -/
theorem filter_falling {newer older : List LegacyRevision} {revision : LegacyRevision}
    (falling : Falling (newer ++ revision :: older)) :
    (newer ++ revision :: older).filter
        (fun other => decide (revision.revisionId ≤ other.revisionId)) =
      newer ++ [revision] := by
  obtain ⟨_, behind, apart⟩ := List.pairwise_append.mp falling
  have above : newer.filter (fun other => decide (revision.revisionId ≤ other.revisionId)) =
      newer := by
    refine List.filter_eq_self.mpr fun other member => decide_eq_true ?_
    exact Nat.le_of_lt (apart other member revision List.mem_cons_self)
  have below : older.filter (fun other => decide (revision.revisionId ≤ other.revisionId)) =
      [] := by
    refine List.filter_eq_nil_iff.mpr fun other member => ?_
    have smaller := (List.pairwise_cons.mp behind).1 other member
    simpa using smaller
  rw [List.filter_append, above, List.filter_cons_of_pos (by simp), below]

/-- The trail gives every entry the snapshot to which the entries lead down to it. -/
theorem trail_foldedAt {record : LegacyRecord}
    (distinct : (record.revisions.map LegacyRevision.revisionId).Nodup)
    {pair : LegacyRevision × Snapshot}
    (listed : pair ∈ trail record.blobs record.draftSnapshot record.ordered) :
    pair.1 ∈ record.revisions ∧ pair.2 = record.foldedAt pair.1.revisionId := by
  obtain ⟨newer, older, split, content⟩ := mem_trail listed
  have falling := ordered_falling distinct
  have member : pair.1 ∈ record.ordered := by
    rw [split]
    exact List.mem_append_right _ List.mem_cons_self
  refine ⟨(List.mem_insertionSort _).mp member, ?_⟩
  rw [foldedAt, content]
  rw [split] at falling ⊢
  rw [filter_falling falling]

/-!
## What is kept
-/

/-- What is known of a revision besides its content. -/
def about (revision : LegacyRevision) :
    Nat × Option String × Option Nat × Option String × Option String × Bool :=
  (revision.revisionId, revision.createDate, revision.createUid, revision.createUserName,
    revision.note, revision.isMilestone)

/-- The same revisions, each with a blob of the snapshot to which the entries led. -/
structure Preserved (digests : Digests) (before after : LegacyRecord) : Prop where
  about : (after.revisions.map about).Perm (before.revisions.map about)
  contents : ∀ revision ∈ after.revisions, ∃ blobHash content, revision.ref = some blobHash ∧
    getSnapshot after.blobs blobHash = some content ∧
    (Value.dict content).SameJson (.dict (before.foldedAt revision.revisionId))
  again : after.migrateToSnapshots digests = (after, 0)

theorem migrate_of_refs {record : LegacyRecord}
    (refs : ∀ revision ∈ record.revisions, revision.ref.isSome) :
    record.migrateToSnapshots digests = (record, 0) := by
  have all : record.revisions.all (·.ref.isSome) = true := List.all_eq_true.mpr refs
  rw [migrateToSnapshots, all]
  split <;> rfl

theorem migrate_of_legacy {record : LegacyRecord}
    (legacy : ∃ revision ∈ record.revisions, revision.ref = none) :
    record.migrateToSnapshots digests =
      ({ record with
          revisions := (migrateRevisions digests record.draftSnapshot record.blobs
            record.ordered).2
          blobs := (migrateRevisions digests record.draftSnapshot record.blobs record.ordered).1 },
        (migrateRevisions digests record.draftSnapshot record.blobs record.ordered).2.length) := by
  obtain ⟨revision, listed, missing⟩ := legacy
  have filled : record.revisions.isEmpty = false := by
    cases revisions : record.revisions with
    | nil =>
        rw [revisions] at listed
        cases listed
    | cons first rest => rfl
  have mixed : record.revisions.all (·.ref.isSome) = false := by
    refine List.all_eq_false.mpr ⟨revision, listed, ?_⟩
    rw [missing]
    exact Bool.false_ne_true
  rw [migrateToSnapshots, filled, mixed]
  rfl

theorem about_entryOf (pair : LegacyRevision × Snapshot) :
    about (entryOf digests pair) = about pair.1 := by
  rw [entryOf]
  cases pair.1.ref <;> rfl

theorem trail_ref {blobs : OrderedMap String Value} {snapshot : Snapshot}
    {revisions : List LegacyRevision} {pair : LegacyRevision × Snapshot}
    (listed : pair ∈ trail blobs snapshot revisions) {blobHash : String}
    (ref : pair.1.ref = some blobHash) (resolved : (getSnapshot blobs blobHash).isSome) :
    getSnapshot blobs blobHash = some pair.2 := by
  obtain ⟨newer, _, _, content⟩ := mem_trail listed
  obtain ⟨held, found⟩ := Option.isSome_iff_exists.mp resolved
  rw [content, List.foldl_append, List.foldl_cons, List.foldl_nil, effect, ref]
  simp only [found, Option.getD_some]

theorem sameJson_dict {value : Value} {entries : List (Value × Value)}
    (same : value.SameJson (.dict entries)) : ∃ others, value = .dict others := by
  cases value with
  | dict others => exact ⟨others, rfl⟩
  | none | bool | int | str | list | tuple | object => cases same

section Record

variable {record : LegacyRecord}

/-- The payloads that a migration finds or stores. -/
def migratedPayloads (record : LegacyRecord) : List Value :=
  record.blobs.values ++
    record.revisions.map fun revision => .dict (record.foldedAt revision.revisionId)

theorem entryOf_content (distinct : (record.revisions.map LegacyRevision.revisionId).Nodup)
    (resolved : Resolved record.blobs record.revisions)
    (addressed : digests.Addresses record.blobs)
    (named : ∀ payload, digests.blob payload ≠ "")
    (separate : digests.Separate record.migratedPayloads)
    {blobs : OrderedMap String Value}
    (grown : Grown digests record.blobs
      (trail record.blobs record.draftSnapshot record.ordered) blobs)
    {pair : LegacyRevision × Snapshot}
    (listed : pair ∈ trail record.blobs record.draftSnapshot record.ordered) :
    ∃ blobHash content, (entryOf digests pair).ref = some blobHash ∧
      getSnapshot blobs blobHash = some content ∧
      (Value.dict content).SameJson (.dict pair.2) := by
  obtain ⟨member, folded⟩ := trail_foldedAt distinct listed
  cases ref : pair.1.ref with
  | some blobHash =>
      have isStored := resolved pair.1 member blobHash ref
      have nonempty : blobHash ≠ "" := by
        rw [LegacyRevision.ref, Option.filter_eq_some_iff] at ref
        simpa using ref.2
      refine ⟨blobHash, pair.2, ?_, ?_, Value.SameJson.refl _⟩
      · rw [entryOf, ref]
        simp [LegacyRevision.rewritten, LegacyRevision.ref, nonempty]
      · rw [getSnapshot_grows grown.grows isStored]
        exact trail_ref listed ref isStored
  | none =>
      obtain ⟨held, found⟩ := Option.isSome_iff_exists.mp (grown.present pair listed ref)
      have heldPayload : held ∈ record.migratedPayloads := by
        rcases grown.origin held (mem_values_iff.mpr ⟨_, found⟩) with old | ⟨other, there, same⟩
        · exact List.mem_append_left _ old
        · obtain ⟨otherMember, otherFolded⟩ := trail_foldedAt distinct there
          rw [same, otherFolded]
          exact List.mem_append_right _ (List.mem_map.mpr ⟨other.1, otherMember, rfl⟩)
      have pairPayload : Value.dict pair.2 ∈ record.migratedPayloads := by
        rw [folded]
        exact List.mem_append_right _ (List.mem_map.mpr ⟨pair.1, member, rfl⟩)
      have same := separate held heldPayload (.dict pair.2) pairPayload
        (grown.addressed addressed _ _ found)
      obtain ⟨content, rfl⟩ := sameJson_dict same
      refine ⟨digests.blob (.dict pair.2), content, ?_, ?_, same⟩
      · rw [entryOf, ref]
        simp [LegacyRevision.rewritten, LegacyRevision.ref, named]
      · rw [getSnapshot, found]

theorem revisionId_entryOf (pair : LegacyRevision × Snapshot) :
    (entryOf digests pair).revisionId = pair.1.revisionId :=
  congrArg Prod.fst (about_entryOf pair)

theorem preserved_of_refs (distinct : (record.revisions.map LegacyRevision.revisionId).Nodup)
    (resolved : Resolved record.blobs record.revisions)
    (refs : ∀ revision ∈ record.revisions, revision.ref.isSome) :
    Preserved digests record record := by
  refine ⟨.refl _, ?_, migrate_of_refs refs⟩
  intro revision member
  obtain ⟨blobHash, ref⟩ := Option.isSome_iff_exists.mp (refs revision member)
  have ordered :
      revision ∈ (trail record.blobs record.draftSnapshot record.ordered).map Prod.fst := by
    rw [map_fst_trail]
    exact (List.mem_insertionSort _).mpr member
  obtain ⟨pair, listed, rfl⟩ := List.mem_map.mp ordered
  have found := trail_ref listed ref (resolved pair.1 member blobHash ref)
  refine ⟨blobHash, pair.2, ref, found, ?_⟩
  rw [(trail_foldedAt distinct listed).2]
  exact Value.SameJson.refl _

theorem preserved_of_legacy (distinct : (record.revisions.map LegacyRevision.revisionId).Nodup)
    (resolved : Resolved record.blobs record.revisions)
    (addressed : digests.Addresses record.blobs)
    (named : ∀ payload, digests.blob payload ≠ "")
    (separate : digests.Separate record.migratedPayloads)
    (legacy : ∃ revision ∈ record.revisions, revision.ref = none) :
    Preserved digests record (record.migrateToSnapshots digests).1 ∧
      Falling (record.migrateToSnapshots digests).1.revisions := by
  have ordered : Resolved record.blobs record.ordered := fun revision member =>
    resolved revision ((List.mem_insertionSort _).mp member)
  obtain ⟨entries, grown⟩ := @migrateRevisions_spec digests record.blobs record.blobs
    (fun _ _ => id) _ ordered record.draftSnapshot
  have content := fun pair listed => @entryOf_content digests record distinct resolved addressed
    named separate _ grown pair listed
  rw [migrate_of_legacy legacy, entries]
  refine ⟨⟨?_, ?_, ?_⟩, ?_⟩
  · have labels : ((trail record.blobs record.draftSnapshot record.ordered).map
        (entryOf digests)).map about = record.ordered.map about := by
      rw [List.map_map, ← map_fst_trail record.blobs record.draftSnapshot record.ordered,
        List.map_map, map_fst_trail]
      exact List.map_congr_left fun pair _ => about_entryOf pair
    rw [labels]
    exact (List.perm_insertionSort _ _).map about
  · intro revision member
    obtain ⟨pair, listed, rfl⟩ := List.mem_map.mp member
    obtain ⟨blobHash, found, ref, stored, same⟩ := content pair listed
    refine ⟨blobHash, found, ref, stored, ?_⟩
    rw [revisionId_entryOf, ← (trail_foldedAt distinct listed).2]
    exact same
  · refine migrate_of_refs fun revision member => ?_
    obtain ⟨pair, listed, rfl⟩ := List.mem_map.mp member
    obtain ⟨blobHash, _, ref, _⟩ := content pair listed
    rw [ref]
    rfl
  · have falling := ordered_falling distinct
    rw [← map_fst_trail record.blobs record.draftSnapshot record.ordered] at falling
    refine List.pairwise_map.mpr ((List.pairwise_map.mp falling).imp ?_)
    intro newer older falls
    rw [revisionId_entryOf, revisionId_entryOf]
    exact falls

/-- A migration keeps every revision with its blob, and sorts them if it has to rewrite
any of them. -/
theorem migrate_preserves (digests : Digests) (record : LegacyRecord)
    (distinct : (record.revisions.map LegacyRevision.revisionId).Nodup)
    (resolved : Resolved record.blobs record.revisions)
    (addressed : digests.Addresses record.blobs)
    (named : ∀ payload, digests.blob payload ≠ "")
    (separate : digests.Separate record.migratedPayloads) :
    Preserved digests record (record.migrateToSnapshots digests).1 ∧
      ((∀ revision ∈ record.revisions, revision.ref.isSome) →
        record.migrateToSnapshots digests = (record, 0)) ∧
      ((∃ revision ∈ record.revisions, revision.ref = none) →
        Falling (record.migrateToSnapshots digests).1.revisions) := by
  refine ⟨?_, migrate_of_refs, fun legacy =>
    (preserved_of_legacy distinct resolved addressed named separate legacy).2⟩
  by_cases refs : ∀ revision ∈ record.revisions, revision.ref.isSome
  · rw [migrate_of_refs refs]
    exact preserved_of_refs distinct resolved refs
  · have legacy : ∃ revision ∈ record.revisions, revision.ref = none := by
      by_contra every
      refine refs fun revision member => ?_
      by_contra missing
      exact every ⟨revision, member, Option.not_isSome_iff_eq_none.mp missing⟩
    exact (preserved_of_legacy distinct resolved addressed named separate legacy).1

theorem ensured_refs (distinct : (record.revisions.map LegacyRevision.revisionId).Nodup)
    (resolved : Resolved record.blobs record.revisions)
    (addressed : digests.Addresses record.blobs)
    (named : ∀ payload, digests.blob payload ≠ "")
    (separate : digests.Separate record.migratedPayloads) :
    ∀ revision ∈ (record.ensureSnapshotHistory digests).revisions, revision.ref.isSome := by
  rw [ensureSnapshotHistory]
  by_cases missing : ∃ revision ∈ record.revisions, revision.ref = none
  · have some : record.revisions.any (!·.ref.isSome) = true := by
      obtain ⟨revision, listed, none⟩ := missing
      exact List.any_eq_true.mpr ⟨revision, listed, by rw [none]; rfl⟩
    rw [if_pos some]
    obtain ⟨preserved, _⟩ := preserved_of_legacy distinct resolved addressed named separate missing
    intro revision listed
    obtain ⟨blobHash, _, ref, _⟩ := preserved.contents revision listed
    rw [ref]
    rfl
  · have every : ∀ revision ∈ record.revisions, revision.ref.isSome := by
      intro revision listed
      by_contra none
      exact missing ⟨revision, listed, Option.not_isSome_iff_eq_none.mp none⟩
    have none : record.revisions.any (!·.ref.isSome) = false := by
      refine List.any_eq_false.mpr fun revision listed => ?_
      rw [every revision listed]
      exact Bool.false_ne_true
    rw [if_neg (by rw [none]; exact Bool.false_ne_true)]
    exact every

end Record

def legacyEntry (revisionId : Nat) : LegacyRevision where
  revisionId := revisionId
  type := none
  snapshotRef := none
  snapshot := none
  patch := none
  hash := none
  createDate := none
  createUid := none
  createUserName := none
  note := none
  isMilestone := false

/-- A patch, a full snapshot and a blob, not in order. -/
def mixedRecord : LegacyRecord where
  draftSnapshot := []
  revisions :=
    [{ legacyEntry 2 with type := some "patch", patch := some (.dict [(.str "b", .int 2)]) },
      { legacyEntry 3 with type := some "snapshot", snapshot := some [(.str "a", .int 1)] },
      { legacyEntry 1 with snapshotRef := some "#", isMilestone := true }]
  blobs := OrderedMap.empty.set "#" (.dict [])

theorem migrate_preserves_mixed :
    Preserved Archive.keyDigests mixedRecord
        (mixedRecord.migrateToSnapshots Archive.keyDigests).1 ∧
      ((∀ revision ∈ mixedRecord.revisions, revision.ref.isSome) →
        mixedRecord.migrateToSnapshots Archive.keyDigests = (mixedRecord, 0)) ∧
      ((∃ revision ∈ mixedRecord.revisions, revision.ref = none) →
        Falling (mixedRecord.migrateToSnapshots Archive.keyDigests).1.revisions) := by
  refine migrate_preserves Archive.keyDigests mixedRecord (by decide) ?_ ?_ ?_ ?_
  · intro revision listed blobHash ref
    have isThird : blobHash = "#" := by
      simp only [mixedRecord, List.mem_cons, List.not_mem_nil, or_false] at listed
      rcases listed with rfl | rfl | rfl
      · cases ref
      · cases ref
      · exact (Option.some.inj (LegacyRevision.snapshotRef_of_ref ref)).symm
    rw [isThird]
    decide
  · intro blobHash payload found
    change (OrderedMap.empty.set "#" (Value.dict [])).get? blobHash = some payload at found
    rw [OrderedMap.get?_set] at found
    split at found
    · next same =>
        rw [same, ← Option.some.inj found]
        rfl
    · cases found
  · intro payload
    cases payload <;> simp [Archive.keyDigests]
  · have payloads : mixedRecord.migratedPayloads = [.dict [],
        .dict [(.str "a", .int 1), (.str "b", .int 2)], .dict [(.str "a", .int 1)], .dict []] := by
      decide
    rw [payloads]
    simp [Digests.Separate, Archive.keyDigests, Value.SameJson]

/-- Entries that all have a blob stay as they are, and so does one whose blob is missing. -/
def unsortedRecord : LegacyRecord where
  draftSnapshot := []
  revisions := [{ legacyEntry 1 with snapshotRef := some "#" },
    { legacyEntry 2 with snapshotRef := some "#" }]
  blobs := OrderedMap.empty.set "#" (.dict [])

def danglingRecord : LegacyRecord where
  draftSnapshot := [(.str "a", .int 1)]
  revisions := [legacyEntry 2, { legacyEntry 1 with snapshotRef := some "gone" }]
  blobs := OrderedMap.empty

theorem refs_are_not_migrated :
    ¬ Falling (unsortedRecord.migrateToSnapshots Archive.keyDigests).1.revisions ∧
      ((danglingRecord.migrateToSnapshots Archive.keyDigests).1.revisions.map
        LegacyRevision.snapshotRef) = [some "#*", some "gone"] ∧
      getSnapshot (danglingRecord.migrateToSnapshots Archive.keyDigests).1.blobs "gone" = none ∧
      ¬ Preserved Archive.keyDigests danglingRecord
        (danglingRecord.migrateToSnapshots Archive.keyDigests).1 := by
  have kept : (danglingRecord.migrateToSnapshots Archive.keyDigests).1.revisions.map
      LegacyRevision.snapshotRef = [some "#*", some "gone"] := by decide
  have missing : getSnapshot (danglingRecord.migrateToSnapshots Archive.keyDigests).1.blobs
      "gone" = none := by decide
  refine ⟨by unfold Falling; decide, kept, missing, ?_⟩
  intro preserved
  obtain ⟨revision, listed, gone⟩ := List.mem_map.mp
    (kept ▸ List.mem_cons_of_mem _ List.mem_cons_self : some "gone" ∈
      (danglingRecord.migrateToSnapshots Archive.keyDigests).1.revisions.map
        LegacyRevision.snapshotRef)
  obtain ⟨blobHash, content, ref, found, _⟩ := preserved.contents revision listed
  have same : blobHash = "gone" := by
    rw [LegacyRevision.snapshotRef_of_ref ref] at gone
    exact Option.some.inj gone
  rw [same, missing] at found
  cases found

end LegacyRecord

end WorkflowStudio.Workflow
