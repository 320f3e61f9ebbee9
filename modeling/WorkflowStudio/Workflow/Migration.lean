import WorkflowStudio.Workflow.History

/-! The rewriting of histories from before the snapshot blobs, whose revisions hold a
full snapshot or the old values of the keys that a write changed. -/

set_option autoImplicit false

namespace WorkflowStudio.Workflow

open Lib

/-- A snapshot is a JSON object. -/
abbrev Snapshot := List (Value × Value)

/-- An entry of the history with all fields that an entry of either kind may have.
A text that is empty counts as missing. -/
structure LegacyRevision where
  revisionId : Nat
  type : Option String
  snapshotRef : Option String
  snapshot : Option Snapshot
  patch : Option Value
  hash : Option String
  createDate : Option String
  createUid : Option Nat
  createUserName : Option String
  note : Option String
  isMilestone : Bool

/-- The record that a migration reads; a missing draft is the empty object. -/
structure LegacyRecord where
  draftSnapshot : Snapshot
  revisions : List LegacyRevision
  blobs : OrderedMap String Value

namespace LegacyRevision

/-- `rev.get("snapshot_ref")`, if it is true. -/
def ref (revision : LegacyRevision) : Option String := revision.snapshotRef.filter (· ≠ "")

def NotOlder (left right : LegacyRevision) : Prop := right.revisionId ≤ left.revisionId

instance : DecidableRel NotOlder := fun left right =>
  inferInstanceAs (Decidable (right.revisionId ≤ left.revisionId))

/-- Put the old values of a patch back. What is no object changes nothing. -/
def patched (revision : LegacyRevision) (snapshot : Snapshot) : Snapshot :=
  match revision.patch with
  | some (.dict entries) =>
      entries.foldl (fun snapshot entry => OrderedMap.setEntries entry.1 entry.2 snapshot) snapshot
  | _ => snapshot

/-- The snapshot of an entry without a blob, from that of the entry after it. -/
def unpacked (revision : LegacyRevision) (snapshot : Snapshot) : Snapshot :=
  let patches := (revision.patch.getD .none).truthy
  if revision.type = some "snapshot" ∧ revision.snapshot.isSome then revision.snapshot.getD []
  else if revision.type = some "patch" ∧ patches then revision.patched snapshot
  else if revision.snapshot.isSome then revision.snapshot.getD []
  else if patches then revision.patched snapshot
  else snapshot

/-- The entry of the new history. -/
def rewritten (revision : LegacyRevision) (blobHash : String) (hash : Option String) :
    LegacyRevision :=
  { revision with
    type := some "snapshot"
    snapshotRef := some blobHash
    hash := hash
    snapshot := none
    patch := none }

end LegacyRevision

namespace LegacyRecord

/-- `get_snapshot`; every blob is one of an object. -/
def getSnapshot (blobs : OrderedMap String Value) (blobHash : String) : Option Snapshot :=
  match blobs.get? blobHash with
  | some (.dict entries) => some entries
  | _ => none

/-- The loop of the migration over the entries from the newest on. -/
def migrateRevisions (digests : Digests) (snapshot : Snapshot) (blobs : OrderedMap String Value) :
    List LegacyRevision → OrderedMap String Value × List LegacyRevision
  | [] => (blobs, [])
  | revision :: rest =>
      match revision.ref with
      | some blobHash =>
          let snapshot := (getSnapshot blobs blobHash).getD snapshot
          let hash := (revision.hash.filter (· ≠ "")).orElse fun _ =>
            computeSnapshotHash digests (.dict snapshot)
          let (after, migrated) := migrateRevisions digests snapshot blobs rest
          (after, revision.rewritten blobHash hash :: migrated)
      | none =>
          let snapshot := revision.unpacked snapshot
          let (blobs, blobHash) :=
            HistoryRecord.getOrCreateFromSnapshot digests blobs (.dict snapshot)
          let hash := computeSnapshotHash digests (.dict snapshot)
          let (after, migrated) := migrateRevisions digests snapshot blobs rest
          (after, revision.rewritten blobHash hash :: migrated)

/-- The entries from the newest on. -/
def ordered (record : LegacyRecord) : List LegacyRevision :=
  record.revisions.insertionSort LegacyRevision.NotOlder

/-- `workflow_field_history_migrate_to_snapshots`, with the number of migrated entries. -/
def migrateToSnapshots (digests : Digests) (record : LegacyRecord) : LegacyRecord × Nat :=
  if record.revisions.isEmpty then (record, 0)
  else if record.revisions.all (·.ref.isSome) then (record, 0)
  else
    let (blobs, migrated) :=
      migrateRevisions digests record.draftSnapshot record.blobs record.ordered
    ({ record with revisions := migrated, blobs := blobs }, migrated.length)

/-- `_ensure_snapshot_history`. -/
def ensureSnapshotHistory (digests : Digests) (record : LegacyRecord) : LegacyRecord :=
  if record.revisions.any (!·.ref.isSome) then (record.migrateToSnapshots digests).1 else record

end LegacyRecord

end WorkflowStudio.Workflow
