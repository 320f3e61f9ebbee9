import WorkflowStudio.Data.Equality
import WorkflowStudio.Workflow.History

/-! Reading revisions back through the cache of snapshot payloads, in runs of draft
writes and restores that share the blobs with other records. -/

set_option autoImplicit false

namespace WorkflowStudio.Workflow

open Lib

/-- A record with what the server remembers of `_get_snapshot_payload`, also of the
hashes that no blob has. -/
structure CachedRecord where
  record : HistoryRecord
  cache : OrderedMap String (Option Value)

namespace CachedRecord

/-- `_get_snapshot_payload`, which is only computed for a hash that is not in the cache. -/
def getSnapshotPayload (state : CachedRecord) (blobHash : String) :
    CachedRecord × Option Value :=
  match state.cache.get? blobHash with
  | some remembered => (state, remembered)
  | none =>
      let payload := state.record.blobs.get? blobHash
      ({ state with cache := state.cache.set blobHash payload }, payload)

/-- `workflow_field_history_get_content_at_revision`. -/
def getContentAtRevision (state : CachedRecord) (revisionId : Nat) :
    CachedRecord × Option Value :=
  match state.record.revisions.find? (·.revisionId = revisionId) with
  | none => (state, none)
  | some revision =>
      let (state, snapshot) := state.getSnapshotPayload revision.snapshotRef
      (state, snapshot.filter (·.truthy))

/-- `write` of the draft, with the id of the revision that it made. -/
def write (digests : Digests) (author : Author) (contextNote : Option String)
    (state : CachedRecord) (value : Value) : CachedRecord × Option Nat :=
  let (record, created) := state.record.write digests author contextNote value
  ({ state with record := record }, created)

/-- `workflow_field_history_restore`. -/
def restore (digests : Digests) (author : Author) (state : CachedRecord) (revisionId : Nat) :
    CachedRecord × Except String (Option Nat) :=
  match state.getContentAtRevision revisionId with
  | (state, none) => (state, .error s!"Revision {revisionId} not found")
  | (state, some restored) =>
      let (state, created) :=
        state.write digests author (some s!"Restored from v{revisionId}") restored
      (state, .ok created)

/-- Another record stores a snapshot. -/
def shareSnapshot (digests : Digests) (state : CachedRecord) (snapshot : Value) : CachedRecord :=
  { state with
    record := { state.record with
      blobs := (HistoryRecord.getOrCreateFromSnapshot digests state.record.blobs snapshot).1 } }

end CachedRecord

/-- The drafts that are written are JSON objects. -/
inductive DraftStep where
  | write (author : Author) (entries : List (Value × Value))
  | restore (author : Author) (revisionId : Nat)
  | read (revisionId : Nat)
  | share (snapshot : Value)

/-- A record, and for every revision that was made the content that was written then. -/
structure Archive where
  state : CachedRecord
  written : List (Nat × Value)

namespace Archive

/-- Note what was written if a revision was made for it. -/
def note (archive : Archive) (state : CachedRecord) (created : Option Nat) (content : Value) :
    Archive where
  state := state
  written :=
    match created with
    | none => archive.written
    | some revisionId => (revisionId, content) :: archive.written

def step (digests : Digests) (archive : Archive) : DraftStep → Archive
  | .write author entries =>
      let (state, created) := archive.state.write digests author none (.dict entries)
      archive.note state created (.dict entries)
  | .restore author revisionId =>
      match archive.state.restore digests author revisionId with
      | (state, .error _) => { archive with state := state }
      | (state, .ok created) => archive.note state created state.record.draftSnapshot
  | .read revisionId =>
      { archive with state := (archive.state.getContentAtRevision revisionId).1 }
  | .share snapshot => { archive with state := archive.state.shareSnapshot digests snapshot }

/-- A record without revisions, among the blobs of other records. -/
def fresh (draftSnapshot : Value) (blobs : OrderedMap String Value) : Archive where
  state := { record := .fresh draftSnapshot blobs, cache := .empty }
  written := []

end Archive

end WorkflowStudio.Workflow
