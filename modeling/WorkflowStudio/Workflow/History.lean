import Mathlib.Data.List.Sort
import WorkflowStudio.Data.Value
import WorkflowStudio.Lib.OrderedMap

/-! The revision history of the draft of a workflow: revisions that refer to
deduplicated snapshot blobs, with milestones, pruning and restoring. -/

set_option autoImplicit false

namespace WorkflowStudio.Workflow

open Lib

/-- The digests of a dumped snapshot: for revisions, for the names of blobs, and
for the version that editors compare. -/
structure Digests where
  snapshot : Value → String
  blob : Value → String
  version : Value → String

structure Author where
  now : Nat
  uid : Nat
  userName : String

structure Revision where
  revisionId : Nat
  snapshotRef : String
  hash : Option String
  createDate : Nat
  createUid : Nat
  createUserName : String
  note : String
  isMilestone : Bool
  deriving DecidableEq

/-- The fields that the history of `draft_snapshot` uses, and the blobs. -/
structure HistoryRecord where
  draftSnapshot : Value
  revisions : List Revision
  blobs : OrderedMap String Value

def computeSnapshotHash (digests : Digests) (snapshot : Value) : Option String :=
  if snapshot.truthy then some (digests.snapshot snapshot) else none

def workflowFieldHistorySizeLimit : Nat := 50

def Revision.NotOlder (left right : Revision) : Prop := right.revisionId ≤ left.revisionId

instance : DecidableRel Revision.NotOlder := fun left right =>
  inferInstanceAs (Decidable (right.revisionId ≤ left.revisionId))

def pruneRevisions (revisions : List Revision) : List Revision :=
  let milestones := revisions.filter (·.isMilestone)
  let nonMilestones := revisions.filter (!·.isMilestone)
  let availableSlots := workflowFieldHistorySizeLimit - milestones.length
  (milestones ++ nonMilestones.take availableSlots).insertionSort Revision.NotOlder

namespace HistoryRecord

/-- The blob of a snapshot, stored unless its hash is known. -/
def getOrCreateFromSnapshot (digests : Digests) (blobs : OrderedMap String Value)
    (snapshot : Value) : OrderedMap String Value × String :=
  let payload := snapshot.orElse (.dict [])
  let blobHash := digests.blob payload
  match blobs.get? blobHash with
  | some _ => (blobs, blobHash)
  | none => (blobs.set blobHash payload, blobHash)

def nextRevisionId (record : HistoryRecord) : Nat :=
  match record.revisions with
  | [] => 1
  | newest :: _ => newest.revisionId + 1

def chosenRevisionId (record : HistoryRecord) (revisionId : Option Nat) : Nat :=
  match revisionId with
  | none | some 0 => record.nextRevisionId
  | some given => given

def noteValue (note contextNote : Option String) : String :=
  match note with
  | none | some "" => contextNote.getD "Auto-save"
  | some text => text

def insertRevision (digests : Digests) (author : Author) (record : HistoryRecord)
    (snapshot : Value) (note : String) (isMilestone : Bool) (revisionId : Option Nat) :
    HistoryRecord × Nat :=
  let (blobs, blobHash) := getOrCreateFromSnapshot digests record.blobs snapshot
  let nextId := record.chosenRevisionId revisionId
  let revision : Revision := {
    revisionId := nextId
    snapshotRef := blobHash
    hash := computeSnapshotHash digests snapshot
    createDate := author.now
    createUid := author.uid
    createUserName := author.userName
    note := note
    isMilestone := isMilestone }
  ({ record with revisions := pruneRevisions (revision :: record.revisions), blobs := blobs }, nextId)

/-- The record, and the id of the revision that was made or marked. -/
def createSnapshotRevision (digests : Digests) (author : Author) (contextNote : Option String)
    (record : HistoryRecord) (snapshot : Value) (note : Option String) (isMilestone : Bool)
    (revisionId : Option Nat) : HistoryRecord × Option Nat :=
  let insert :=
    let (inserted, created) := insertRevision digests author record snapshot
      (noteValue note contextNote) isMilestone revisionId
    (inserted, some created)
  match record.revisions with
  | [] => insert
  | newest :: older =>
      if newest.hash = computeSnapshotHash digests snapshot then
        if isMilestone then
          ({ record with
            revisions := pruneRevisions
              ({ newest with isMilestone := true, note := noteValue note contextNote } :: older) },
            some newest.revisionId)
        else (record, none)
      else insert

/-- A write of the draft; an empty value is stored as `False`. -/
def write (digests : Digests) (author : Author) (contextNote : Option String)
    (record : HistoryRecord) (value : Value) : HistoryRecord × Option Nat :=
  let written := { record with draftSnapshot := value.orElse (.bool false) }
  createSnapshotRevision digests author contextNote written
    (written.draftSnapshot.orElse (.dict [])) none false none

def getContentAtRevision (record : HistoryRecord) (revisionId : Nat) : Option Value :=
  match record.revisions.find? (·.revisionId = revisionId) with
  | none => none
  | some revision => (record.blobs.get? revision.snapshotRef).filter (·.truthy)

def changeRevision (revisionId : Nat) (change : Revision → Revision) :
    List Revision → List Revision
  | [] => []
  | revision :: rest =>
      if revision.revisionId = revisionId then change revision :: rest
      else revision :: changeRevision revisionId change rest

def milestoneNote (revision : Revision) (name : Option String) : String :=
  match name with
  | none | some "" =>
      if revision.note = "" then s!"Milestone v{revision.revisionId}" else revision.note
  | some text => text

def markMilestone (record : HistoryRecord) (revisionId : Nat) (name : Option String) :
    Except String HistoryRecord :=
  if record.revisions.any (·.revisionId = revisionId) then
    .ok { record with
      revisions := changeRevision revisionId
        (fun revision =>
          { revision with isMilestone := true, note := milestoneNote revision name })
        record.revisions }
  else .error s!"Revision {revisionId} not found"

def unmarkMilestone (record : HistoryRecord) (revisionId : Nat) : HistoryRecord :=
  { record with
    revisions := changeRevision revisionId (fun revision => { revision with isMilestone := false })
      record.revisions }

def restore (digests : Digests) (author : Author) (record : HistoryRecord) (revisionId : Nat) :
    Except String (HistoryRecord × Option Nat) :=
  match record.getContentAtRevision revisionId with
  | none => .error s!"Revision {revisionId} not found"
  | some restored =>
      .ok (record.write digests author (some s!"Restored from v{revisionId}") restored)

def createMilestone (digests : Digests) (author : Author) (record : HistoryRecord)
    (name : Option String) : HistoryRecord × Option Nat :=
  let revisionId := record.nextRevisionId
  let note :=
    match name with
    | none | some "" => s!"Milestone v{revisionId}"
    | some text => text
  createSnapshotRevision digests author none record (record.draftSnapshot.orElse (.dict []))
    (some note) true (some revisionId)

def fresh (draftSnapshot : Value) (blobs : OrderedMap String Value) : HistoryRecord where
  draftSnapshot := draftSnapshot
  revisions := []
  blobs := blobs

end HistoryRecord

inductive HistoryOperation where
  | write (author : Author) (value : Value)
  | createMilestone (author : Author) (name : Option String)
  | markMilestone (revisionId : Nat) (name : Option String)
  | unmarkMilestone (revisionId : Nat)
  | restore (author : Author) (revisionId : Nat)

/-- The record after a request, which an error leaves as it was, and the id of
the revision that a pruning write made or marked. -/
def HistoryOperation.perform (digests : Digests) (record : HistoryRecord) :
    HistoryOperation → HistoryRecord × Option Nat
  | .write author value => record.write digests author none value
  | .createMilestone author name => record.createMilestone digests author name
  | .markMilestone revisionId name =>
      match record.markMilestone revisionId name with
      | .ok marked => (marked, none)
      | .error _ => (record, none)
  | .unmarkMilestone revisionId => (record.unmarkMilestone revisionId, none)
  | .restore author revisionId =>
      match record.restore digests author revisionId with
      | .ok restored => restored
      | .error _ => (record, none)

def HistoryOperation.apply (digests : Digests) (record : HistoryRecord)
    (operation : HistoryOperation) : HistoryRecord :=
  (operation.perform digests record).1

end WorkflowStudio.Workflow
