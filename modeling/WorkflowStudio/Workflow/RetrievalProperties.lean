import WorkflowStudio.Workflow.HistoryProperties
import WorkflowStudio.Workflow.Retrieval

/-! What was written can be read back: every listed revision refers to a blob of its
content, which nothing replaces. The empty object is the exception, since an empty
snapshot is taken for a missing one. -/

set_option autoImplicit false

namespace WorkflowStudio.Workflow

open Lib GuardedRun

/-- What a step gives to be stored. -/
def DraftStep.payload : DraftStep → Option Value
  | .write _ entries => some (.dict entries)
  | .share snapshot => some (snapshot.orElse (.dict []))
  | .restore _ _ | .read _ => none

def DraftStep.Filled : DraftStep → Prop
  | .write _ entries => entries ≠ []
  | .restore _ _ | .read _ | .share _ => True

/-- No two of the payloads have the same hash, up to the order of their keys. -/
def Digests.Separate (digests : Digests) (payloads : List Value) : Prop :=
  ∀ left ∈ payloads, ∀ right ∈ payloads,
    digests.blob left = digests.blob right → left.SameJson right

/-- Every blob is stored under its hash. -/
def Digests.Addresses (digests : Digests) (blobs : OrderedMap String Value) : Prop :=
  ∀ blobHash payload, blobs.get? blobHash = some payload → digests.blob payload = blobHash

/-!
## Blobs
-/

/-- Storing a snapshot adds its blob, and changes none that is there. -/
structure Stored (digests : Digests) (before : OrderedMap String Value) (payload : Value)
    (after : OrderedMap String Value) : Prop where
  present : (after.get? (digests.blob payload)).isSome
  grows : ∀ blobHash held, before.get? blobHash = some held → after.get? blobHash = some held
  origin : ∀ held ∈ after.values, held ∈ before.values ∨ held = payload
  addressed : digests.Addresses before → digests.Addresses after

theorem mem_values_iff {map : OrderedMap String Value} {value : Value} :
    value ∈ map.values ↔ ∃ key, map.get? key = some value := by
  unfold OrderedMap.values
  constructor
  · intro member
    obtain ⟨⟨key, _⟩, listed, rfl⟩ := List.mem_map.mp member
    exact ⟨key, OrderedMap.get?_eq_some_iff.mpr listed⟩
  · rintro ⟨key, found⟩
    exact List.mem_map.mpr ⟨(key, value), OrderedMap.get?_eq_some_iff.mp found, rfl⟩

theorem getOrCreate_stored {digests : Digests} (blobs : OrderedMap String Value)
    (snapshot : Value) :
    (HistoryRecord.getOrCreateFromSnapshot digests blobs snapshot).2 =
        digests.blob (snapshot.orElse (.dict [])) ∧
      Stored digests blobs (snapshot.orElse (.dict []))
        (HistoryRecord.getOrCreateFromSnapshot digests blobs snapshot).1 := by
  rw [HistoryRecord.getOrCreateFromSnapshot]
  cases found : blobs.get? (digests.blob (snapshot.orElse (.dict []))) with
  | some held =>
      dsimp only
      exact ⟨rfl, by rw [found]; rfl, fun _ _ => id, fun _ => .inl, id⟩
  | none =>
      dsimp only
      refine ⟨rfl, by rw [OrderedMap.get?_set_self]; rfl, ?_, ?_, ?_⟩
      · intro blobHash held present
        rw [OrderedMap.get?_set_of_ne]
        · exact present
        · rintro rfl
          rw [found] at present
          cases present
      · intro held member
        obtain ⟨key, present⟩ := mem_values_iff.mp member
        rw [OrderedMap.get?_set] at present
        split at present
        · exact .inr (Option.some.inj present).symm
        · exact .inl (mem_values_iff.mpr ⟨key, present⟩)
      · intro addressed blobHash held present
        rw [OrderedMap.get?_set] at present
        split at present
        · next same => rw [same, ← Option.some.inj present]
        · exact addressed blobHash held present

theorem orElse_blank (entries : List (Value × Value)) :
    (Value.dict entries).orElse (.dict []) = .dict entries := by
  cases entries <;> rfl

namespace Archive

variable {digests : Digests} {payloads : List Value} {archive : Archive}

abbrev record (archive : Archive) : HistoryRecord := archive.state.record

/-- The revision is the one of the content, which is stored. -/
structure Keeps (digests : Digests) (payloads : List Value) (archive : Archive)
    (revision : Revision) (content : Value) : Prop where
  written : archive.written.lookup revision.revisionId = some content
  payload : content ∈ payloads
  ref : revision.snapshotRef = digests.blob content
  stored : (archive.record.blobs.get? revision.snapshotRef).isSome
  hash : revision.hash = computeSnapshotHash digests content

structure Sound (digests : Digests) (payloads : List Value) (archive : Archive) : Prop where
  plain : ∀ revision ∈ archive.record.revisions, revision.isMilestone = false
  descending : Descending archive.record.revisions
  stored : ∀ payload ∈ archive.record.blobs.values, payload ∈ payloads
  addressed : digests.Addresses archive.record.blobs
  kept : ∀ revision ∈ archive.record.revisions, ∃ content,
    Keeps digests payloads archive revision content
  behind : ∀ given ∈ archive.written, given.1 < archive.record.nextRevisionId
  coherent : ∀ blobHash remembered, archive.state.cache.get? blobHash = some remembered →
    remembered.isSome ∧ archive.record.blobs.get? blobHash = remembered

/-!
## Writes
-/

/-- A write makes a revision of its content, before the others. -/
structure Inserted (digests : Digests) (before after : HistoryRecord) (content : Value)
    (revision : Revision) : Prop where
  revisionId : revision.revisionId = before.nextRevisionId
  ref : revision.snapshotRef = digests.blob content
  hash : revision.hash = computeSnapshotHash digests content
  plain : revision.isMilestone = false
  pruned : after.revisions = pruneRevisions (revision :: before.revisions)
  blobs : Stored digests before.blobs content after.blobs

theorem orElse_orElse (value first second : Value) (falsy : first.truthy = false) :
    (value.orElse first).orElse second = value.orElse second := by
  unfold Value.orElse
  by_cases truthy : value.truthy = true
  · simp only [truthy, if_true]
  · simp only [truthy, if_false, falsy, Bool.false_eq_true]

/-- The revision of a draft write. -/
def madeRevision (digests : Digests) (author : Author) (contextNote : Option String)
    (record : HistoryRecord) (content : Value) : Revision where
  revisionId := record.nextRevisionId
  snapshotRef := (HistoryRecord.getOrCreateFromSnapshot digests record.blobs content).2
  hash := computeSnapshotHash digests content
  createDate := author.now
  createUid := author.uid
  createUserName := author.userName
  note := HistoryRecord.noteValue none contextNote
  isMilestone := false

variable (digests) in
theorem madeRevision_inserted (record : HistoryRecord) (author : Author)
    (contextNote : Option String) (value : Value) {after : HistoryRecord}
    (pruned : after.revisions = pruneRevisions (madeRevision digests author contextNote record
      (value.orElse (.dict [])) :: record.revisions))
    (blobs : after.blobs = (HistoryRecord.getOrCreateFromSnapshot digests record.blobs
      (value.orElse (.dict []))).1) :
    Inserted digests record after (value.orElse (.dict []))
      (madeRevision digests author contextNote record (value.orElse (.dict []))) := by
  obtain ⟨ref, stored⟩ := @getOrCreate_stored digests record.blobs (value.orElse (.dict []))
  rw [orElse_orElse value (.dict []) (.dict []) rfl] at ref stored
  exact ⟨rfl, ref, rfl, rfl, pruned, blobs ▸ stored⟩

variable (digests) in
theorem write_cases (record : HistoryRecord) (author : Author) (contextNote : Option String)
    (value : Value) :
    ∃ after created, record.write digests author contextNote value = (after, created) ∧
      after.draftSnapshot = value.orElse (.bool false) ∧
      ((created = none ∧ after.revisions = record.revisions ∧ after.blobs = record.blobs ∧
          ∃ newest older, record.revisions = newest :: older ∧
            newest.hash = computeSnapshotHash digests (value.orElse (.dict []))) ∨
        ∃ revision, created = some revision.revisionId ∧
          Inserted digests record after (value.orElse (.dict [])) revision) := by
  have made (after : HistoryRecord) := @madeRevision_inserted digests record author contextNote
    value after
  rw [HistoryRecord.write, HistoryRecord.createSnapshotRevision]
  simp only [orElse_orElse value (.bool false) (.dict []) rfl]
  obtain ⟨draft, revisions, blobs⟩ := record
  cases revisions with
  | nil => exact ⟨_, _, rfl, rfl, .inr ⟨_, rfl, made _ rfl rfl⟩⟩
  | cons newest older =>
      simp only
      split
      · next same => exact ⟨_, _, rfl, rfl, .inl ⟨rfl, rfl, rfl, newest, older, rfl, same⟩⟩
      · exact ⟨_, _, rfl, rfl, .inr ⟨_, rfl, made _ rfl rfl⟩⟩

/-!
## Steps
-/

theorem coherent_grows {cache : OrderedMap String (Option Value)}
    {before after : OrderedMap String Value}
    (coherent : ∀ blobHash remembered, cache.get? blobHash = some remembered →
      remembered.isSome ∧ before.get? blobHash = remembered)
    (grows : ∀ blobHash held, before.get? blobHash = some held → after.get? blobHash = some held) :
    ∀ blobHash remembered, cache.get? blobHash = some remembered →
      remembered.isSome ∧ after.get? blobHash = remembered := by
  intro blobHash remembered cached
  obtain ⟨isSome, same⟩ := coherent blobHash remembered cached
  obtain ⟨held, rfl⟩ := Option.isSome_iff_exists.mp isSome
  exact ⟨isSome, grows blobHash held same⟩

/-- A list grows by the blobs that a step stores. -/
theorem Sound.stored_grows (sound : Sound digests payloads archive) {payload : Value}
    {blobs : OrderedMap String Value} (stored : Stored digests archive.record.blobs payload blobs)
    (listed : payload ∈ payloads) : ∀ held ∈ blobs.values, held ∈ payloads := by
  intro held member
  rcases stored.origin held member with old | rfl
  · exact sound.stored held old
  · exact listed

theorem Sound.share (sound : Sound digests payloads archive) {snapshot : Value}
    (listed : snapshot.orElse (.dict []) ∈ payloads) :
    Sound digests payloads (archive.step digests (.share snapshot)) := by
  obtain ⟨_, stored⟩ := @getOrCreate_stored digests archive.record.blobs snapshot
  refine ⟨sound.plain, sound.descending, sound.stored_grows stored listed,
    stored.addressed sound.addressed, ?_, sound.behind, coherent_grows sound.coherent stored.grows⟩
  intro revision member
  obtain ⟨content, keeps⟩ := sound.kept revision member
  obtain ⟨held, found⟩ := Option.isSome_iff_exists.mp keeps.stored
  refine ⟨content, keeps.written, keeps.payload, keeps.ref, ?_, keeps.hash⟩
  exact Option.isSome_iff_exists.mpr ⟨held, stored.grows _ held found⟩

/-- A revision that is read is found in the cache as it is in the blobs. -/
theorem Sound.getSnapshotPayload (sound : Sound digests payloads archive) {blobHash : String}
    (present : (archive.record.blobs.get? blobHash).isSome) :
    ∃ cache, archive.state.getSnapshotPayload blobHash =
        ({ archive.state with cache := cache }, archive.record.blobs.get? blobHash) ∧
      ∀ blobHash remembered, cache.get? blobHash = some remembered →
        remembered.isSome ∧ archive.record.blobs.get? blobHash = remembered := by
  rw [CachedRecord.getSnapshotPayload]
  cases cached : archive.state.cache.get? blobHash with
  | some remembered =>
      have same := (sound.coherent blobHash remembered cached).2
      exact ⟨archive.state.cache, by rw [same], sound.coherent⟩
  | none =>
      refine ⟨_, rfl, ?_⟩
      intro other remembered found
      rw [OrderedMap.get?_set] at found
      split at found
      · next same =>
          rw [same, ← Option.some.inj found]
          exact ⟨present, rfl⟩
      · exact sound.coherent other remembered found

theorem find?_of_mem {revisions : List Revision} (descending : Descending revisions)
    {revision : Revision} (listed : revision ∈ revisions) :
    revisions.find? (·.revisionId = revision.revisionId) = some revision := by
  induction revisions with
  | nil => cases listed
  | cons newest older ih =>
      obtain ⟨above, falls⟩ := List.pairwise_cons.mp descending
      rcases List.mem_cons.mp listed with rfl | later
      · exact List.find?_cons_of_pos (by simp)
      · have different : ¬ newest.revisionId = revision.revisionId :=
          (Nat.ne_of_lt (above revision later)).symm
        rw [List.find?_cons_of_neg (by simpa using different)]
        exact ih falls later

theorem Sound.read (sound : Sound digests payloads archive) (revisionId : Nat) :
    ∃ cache, archive.state.getContentAtRevision revisionId =
        ({ archive.state with cache := cache }, archive.record.getContentAtRevision revisionId) ∧
      ∀ blobHash remembered, cache.get? blobHash = some remembered →
        remembered.isSome ∧ archive.record.blobs.get? blobHash = remembered := by
  rw [CachedRecord.getContentAtRevision, HistoryRecord.getContentAtRevision]
  cases found : archive.record.revisions.find? (·.revisionId = revisionId) with
  | none => exact ⟨archive.state.cache, rfl, sound.coherent⟩
  | some revision =>
      obtain ⟨content, keeps⟩ := sound.kept revision (List.mem_of_find?_eq_some found)
      obtain ⟨cache, looked, coherent⟩ := sound.getSnapshotPayload keeps.stored
      refine ⟨cache, ?_, coherent⟩
      simp only [looked]

theorem Sound.withCache (sound : Sound digests payloads archive)
    {cache : OrderedMap String (Option Value)}
    (coherent : ∀ blobHash remembered, cache.get? blobHash = some remembered →
      remembered.isSome ∧ archive.record.blobs.get? blobHash = remembered) :
    Sound digests payloads { archive with state := { archive.state with cache := cache } } where
  plain := sound.plain
  descending := sound.descending
  stored := sound.stored
  addressed := sound.addressed
  kept revision listed := by
    obtain ⟨content, keeps⟩ := sound.kept revision listed
    exact ⟨content, keeps.written, keeps.payload, keeps.ref, keeps.stored, keeps.hash⟩
  behind := sound.behind
  coherent := coherent

/-- Without milestones, the newest revision is always kept. -/
theorem Inserted.head {before after : HistoryRecord} {content : Value} {revision : Revision}
    (inserted : Inserted digests before after content revision)
    (descending : Descending before.revisions)
    (plain : ∀ revision ∈ before.revisions, revision.isMilestone = false) :
    Descending (revision :: before.revisions) ∧ after.revisions.head? = some revision := by
  have falls : Descending (revision :: before.revisions) := by
    refine List.pairwise_cons.mpr ⟨?_, descending⟩
    rw [inserted.revisionId]
    exact lt_nextRevisionId descending
  have none : before.revisions.filter (·.isMilestone) = [] := by
    refine List.filter_eq_nil_iff.mpr fun other listed => ?_
    rw [plain other listed]
    exact Bool.false_ne_true
  refine ⟨falls, ?_⟩
  rw [inserted.pruned]
  exact head?_prune falls (.inr (by rw [none]; decide))

/-- What is kept of an older revision is kept next to a new one. -/
theorem Keeps.older {after : CachedRecord} {revision made : Revision} {content written : Value}
    (keeps : Keeps digests payloads archive revision content)
    (inserted : Inserted digests archive.record after.record written made)
    (older : revision.revisionId < made.revisionId) :
    Keeps digests payloads (archive.note after (some made.revisionId) written) revision
      content := by
  obtain ⟨held, found⟩ := Option.isSome_iff_exists.mp keeps.stored
  refine ⟨?_, keeps.payload, keeps.ref, ?_, keeps.hash⟩
  · change List.lookup _ ((made.revisionId, written) :: archive.written) = _
    rw [OrderedMap.lookup_cons_eq, if_neg (Nat.ne_of_lt older)]
    exact keeps.written
  · exact Option.isSome_iff_exists.mpr ⟨held, inserted.blobs.grows _ held found⟩

/-- A write that makes no revision. -/
theorem Sound.unchanged (sound : Sound digests payloads archive) {after : HistoryRecord}
    (revisions : after.revisions = archive.record.revisions)
    (blobs : after.blobs = archive.record.blobs) (content : Value) :
    Sound digests payloads (archive.note { archive.state with record := after } none content) := by
  have next : after.nextRevisionId = archive.record.nextRevisionId := by
    rw [HistoryRecord.nextRevisionId, HistoryRecord.nextRevisionId, revisions]
  exact {
    plain := fun revision member => sound.plain revision (revisions ▸ member)
    descending := revisions ▸ sound.descending
    stored := fun held member => sound.stored held (blobs ▸ member)
    addressed := blobs ▸ sound.addressed
    kept := by
      intro revision member
      obtain ⟨content, keeps⟩ := sound.kept revision (revisions ▸ member)
      exact ⟨content, keeps.written, keeps.payload, keeps.ref, blobs ▸ keeps.stored, keeps.hash⟩
    behind := fun given member => next ▸ sound.behind given member
    coherent := blobs ▸ sound.coherent }

/-- A write that makes a revision. -/
theorem Sound.inserted (sound : Sound digests payloads archive) {after : HistoryRecord}
    {content : Value} {made : Revision}
    (inserted : Inserted digests archive.record after content made)
    (listed : content ∈ payloads) :
    Sound digests payloads (archive.note { archive.state with record := after }
      (some made.revisionId) content) := by
  obtain ⟨falls, head⟩ := inserted.head sound.descending sound.plain
  have within : ∀ revision ∈ after.revisions,
      revision = made ∨ revision ∈ archive.record.revisions := by
    intro revision member
    rw [inserted.pruned] at member
    exact List.mem_cons.mp (mem_of_mem_prune member)
  refine ⟨?_, ?_, ?_, ?_, ?_, ?_, ?_⟩
  · intro revision member
    rcases within revision member with rfl | old
    · exact inserted.plain
    · exact sound.plain revision old
  · change Descending after.revisions
    rw [inserted.pruned]
    exact falls.prune
  · exact sound.stored_grows inserted.blobs listed
  · exact inserted.blobs.addressed sound.addressed
  · intro revision member
    rcases within revision member with rfl | old
    · refine ⟨content, ?_, listed, inserted.ref, ?_, inserted.hash⟩
      · exact List.lookup_cons_self
      · rw [inserted.ref]
        exact inserted.blobs.present
    · obtain ⟨oldContent, keeps⟩ := sound.kept revision old
      exact ⟨oldContent, @Keeps.older _ _ _ { archive.state with record := after } _ _ _ _ keeps
        inserted ((List.pairwise_cons.mp falls).1 revision old)⟩
  · intro given member
    change given.1 < after.nextRevisionId
    rw [nextRevisionId_of_head head]
    rcases List.mem_cons.mp member with rfl | old
    · exact Nat.lt_succ_self _
    · have below := sound.behind given old
      rw [← inserted.revisionId] at below
      exact Nat.lt_succ_of_lt below
  · exact coherent_grows sound.coherent inserted.blobs.grows

theorem Sound.write (sound : Sound digests payloads archive) (author : Author)
    (contextNote : Option String) {value : Value}
    (listed : value.orElse (.dict []) ∈ payloads) :
    Sound digests payloads (archive.note
      (archive.state.write digests author contextNote value).1
      (archive.state.write digests author contextNote value).2 (value.orElse (.dict []))) := by
  obtain ⟨after, created, written, _, outcome⟩ :=
    write_cases digests archive.record author contextNote value
  rw [CachedRecord.write, written]
  rcases outcome with ⟨rfl, revisions, blobs, _⟩ | ⟨made, rfl, inserted⟩
  · exact sound.unchanged revisions blobs _
  · exact sound.inserted inserted listed

theorem orElse_of_truthy {value other : Value} (truthy : value.truthy = true) :
    value.orElse other = value := if_pos truthy

/-- What is read back is a payload, and not empty. -/
theorem Sound.content (sound : Sound digests payloads archive) {revisionId : Nat} {got : Value}
    (read : archive.record.getContentAtRevision revisionId = some got) :
    got ∈ payloads ∧ got.truthy = true := by
  rw [HistoryRecord.getContentAtRevision] at read
  cases found : archive.record.revisions.find? (·.revisionId = revisionId) with
  | none =>
      rw [found] at read
      cases read
  | some revision =>
      simp only [found] at read
      obtain ⟨held, truthy⟩ := Option.filter_eq_some_iff.mp read
      exact ⟨sound.stored got (mem_values_iff.mpr ⟨_, held⟩), truthy⟩

/-- A restore of a revision that can be read writes what is read. -/
theorem Sound.restore (sound : Sound digests payloads archive) (author : Author)
    {revisionId : Nat} {got : Value}
    (read : archive.record.getContentAtRevision revisionId = some got) :
    ∃ after created, archive.state.restore digests author revisionId = (after, .ok created) ∧
      after.record.draftSnapshot = got ∧
      (∀ blobHash held, archive.record.blobs.get? blobHash = some held →
        after.record.blobs.get? blobHash = some held) ∧
      Sound digests payloads (archive.note after created got) := by
  obtain ⟨cache, looked, coherent⟩ := sound.read revisionId
  obtain ⟨listed, truthy⟩ := sound.content read
  have content : got.orElse (.dict []) = got := orElse_of_truthy truthy
  have restored := (sound.withCache coherent).write author
    (some s!"Restored from v{revisionId}") (content.symm ▸ listed)
  obtain ⟨after, created, written, draft, outcome⟩ := write_cases digests archive.record author
    (some s!"Restored from v{revisionId}") got
  rw [content] at restored
  rw [CachedRecord.restore, looked, read]
  refine ⟨_, _, rfl, ?_, ?_, restored⟩
  · change (archive.record.write digests author _ got).1.draftSnapshot = got
    rw [written]
    exact draft.trans (orElse_of_truthy truthy)
  · change ∀ blobHash held, _ → (archive.record.write digests author _ got).1.blobs.get? _ = _
    rw [written]
    intro blobHash held found
    rcases outcome with ⟨_, _, blobs, _⟩ | ⟨made, _, inserted⟩
    · exact blobs ▸ found
    · exact inserted.blobs.grows blobHash held found

/-- What a step stores is among the payloads. -/
def Within (payloads : List Value) (step : DraftStep) : Prop :=
  ∀ payload, step.payload = some payload → payload ∈ payloads

theorem Sound.step (sound : Sound digests payloads archive) {step : DraftStep}
    (within : Within payloads step) : Sound digests payloads (archive.step digests step) := by
  cases step with
  | write author entries =>
      have listed := within (.dict entries) rfl
      have written := sound.write author none ((orElse_blank entries).symm ▸ listed)
      rw [orElse_blank] at written
      exact written
  | share snapshot => exact sound.share (within _ rfl)
  | read revisionId =>
      obtain ⟨cache, looked, coherent⟩ := sound.read revisionId
      rw [Archive.step, looked]
      exact sound.withCache coherent
  | restore author revisionId =>
      rw [Archive.step]
      cases read : archive.record.getContentAtRevision revisionId with
      | none =>
          obtain ⟨cache, looked, coherent⟩ := sound.read revisionId
          rw [CachedRecord.restore, looked, read]
          exact sound.withCache coherent
      | some got =>
          obtain ⟨after, created, restored, draft, _, kept⟩ := sound.restore author read
          rw [restored]
          simp only [draft]
          exact kept

/-!
## Reading back
-/

/-- Every listed revision can be read and restored, as it was written. -/
structure Retrievable (digests : Digests) (archive : Archive) : Prop where
  reads : ∀ revision ∈ archive.record.revisions, ∃ content,
    archive.written.lookup revision.revisionId = some content ∧
    ∃ got, (archive.state.getContentAtRevision revision.revisionId).2 = some got ∧
      got.SameJson content
  restores : ∀ author, ∀ revision ∈ archive.record.revisions, ∀ content,
    archive.written.lookup revision.revisionId = some content →
    ∃ after created,
      archive.state.restore digests author revision.revisionId = (after, .ok created) ∧
      after.record.draftSnapshot.SameJson content ∧
      ∀ other ∈ archive.record.revisions, other ∈ after.record.revisions →
        (after.getContentAtRevision other.revisionId).2 =
          (archive.state.getContentAtRevision other.revisionId).2

/-- The contents that were written are not empty. -/
def Filled (archive : Archive) : Prop := ∀ given ∈ archive.written, given.2.truthy = true

theorem Sound.content_of_mem (sound : Sound digests payloads archive) {revision : Revision}
    (listed : revision ∈ archive.record.revisions) :
    archive.record.getContentAtRevision revision.revisionId =
      (archive.record.blobs.get? revision.snapshotRef).filter (·.truthy) := by
  rw [HistoryRecord.getContentAtRevision, find?_of_mem sound.descending listed]

theorem Sound.read_back (sound : Sound digests payloads archive) (filled : archive.Filled)
    (separate : digests.Separate payloads) {revision : Revision}
    (listed : revision ∈ archive.record.revisions) :
    ∃ content got, archive.written.lookup revision.revisionId = some content ∧
      archive.record.getContentAtRevision revision.revisionId = some got ∧
      got.SameJson content := by
  obtain ⟨content, keeps⟩ := sound.kept revision listed
  obtain ⟨held, found⟩ := Option.isSome_iff_exists.mp keeps.stored
  have addressed := sound.addressed _ _ found
  rw [keeps.ref] at addressed
  have same := separate held (sound.stored held (mem_values_iff.mpr ⟨_, found⟩)) content
    keeps.payload addressed
  have truthy : held.truthy = true := by
    rw [same.truthy_eq]
    exact filled _ (OrderedMap.mem_of_lookup keeps.written)
  refine ⟨content, held, keeps.written, ?_, same⟩
  rw [sound.content_of_mem listed, found]
  exact Option.filter_eq_some_iff.mpr ⟨rfl, truthy⟩

theorem Sound.retrievable (sound : Sound digests payloads archive) (filled : archive.Filled)
    (separate : digests.Separate payloads) : Retrievable digests archive := by
  have readable (revisionId : Nat) : (archive.state.getContentAtRevision revisionId).2 =
      archive.record.getContentAtRevision revisionId := by
    obtain ⟨_, looked, _⟩ := sound.read revisionId
    rw [looked]
  constructor
  · intro revision listed
    obtain ⟨content, got, written, read, same⟩ := sound.read_back filled separate listed
    exact ⟨content, written, got, (readable _).trans read, same⟩
  · intro author revision listed content written
    obtain ⟨known, got, noted, read, same⟩ := sound.read_back filled separate listed
    obtain rfl := Option.some.inj (written.symm.trans noted)
    obtain ⟨after, created, restored, draft, grows, kept⟩ := sound.restore author read
    refine ⟨after, created, restored, draft ▸ same, ?_⟩
    intro other before later
    obtain ⟨_, looked, _⟩ := kept.read other.revisionId
    obtain ⟨_, keeps⟩ := sound.kept other before
    obtain ⟨held, found⟩ := Option.isSome_iff_exists.mp keeps.stored
    have readAfter : (after.getContentAtRevision other.revisionId).2 =
        after.record.getContentAtRevision other.revisionId := congrArg Prod.snd looked
    have contentAfter : after.record.getContentAtRevision other.revisionId =
        (after.record.blobs.get? other.snapshotRef).filter (·.truthy) := kept.content_of_mem later
    rw [readable, sound.content_of_mem before, readAfter, contentAfter, found,
      grows _ held found]

/-!
## Runs
-/

theorem fresh_sound {draft : Value} {blobs : OrderedMap String Value}
    (addressed : digests.Addresses blobs) (stored : ∀ held ∈ blobs.values, held ∈ payloads) :
    Sound digests payloads (fresh draft blobs) where
  plain _ listed := nomatch listed
  descending := .nil
  stored := stored
  addressed := addressed
  kept _ listed := nomatch listed
  behind _ member := nomatch member
  coherent _ _ found := nomatch found

theorem Sound.run (sound : Sound digests payloads archive) {steps : List DraftStep}
    (within : ∀ step ∈ steps, Within payloads step) :
    Sound digests payloads (run (Archive.step digests) archive steps) := by
  induction steps generalizing archive with
  | nil => exact sound
  | cons step steps ih =>
      exact ih (sound.step (within step List.mem_cons_self)) fun later member =>
        within later (List.mem_cons_of_mem _ member)

theorem Filled.note (filled : archive.Filled) (state : CachedRecord) (created : Option Nat)
    {content : Value} (truthy : content.truthy = true) :
    (archive.note state created content).Filled := by
  cases created with
  | none => exact filled
  | some revisionId =>
      intro given member
      rcases List.mem_cons.mp member with rfl | old
      · exact truthy
      · exact filled given old

theorem Filled.step (filled : archive.Filled) (sound : Sound digests payloads archive)
    {step : DraftStep} (writes : step.Filled) : (archive.step digests step).Filled := by
  cases step with
  | write author entries =>
      refine filled.note _ _ ?_
      cases entries with
      | nil => exact absurd rfl writes
      | cons entry entries => rfl
  | share snapshot => exact filled
  | read revisionId => exact filled
  | restore author revisionId =>
      rw [Archive.step]
      cases read : archive.record.getContentAtRevision revisionId with
      | none =>
          obtain ⟨cache, looked, _⟩ := sound.read revisionId
          rw [CachedRecord.restore, looked, read]
          exact filled
      | some got =>
          obtain ⟨after, created, restored, draft, _, _⟩ := sound.restore author read
          rw [restored]
          simp only [draft]
          exact filled.note _ _ (sound.content read).2

theorem Filled.run (filled : archive.Filled) (sound : Sound digests payloads archive)
    {steps : List DraftStep} (within : ∀ step ∈ steps, Within payloads step)
    (writes : ∀ step ∈ steps, step.Filled) :
    (run (Archive.step digests) archive steps).Filled := by
  induction steps generalizing archive with
  | nil => exact filled
  | cons step steps ih =>
      exact ih (filled.step sound (writes step List.mem_cons_self))
        (sound.step (within step List.mem_cons_self))
        (fun later member => within later (List.mem_cons_of_mem _ member))
        fun later member => writes later (List.mem_cons_of_mem _ member)

/-- An empty object that is written cannot be read back: the newest revision is of it. -/
theorem not_retrievable_of_empty (sound : Sound digests payloads archive)
    (author : Author) (within : Within payloads (.write author [])) :
    ¬ Retrievable digests (archive.step digests (.write author [])) := by
  intro retrievable
  have written := sound.step within
  have room : archive.record.milestoneCount < workflowFieldHistorySizeLimit := by
    have none : archive.record.revisions.filter (·.isMilestone) = [] := by
      refine List.filter_eq_nil_iff.mpr fun other listed => ?_
      rw [sound.plain other listed]
      exact Bool.false_ne_true
    rw [HistoryRecord.milestoneCount, none]
    decide
  obtain ⟨newest, head, hash⟩ := @newest_of_write digests _ sound.descending
    (.write author (.dict [])) trivial room
  have listed : newest ∈ (archive.step digests (.write author [])).record.revisions :=
    List.mem_of_mem_head? head
  obtain ⟨content, keeps⟩ := written.kept newest listed
  obtain ⟨known, noted, got, read, same⟩ := retrievable.reads newest listed
  obtain rfl := Option.some.inj (keeps.written.symm.trans noted)
  obtain ⟨after, created, performed, draft, _⟩ :=
    write_cases digests archive.record author none (.dict [])
  have blank : computeSnapshotHash digests content = none := by
    refine keeps.hash.symm.trans (hash.trans ?_)
    change (archive.record.write digests author none (.dict [])).1.draftHash digests = none
    rw [performed, HistoryRecord.draftHash, draft]
    rfl
  obtain ⟨cache, looked, _⟩ := written.read newest.revisionId
  rw [looked] at read
  have truthy := (written.content read).2
  rw [same.truthy_eq] at truthy
  rw [computeSnapshotHash, if_pos truthy] at blank
  cases blank

/-- All that a run may store, with what is stored before. -/
def runPayloads (blobs : OrderedMap String Value) (steps : List DraftStep) : List Value :=
  blobs.values ++ steps.filterMap DraftStep.payload

theorem within_runPayloads (blobs : OrderedMap String Value) {steps : List DraftStep}
    {step : DraftStep} (listed : step ∈ steps) : Within (runPayloads blobs steps) step := by
  intro payload stores
  exact List.mem_append_right _ (List.mem_filterMap.mpr ⟨step, listed, stores⟩)

/-- In every state of a run the listed revisions can be read and restored, if and only
if no step writes the empty object. -/
theorem retrievable_iff (digests : Digests) (draft : Value) (blobs : OrderedMap String Value)
    (steps : List DraftStep) (addressed : digests.Addresses blobs)
    (separate : digests.Separate (runPayloads blobs steps)) :
    (∀ before, before <+: steps →
        Retrievable digests (run (Archive.step digests) (fresh draft blobs) before)) ↔
      ∀ step ∈ steps, step.Filled := by
  have started : Sound digests (runPayloads blobs steps) (fresh draft blobs) :=
    fresh_sound addressed fun held member => List.mem_append_left _ member
  have within (before : List DraftStep) (leads : before <+: steps) :
      ∀ step ∈ before, Within (runPayloads blobs steps) step :=
    fun step member => within_runPayloads blobs (leads.subset member)
  constructor
  · intro retrievable step listed
    obtain ⟨before, after, rfl⟩ := List.append_of_mem listed
    have leads : before ++ [step] <+: before ++ step :: after :=
      ⟨after, by rw [List.append_assoc, List.singleton_append]⟩
    have reached := started.run (within before (List.prefix_append _ _))
    have after := retrievable _ leads
    rw [run_append] at after
    cases step with
    | write author entries =>
        cases entries with
        | nil => exact absurd after (not_retrievable_of_empty reached author
            (within_runPayloads blobs listed))
        | cons entry entries => exact List.cons_ne_nil _ _
    | restore author revisionId => trivial
    | read revisionId => trivial
    | share snapshot => trivial
  · intro filled before leads
    have sound := started.run (within before leads)
    have noted : (fresh draft blobs).Filled := fun _ member => nomatch member
    exact sound.retrievable (noted.run started (within before leads) fun step member =>
      filled step (leads.subset member)) separate

def someAuthor : Author := ⟨0, 1, "Admin"⟩

/-- Tells drafts apart by the number of their keys. -/
def keyDigests : Digests where
  snapshot
    | .dict entries => String.ofList (entries.map fun _ => '*')
    | _ => ""
  blob
    | .dict entries => String.ofList ('#' :: entries.map fun _ => '*')
    | _ => "#"
  version _ := ""

def namedDraft : DraftStep := .write someAuthor [(.str "nodes", .list []), (.str "name", .str "a")]

def smallDraft : DraftStep := .write someAuthor [(.str "nodes", .list [])]

def restoredRun : List DraftStep := [namedDraft, smallDraft, .read 1, .restore someAuthor 1]

theorem retrievable_iff_restored :
    Retrievable keyDigests (run (Archive.step keyDigests)
      (fresh (.bool false) OrderedMap.empty) restoredRun) := by
  refine (retrievable_iff keyDigests (.bool false) OrderedMap.empty restoredRun ?_ ?_).mpr ?_
    restoredRun (List.prefix_refl _)
  · exact fun _ _ found => nomatch found
  · change ∀ left ∈ [Value.dict [(.str "nodes", .list []), (.str "name", .str "a")],
        .dict [(.str "nodes", .list [])]], ∀ right ∈ [Value.dict [(.str "nodes", .list []),
        (.str "name", .str "a")], .dict [(.str "nodes", .list [])]], _
    simp [keyDigests, Value.SameJson]
  · simp [restoredRun, namedDraft, smallDraft, DraftStep.Filled]

def emptiedArchive : Archive :=
  run (Archive.step keyDigests) (fresh (.bool false) OrderedMap.empty)
    [.write someAuthor [(.str "nodes", .list [])], .write someAuthor []]

theorem empty_draft_is_not_retrievable :
    emptiedArchive.record.revisions.map (·.revisionId) = [2, 1] ∧
      emptiedArchive.written.lookup 2 = some (.dict []) ∧
      (emptiedArchive.state.getContentAtRevision 2).2 = none ∧
      (emptiedArchive.state.restore keyDigests someAuthor 2).2 =
        .error "Revision 2 not found" ∧
      ¬ Retrievable keyDigests emptiedArchive := by
  have missing : (emptiedArchive.state.getContentAtRevision 2).2 = none := by decide
  refine ⟨by decide, by decide, missing, by rfl, ?_⟩
  intro retrievable
  obtain ⟨newest, listed, two⟩ : ∃ newest ∈ emptiedArchive.record.revisions,
      newest.revisionId = 2 := by decide
  obtain ⟨_, _, got, read, _⟩ := retrievable.reads newest listed
  rw [two, missing] at read
  cases read

end Archive

end WorkflowStudio.Workflow
