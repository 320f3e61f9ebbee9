import WorkflowStudio.Executor.PinGateProperties
import WorkflowStudio.Workflow.Publishing
import WorkflowStudio.Workflow.SavingProperties

/-! What is published: pinned data stays in the draft, and a save publishes the
draft it has stored, unless that draft has no nodes. -/

set_option autoImplicit false

namespace WorkflowStudio.Workflow

open Lib

/-- Neither key of pinned data is in the metadata. -/
def PinFree (snapshot : Value) : Prop :=
  ∀ entries fields, snapshot = .dict entries →
    lookupField entries "metadata" = some (.dict fields) →
    lookupField fields "pin_data" = none ∧ lookupField fields "pinData" = none

/-- The same nodes and the same connections. -/
def SameGraph (left right : Value) : Prop :=
  getKey left "nodes" = getKey right "nodes" ∧
    getKey left "connections" = getKey right "connections"

/-- The published snapshot is the stored draft without pinned data. -/
def IrWorkflow.PublishesDraft (workflow : IrWorkflow) : Prop :=
  ∃ entries, workflow.draftSnapshot = .dict entries ∧
    workflow.publishedSnapshot = withoutPinData entries

section Snapshots

variable {entries : List (Value × Value)}

theorem lookupField_setEntries (key other : String) (value : Value)
    (entries : List (Value × Value)) :
    lookupField (OrderedMap.setEntries (.str key) value entries) other =
      if other = key then some value else lookupField entries other := by
  unfold lookupField
  rw [OrderedMap.lookup_setEntries]
  simp only [Value.str.injEq]

theorem lookupField_filter {keeps : Value × Value → Bool} {key : String}
    (dropped : ∀ value, keeps (.str key, value) = false) (entries : List (Value × Value)) :
    lookupField (entries.filter keeps) key = none := by
  unfold lookupField
  rw [List.lookup_eq_none_iff]
  intro entry member
  obtain ⟨_, kept⟩ := List.mem_filter.mp member
  rw [bne_iff_ne]
  intro same
  have gone := dropped entry.2
  rw [same, kept] at gone
  cases gone

theorem withoutPinData_pinFree (entries : List (Value × Value)) :
    PinFree (withoutPinData entries) := by
  unfold withoutPinData
  intro published fields shown metadata
  split at shown
  · cases shown
    rw [lookupField_setEntries, if_pos rfl] at metadata
    cases metadata
    exact ⟨lookupField_filter (fun _ => by simp) _, lookupField_filter (fun _ => by simp) _⟩
  · next absent =>
      cases shown
      exact absurd metadata (absent fields)

theorem withoutPinData_graph (entries : List (Value × Value)) :
    SameGraph (withoutPinData entries) (.dict entries) := by
  unfold withoutPinData SameGraph
  split
  · constructor
    · simp only [getKey, lookupField_setEntries]
      rfl
    · simp only [getKey, lookupField_setEntries]
      rfl
  · exact ⟨rfl, rfl⟩

theorem falsy_pinFree {snapshot : Value} (empty : ∀ entries, snapshot ≠ .dict entries) :
    PinFree snapshot :=
  fun entries _ shown => absurd shown (empty entries)

theorem PinFree.metadata {snapshot metadata : Value} (pinFree : PinFree snapshot)
    (found : getKey snapshot "metadata" = .ok metadata) {fields : List (Value × Value)}
    (shown : metadata.orElse (.dict []) = .dict fields) :
    lookupField fields "pin_data" = none ∧ lookupField fields "pinData" = none := by
  cases snapshot with
  | dict entries =>
      cases found
      cases present : lookupField entries "metadata" with
      | none =>
          rw [present] at shown
          cases shown
          exact ⟨rfl, rfl⟩
      | some metadata =>
          rw [present, Option.getD_some] at shown
          unfold Value.orElse at shown
          split at shown
          · exact pinFree entries fields rfl (present.trans (congrArg some shown))
          · cases shown
            exact ⟨rfl, rfl⟩
  | _ => cases found

/-- The executor finds nothing pinned in a snapshot without pinned data. -/
theorem PinFree.reference {snapshot reference : Value} {nodeId : String}
    (pinFree : PinFree snapshot) (found : getPinReference snapshot nodeId = .ok reference) : reference = .none := by
  unfold getPinReference at found
  cases stored : getKey snapshot "metadata" with
  | error error =>
      rw [stored] at found
      cases found
  | ok metadata =>
      rw [stored] at found
      dsimp only at found
      cases shown : metadata.orElse (.dict []) with
      | dict fields =>
          obtain ⟨pinData, legacy⟩ := pinFree.metadata stored shown
          rw [shown] at found
          simp only [getKey, pinData, legacy, Option.getD_none, isDict, Bool.false_eq_true,
            ↓reduceIte] at found
          cases found
          rfl
      | _ =>
          rw [shown] at found
          cases found

end Snapshots

/-!
## The operations
-/

section Operations

variable {digests : Digests} {author : Author} {workflow : IrWorkflow}

namespace IrWorkflow

/-- What a save that returns has stored and published. -/
structure SavedAs (workflow : IrWorkflow) (snapshot : Value) (saved : IrWorkflow)
    (fields : List (Value × Value)) : Prop where
  given : snapshot = .dict fields
  draft : saved.draftSnapshot = .dict (ensureRequiredKeys fields)
  version : saved.version = workflow.version + 1
  published : saved.publishedSnapshot = if nodesOf (ensureRequiredKeys fields) = [] then
    workflow.publishedSnapshot else withoutPinData (ensureRequiredKeys fields)
  publishedVersion : saved.publishedVersion = if nodesOf (ensureRequiredKeys fields) = [] then
    workflow.publishedVersion else workflow.version + 1

theorem saveWorkflow_saved {snapshot : Value} {expectedHash failure : Option String}
    {saved : IrWorkflow} {response : SaveResponse}
    (succeeds : workflow.saveWorkflow digests author snapshot expectedHash failure =
      .ok (saved, response)) : ∃ fields, workflow.SavedAs snapshot saved fields := by
  obtain ⟨stores, _⟩ := saveWorkflow_ok 0 succeeds
  unfold saveWorkflow at succeeds
  split at succeeds
  · cases succeeds
  · cases snapshot with
    | dict fields =>
        dsimp only at succeeds
        split at succeeds
        · cases succeeds
        · cases failure with
          | some message => cases succeeds
          | none =>
              cases succeeds
              refine ⟨fields, rfl, (Option.some.inj stores).symm, ?_, ?_, ?_⟩
              · unfold publish
                split <;> rfl
              · unfold publish
                split <;> rfl
              · unfold publish
                split <;> rfl
    | _ => cases succeeds

theorem actionPublish_ok {failure : Option String} {published : IrWorkflow}
    (succeeds : workflow.actionPublish failure = .ok published) :
    ∃ entries, workflow.draftSnapshot = .dict entries ∧ published = { workflow with
      publishedSnapshot := withoutPinData entries
      publishedVersion := workflow.version } := by
  unfold actionPublish at succeeds
  split at succeeds
  · cases succeeds
  · cases draft : workflow.draftSnapshot with
    | dict entries =>
        rw [draft] at succeeds
        dsimp only at succeeds
        split at succeeds
        · cases succeeds
        · cases failure with
          | some message => cases succeeds
          | none =>
              cases succeeds
              exact ⟨entries, rfl, rfl⟩
    | _ =>
        rw [draft] at succeeds
        cases succeeds

theorem create_ok {values : CreateValues} {blobs : OrderedMap String Value} {created : IrWorkflow}
    (succeeds : create values blobs = .ok created) :
    created.publishedSnapshot = stored (values.publishedSnapshot.getD (.dict [])) ∧
      created.publishedVersion = values.publishedVersion.getD 0 ∧ created.version = 1 := by
  unfold create at succeeds
  dsimp only at succeeds
  split at succeeds
  · cases succeeds
  · cases succeeds
    exact ⟨rfl, rfl, rfl⟩

theorem restoreVersion_ok {revisionId : Nat} {restored : IrWorkflow}
    (succeeds : workflow.restoreVersion digests author revisionId = .ok restored) :
    restored.publishedSnapshot = workflow.publishedSnapshot ∧
      restored.publishedVersion = workflow.publishedVersion ∧
      restored.version = workflow.version + 1 := by
  unfold restoreVersion at succeeds
  split at succeeds
  · cases succeeds
  · split at succeeds
    · cases succeeds
    · cases succeeds
      exact ⟨rfl, rfl, rfl⟩

theorem markMilestone_ok {revisionId : Nat} {name : Option String} {marked : IrWorkflow}
    (succeeds : workflow.markMilestone revisionId name = .ok marked) :
    marked.publishedSnapshot = workflow.publishedSnapshot ∧
      marked.publishedVersion = workflow.publishedVersion ∧ marked.version = workflow.version := by
  unfold markMilestone at succeeds
  split at succeeds
  · cases succeeds
  · cases succeeds
    exact ⟨rfl, rfl, rfl⟩

theorem withPinData_graph (entries : List (Value × Value)) (pinData : Value) :
    SameGraph (withPinData entries pinData) (.dict entries) := by
  unfold withPinData SameGraph
  constructor
  · simp only [getKey, lookupField_setEntries]
    rfl
  · simp only [getKey, lookupField_setEntries]
    rfl

/-- An execution takes the published graph, and its snapshot unless pinned data
is merged into it. -/
theorem prepareExecutionSnapshot_ok {includePinData : Bool} {executed : Value}
    (succeeds : workflow.prepareExecutionSnapshot includePinData = .ok executed) :
    ∃ entries, workflow.publishedSnapshot = .dict entries ∧ SameGraph executed (.dict entries) ∧
      (includePinData = false → executed = .dict entries) := by
  unfold prepareExecutionSnapshot at succeeds
  split at succeeds
  · cases succeeds
  · cases published : workflow.publishedSnapshot with
    | dict entries =>
        rw [published] at succeeds
        dsimp only at succeeds
        refine ⟨entries, rfl, ?_⟩
        split at succeeds
        · cases succeeds
        · split at succeeds
          · next included =>
              refine ⟨?_, fun excluded => absurd (included.symm.trans excluded) (by decide)⟩
              cases pinned : workflow.draftPinData with
              | error error =>
                  rw [pinned] at succeeds
                  cases succeeds
              | ok pinData =>
                  rw [pinned] at succeeds
                  cases succeeds
                  split
                  · exact withPinData_graph entries pinData
                  · exact ⟨rfl, rfl⟩
          · cases succeeds
            exact ⟨⟨rfl, rfl⟩, fun _ => rfl⟩
    | _ =>
        rw [published] at succeeds
        cases succeeds

end IrWorkflow

theorem stored_pinFree {snapshot : Value} (pinFree : PinFree snapshot) :
    PinFree (stored snapshot) := by
  unfold stored Value.orElse
  split
  · exact pinFree
  · exact falsy_pinFree fun entries same => by cases same

theorem empty_pinFree : PinFree (.dict []) := by
  intro entries fields shown metadata
  cases shown
  cases metadata

theorem settled_cases (holds : IrWorkflow → Prop) (kept : holds workflow)
    {answer : Except WorkflowError IrWorkflow}
    (succeeds : ∀ changed, answer = .ok changed → holds changed) :
    holds (settled workflow answer) := by
  cases answer with
  | error error => exact kept
  | ok changed => exact succeeds changed rfl

theorem apply_pinFree (operation : WorkflowOperation)
    (pinFree : PinFree workflow.publishedSnapshot) :
    PinFree (operation.apply digests workflow).publishedSnapshot := by
  cases operation with
  | saveWorkflow author snapshot expectedHash failure =>
      cases answer : workflow.saveWorkflow digests author snapshot expectedHash failure with
      | error error =>
          simp only [WorkflowOperation.apply, answer]
          exact pinFree
      | ok result =>
          obtain ⟨fields, saved⟩ := IrWorkflow.saveWorkflow_saved answer
          simp only [WorkflowOperation.apply, answer]
          rw [saved.published]
          split
          · exact pinFree
          · exact withoutPinData_pinFree _
  | actionPublish failure =>
      refine settled_cases (fun changed => PinFree changed.publishedSnapshot) pinFree
        fun published succeeds => ?_
      obtain ⟨entries, _, rfl⟩ := IrWorkflow.actionPublish_ok succeeds
      exact withoutPinData_pinFree entries
  | actionUnpublish => exact stored_pinFree empty_pinFree
  | restoreVersion author revisionId =>
      refine settled_cases (fun changed => PinFree changed.publishedSnapshot) pinFree
        fun restored succeeds => ?_
      rw [(IrWorkflow.restoreVersion_ok succeeds).1]
      exact pinFree
  | createMilestone author name => exact pinFree
  | markMilestone revisionId name =>
      refine settled_cases (fun changed => PinFree changed.publishedSnapshot) pinFree
        fun marked succeeds => ?_
      rw [(IrWorkflow.markMilestone_ok succeeds).1]
      exact pinFree
  | unmarkMilestone revisionId => exact pinFree
  | copy draftSnapshot =>
      refine settled_cases (fun changed => PinFree changed.publishedSnapshot) pinFree
        fun copied succeeds => ?_
      rw [(IrWorkflow.create_ok succeeds).1]
      exact stored_pinFree empty_pinFree
  | storeElsewhere snapshot => exact pinFree

end Operations

/-!
## Pinned data
-/

/-- Pinned data stays in the draft of a workflow that was not created with a
published snapshot holding some, and no run that is not manual reads it. -/
theorem pins_stay_in_draft (digests : Digests) (values : CreateValues)
    (blobs : OrderedMap String Value) (created : IrWorkflow)
    (creates : IrWorkflow.create values blobs = .ok created)
    (unpinned : ∀ snapshot, values.publishedSnapshot = some snapshot → PinFree snapshot)
    (operations : List WorkflowOperation) :
    PinFree (created.run digests operations).publishedSnapshot ∧
    (∀ executed nodeId reference,
      (created.run digests operations).prepareExecutionSnapshot false = .ok executed →
      getPinReference executed nodeId = .ok reference → reference = .none) ∧
    ∀ (World : Type) (executor : Executor.WorkflowExecutor) (runtime : Executor.Runtime World)
      (run : Executor.Run), executor.run = some run → run.executionMode ≠ "manual" →
      ∀ (world : World) (inputData : Value) (startNodeIds : List String),
        (Executor.execute executor runtime world inputData startNodeIds).1.side.Unpinned ∧
        ∀ pins, Executor.execute executor (runtime.pinning pins) world inputData startNodeIds =
          Executor.execute executor runtime world inputData startNodeIds := by
  have started : PinFree created.publishedSnapshot := by
    rw [(IrWorkflow.create_ok creates).1]
    cases given : values.publishedSnapshot with
    | none => exact stored_pinFree empty_pinFree
    | some snapshot => exact stored_pinFree (unpinned snapshot given)
  have published : PinFree (created.run digests operations).publishedSnapshot :=
    GuardedRun.run_invariant (fun workflow : IrWorkflow => PinFree workflow.publishedSnapshot)
      (fun _ operation pinFree => apply_pinFree operation pinFree) started operations
  refine ⟨published, fun executed nodeId reference prepared found => ?_, ?_⟩
  · obtain ⟨entries, shown, _, unchanged⟩ := IrWorkflow.prepareExecutionSnapshot_ok prepared
    rw [shown, ← unchanged rfl] at published
    exact published.reference found
  · intro World executor runtime run running automated world inputData startNodeIds
    have closed := Executor.shouldApplyPinData_of_mode running automated
    exact ⟨Executor.execute_unpinned runtime closed world inputData startNodeIds,
      fun pins => Executor.execute_pinning closed pins world inputData startNodeIds⟩

def pinnedDraft : Value :=
  .dict [(.str "nodes", .list [.dict [(.str "id", .str "n_1")]]), (.str "connections", .list []),
    (.str "metadata", .dict [(.str "pin_data", .dict [(.str "n_1", .int 7)])])]

def newWorkflow : IrWorkflow := { workflowWith emptyDraft with publishedSnapshot := .bool false }

def savedAndPublished : List WorkflowOperation := [
  .saveWorkflow ⟨0, 7, "Admin"⟩ pinnedDraft none none,
  .actionUnpublish,
  .actionPublish none]

theorem pins_stay_in_draft_savedAndPublished :
    PinFree (newWorkflow.run nodeDigests savedAndPublished).publishedSnapshot ∧
      (newWorkflow.run nodeDigests savedAndPublished).publishedSnapshot.truthy = true :=
  ⟨(pins_stay_in_draft nodeDigests { name := "Orders" } OrderedMap.empty newWorkflow rfl
    (fun _ given => by cases given) savedAndPublished).1, by decide⟩

/-- Creating a workflow does not strip a published snapshot that it is given. -/
theorem create_keeps_pins : ∃ created,
    IrWorkflow.create { name := "Orders", publishedSnapshot := some pinnedDraft } OrderedMap.empty =
      .ok created ∧ ¬ PinFree created.publishedSnapshot := by
  refine ⟨_, rfl, fun pinFree => ?_⟩
  have gone := (pinFree _ _ rfl rfl).1
  exact absurd gone (by decide)

/-!
## Saves
-/

theorem lookupField_ensureField {key other : String} (different : other ≠ key)
    (fits : Value → Bool) (fallback : Value) (entries : List (Value × Value)) :
    lookupField (ensureField key fits fallback entries) other = lookupField entries other := by
  unfold ensureField
  split
  · rfl
  · rw [lookupField_setEntries, if_neg different]

/-- A missing or malformed list of nodes is replaced by an empty one. -/
theorem nodesOf_ensureRequiredKeys (fields : List (Value × Value)) :
    nodesOf (ensureRequiredKeys fields) = nodesOf fields := by
  have nodes : nodesOf (ensureRequiredKeys fields) =
      nodesOf (ensureField "nodes" isList (.list []) fields) := by
    unfold nodesOf ensureRequiredKeys
    rw [lookupField_ensureField (by decide), lookupField_ensureField (by decide)]
  rw [nodes]
  unfold ensureField
  split
  · rfl
  · next unlisted =>
      unfold nodesOf
      rw [lookupField_setEntries, if_pos rfl]
      cases given : lookupField fields "nodes" with
      | none => rfl
      | some nodes =>
          rw [given] at unlisted
          cases nodes with
          | list items => cases unlisted
          | _ => rfl

/-- Whatever happened to the workflow before, a save that returns publishes the
draft it has stored, and an execution runs that graph, when the draft has
nodes; otherwise the published copy stays as it was. -/
theorem save_publishes_draft (digests : Digests) (author : Author) (workflow saved : IrWorkflow)
    (snapshot : Value) (expectedHash failure : Option String) (response : SaveResponse)
    (saves : workflow.saveWorkflow digests author snapshot expectedHash failure =
      .ok (saved, response)) :
    ∃ fields, snapshot = .dict fields ∧
      (nodesOf fields ≠ [] → saved.PublishesDraft ∧ saved.publishedVersion = saved.version ∧
        ∀ includePinData executed, saved.prepareExecutionSnapshot includePinData = .ok executed →
          SameGraph executed saved.draftSnapshot) ∧
      (nodesOf fields = [] → saved.publishedSnapshot = workflow.publishedSnapshot ∧
        saved.publishedVersion = workflow.publishedVersion) := by
  obtain ⟨fields, as⟩ := IrWorkflow.saveWorkflow_saved saves
  have published := as.published
  have version := as.publishedVersion
  rw [nodesOf_ensureRequiredKeys] at published version
  refine ⟨fields, as.given, fun some => ?_, fun none => ?_⟩
  · rw [if_neg some] at published version
    refine ⟨⟨_, as.draft, published⟩, version.trans as.version.symm,
      fun includePinData executed prepared => ?_⟩
    obtain ⟨entries, shown, graph, _⟩ := IrWorkflow.prepareExecutionSnapshot_ok prepared
    have stripped := withoutPinData_graph (ensureRequiredKeys fields)
    rw [← published, shown] at stripped
    rw [as.draft]
    exact ⟨graph.1.trans stripped.1, graph.2.trans stripped.2⟩
  · rw [if_pos none] at published version
    exact ⟨published, version⟩

def savedNodes : IrWorkflow :=
  (newWorkflow.run nodeDigests [.saveWorkflow ⟨0, 7, "Admin"⟩ (snapshotOf 1) none none])

theorem save_publishes_draft_savedNodes : ∃ saved response,
    savedNodes.saveWorkflow nodeDigests ⟨1, 7, "Admin"⟩ (snapshotOf 2) none none =
        .ok (saved, response) ∧
      saved.PublishesDraft ∧ saved.publishedVersion = saved.version := by
  refine ⟨_, _, rfl, ?_⟩
  obtain ⟨fields, given, published, _⟩ := save_publishes_draft nodeDigests ⟨1, 7, "Admin"⟩
    savedNodes _ (snapshotOf 2) none none _ rfl
  cases given
  obtain ⟨draft, version, _⟩ := published (List.ne_nil_of_length_pos (by decide))
  exact ⟨draft, version⟩

/-- A save without nodes leaves the graph of the save before it published, and
the next execution runs that graph. -/
theorem emptied_workflow_stays_published : ∃ saved response executed,
    savedNodes.saveWorkflow nodeDigests ⟨1, 7, "Admin"⟩ emptyDraft none none =
        .ok (saved, response) ∧
      ¬ saved.PublishesDraft ∧ saved.publishedVersion ≠ saved.version ∧
      saved.prepareExecutionSnapshot false = .ok executed ∧
      ¬ SameGraph executed saved.draftSnapshot := by
  refine ⟨_, _, _, rfl, fun publishes => ?_, by decide, rfl, fun same => ?_⟩
  · obtain ⟨entries, draft, published⟩ := publishes
    cases draft
    exact absurd published (by decide)
  · exact absurd same.1 (by decide)

end WorkflowStudio.Workflow
