import WorkflowStudio.Lib.GuardedRun
import WorkflowStudio.Workflow.Saving

/-! Saves of several editors. A save is refused with a conflict unless its
editor has seen the draft it replaces, with one exception: an empty draft has no
version hash, so an editor that loaded it is never refused. -/

set_option autoImplicit false

namespace WorkflowStudio.Workflow

open Lib GuardedRun

def CollisionFree (digests : Digests) (drafts : List Value) : Prop :=
  ∀ left ∈ drafts, ∀ right ∈ drafts, digests.version left = digests.version right → left = right

def Request.stored : Request → Option Value
  | .load _ => none
  | .save _ _ (.dict fields) _ => some (.dict (ensureRequiredKeys fields))
  | .save _ _ _ _ => none

/-- The save replaces what the editor has seen, or it is refused with a conflict. -/
def Request.Lossless (digests : Digests) (site : Site) : Request → Prop
  | .load _ => True
  | .save client author snapshot failure => ∀ editor, site.clients client = some editor →
      site.workflow.loadedDraft = editor.seen ∨
        site.answer digests editor author snapshot failure = .error .conflict

/-- The editor has not seen an empty draft that is filled by now. -/
def Request.Informed (site : Site) : Request → Prop
  | .load _ => True
  | .save client _ _ _ => ∀ editor, site.clients client = some editor →
      editor.seen.truthy = false → site.workflow.draftSnapshot.truthy = false

/-!
## The stored draft
-/

theorem ensureField_ne_nil (key : String) (fits : Value → Bool) (fallback : Value)
    (entries : List (Value × Value)) : ensureField key fits fallback entries ≠ [] := by
  unfold ensureField
  split
  · next found =>
      cases entries with
      | nil => cases found
      | cons first rest => exact List.cons_ne_nil _ _
  · cases entries with
    | nil => exact List.cons_ne_nil _ _
    | cons first rest =>
        simp only [OrderedMap.setEntries]
        split <;> exact List.cons_ne_nil _ _

theorem stored_truthy {request : Request} {draft : Value} (stores : request.stored = some draft) :
    draft.truthy = true := by
  cases request with
  | load client => cases stores
  | save client author snapshot failure =>
      cases snapshot with
      | dict fields =>
          cases stores
          have filled := ensureField_ne_nil "metadata" isDict (.dict [])
            (ensureField "connections" isList (.list [])
              (ensureField "nodes" isList (.list []) fields))
          simp only [Value.truthy, ensureRequiredKeys, Bool.not_eq_true',
            List.isEmpty_eq_false_iff]
          exact filled
      | _ => cases stores

theorem createSnapshotRevision_draft (digests : Digests) (author : Author)
    (contextNote : Option String) (record : HistoryRecord) (snapshot : Value)
    (note : Option String) (isMilestone : Bool) (revisionId : Option Nat) :
    (record.createSnapshotRevision digests author contextNote snapshot note isMilestone
      revisionId).1.draftSnapshot = record.draftSnapshot := by
  unfold HistoryRecord.createSnapshotRevision
  dsimp only
  split
  · rfl
  · split
    · split <;> rfl
    · rfl

namespace IrWorkflow

variable {digests : Digests} {workflow : IrWorkflow}

theorem saveWorkflow_ok (client : Nat) {author : Author} {snapshot : Value}
    {expectedHash failure : Option String} {saved : IrWorkflow} {response : SaveResponse}
    (succeeds : workflow.saveWorkflow digests author snapshot expectedHash failure =
      .ok (saved, response)) :
    (Request.save client author snapshot failure).stored = some saved.draftSnapshot ∧
      response.versionHash = saved.versionHash digests := by
  unfold saveWorkflow at succeeds
  split at succeeds
  · cases succeeds
  · cases snapshot with
    | dict fields =>
        dsimp only at succeeds
        split at succeeds
        · cases succeeds
        · cases failure with
          | some message => cases succeeds
          | none =>
              cases succeeds
              refine ⟨?_, rfl⟩
              have filled := stored_truthy
                (rfl : (Request.save client author (.dict fields) none).stored = some _)
              have draft : ((workflow.writeDraft digests author
                  (.dict (ensureRequiredKeys fields))).publish
                    (ensureRequiredKeys fields)).draftSnapshot =
                  (workflow.writeDraft digests author
                    (.dict (ensureRequiredKeys fields))).draftSnapshot := by
                unfold publish
                split <;> rfl
              rw [draft]
              simp only [writeDraft, HistoryRecord.write, createSnapshotRevision_draft,
                Value.orElse, filled, ↓reduceIte, Request.stored]
    | _ => cases succeeds

theorem loadedDraft_truthy (workflow : IrWorkflow) :
    workflow.loadedDraft.truthy = workflow.draftSnapshot.truthy := by
  unfold loadedDraft Value.orElse
  split
  · rfl
  · next empty => rw [Bool.not_eq_true _ |>.mp empty]; rfl

theorem loadedDraft_of_truthy (filled : workflow.draftSnapshot.truthy = true) :
    workflow.loadedDraft = workflow.draftSnapshot := by
  simp only [loadedDraft, Value.orElse, filled, ↓reduceIte]

theorem loadedDraft_of_empty (empty : workflow.draftSnapshot.truthy = false) :
    workflow.loadedDraft = .dict [] := by
  simp only [loadedDraft, Value.orElse, empty, Bool.false_eq_true, ↓reduceIte]

theorem hashOf_loadedDraft (digests : Digests) (workflow : IrWorkflow) :
    hashOf digests workflow.loadedDraft = workflow.versionHash digests := by
  unfold versionHash hashOf
  rw [loadedDraft_truthy]
  split
  · next filled => rw [loadedDraft_of_truthy filled]
  · rfl

end IrWorkflow

/-!
## What the editors know
-/

/-- What an editor knows: the hash is the one of the draft it has seen, an empty
draft is the empty object, and a draft that was filled once is filled for ever. -/
structure EditorClient.Knows (digests : Digests) (drafts : List Value) (workflow : IrWorkflow)
    (editor : EditorClient) : Prop where
  hash : editor.versionHash = IrWorkflow.hashOf digests editor.seen
  empty : editor.seen.truthy = false → editor.seen = .dict []
  listed : editor.seen.truthy = true → editor.seen ∈ drafts
  stays : editor.seen.truthy = true → workflow.draftSnapshot.truthy = true

structure Site.Consistent (digests : Digests) (drafts : List Value) (site : Site) : Prop where
  draft : site.workflow.draftSnapshot.truthy = true → site.workflow.draftSnapshot ∈ drafts
  clients : ∀ client editor, site.clients client = some editor →
    editor.Knows digests drafts site.workflow

section Editors

variable {digests : Digests} {drafts : List Value} {site : Site}

theorem EditorClient.Knows.current {workflow : IrWorkflow}
    (draft : workflow.draftSnapshot.truthy = true → workflow.draftSnapshot ∈ drafts) :
    EditorClient.Knows digests drafts workflow
      { versionHash := workflow.versionHash digests, seen := workflow.loadedDraft } where
  hash := (IrWorkflow.hashOf_loadedDraft digests workflow).symm
  empty := fun empty => by
    rw [IrWorkflow.loadedDraft_truthy] at empty
    exact IrWorkflow.loadedDraft_of_empty empty
  listed := fun filled => by
    rw [IrWorkflow.loadedDraft_truthy] at filled
    rw [IrWorkflow.loadedDraft_of_truthy filled]
    exact draft filled
  stays := fun filled => by
    rw [IrWorkflow.loadedDraft_truthy] at filled
    exact filled

theorem Site.Consistent.serve (consistent : site.Consistent digests drafts) {request : Request}
    (listed : ∀ draft, request.stored = some draft → draft ∈ drafts) :
    (request.serve digests site).Consistent digests drafts := by
  cases request with
  | load client =>
      refine ⟨consistent.draft, fun other editor found => ?_⟩
      simp only [Request.serve, Site.withClient] at found
      split at found
      · cases found
        exact .current consistent.draft
      · exact consistent.clients other editor found
  | save client author snapshot failure =>
      simp only [Request.serve]
      split
      · exact consistent
      · next editor present =>
          split
          · exact consistent
          · next workflow response answered =>
              obtain ⟨stores, hash⟩ := IrWorkflow.saveWorkflow_ok client answered
              have filled := stored_truthy stores
              refine ⟨fun _ => listed _ stores, fun other known found => ?_⟩
              simp only [Site.withClient] at found
              split at found
              · cases found
                rw [hash]
                exact .current fun _ => listed _ stores
              · have knows := consistent.clients other known found
                exact ⟨knows.hash, knows.empty, knows.listed, fun _ => filled⟩

/-- A consistent editor loses nothing by a save exactly when it is informed. -/
theorem lossless_iff_informed (consistent : site.Consistent digests drafts)
    (collisionFree : CollisionFree digests drafts) (request : Request) :
    request.Lossless digests site ↔ request.Informed site := by
  cases request with
  | load client => exact Iff.rfl
  | save client author snapshot failure =>
      refine forall_congr' fun editor => forall_congr' fun present => ?_
      have knows := consistent.clients client editor present
      constructor
      · intro lossless empty
        rcases lossless with same | refused
        · rw [← IrWorkflow.loadedDraft_truthy, same]
          exact empty
        · -- without a hash of its own the editor is never refused
          have noHash : editor.versionHash = none := by
            rw [knows.hash]
            simp [IrWorkflow.hashOf, empty]
          unfold Site.answer IrWorkflow.saveWorkflow at refused
          simp only [noHash, ne_eq, not_true_eq_false, false_and, ↓reduceIte] at refused
          split at refused
          · split at refused
            · cases refused
            · split at refused <;> cases refused
          · cases refused
      · intro informed
        cases filled : editor.seen.truthy with
        | false =>
            refine .inl ?_
            rw [IrWorkflow.loadedDraft_of_empty (informed filled), knows.empty filled]
        | true =>
            have present := knows.stays filled
            by_cases same : digests.version site.workflow.draftSnapshot =
              digests.version editor.seen
            · refine .inl ?_
              rw [IrWorkflow.loadedDraft_of_truthy present]
              exact collisionFree _ (consistent.draft present) _ (knows.listed filled) same
            · refine .inr ?_
              have differ : ¬ digests.version editor.seen =
                  digests.version site.workflow.draftSnapshot := fun equal => same equal.symm
              unfold Site.answer IrWorkflow.saveWorkflow
              simp [knows.hash, IrWorkflow.hashOf, IrWorkflow.versionHash, filled, present, differ]

def Site.Filled (site : Site) : Prop :=
  site.workflow.draftSnapshot.truthy = true ∧
    ∀ client editor, site.clients client = some editor → editor.seen.truthy = true

theorem Site.Filled.serve (filled : site.Filled) (request : Request) :
    (request.serve digests site).Filled := by
  obtain ⟨draft, seen⟩ := filled
  cases request with
  | load client =>
      refine ⟨draft, fun other editor found => ?_⟩
      simp only [Request.serve, Site.withClient] at found
      split at found
      · cases found
        rw [IrWorkflow.loadedDraft_truthy]
        exact draft
      · exact seen other editor found
  | save client author snapshot failure =>
      simp only [Request.serve]
      split
      · exact ⟨draft, seen⟩
      · split
        · exact ⟨draft, seen⟩
        · next workflow response answered =>
            have stored := stored_truthy (IrWorkflow.saveWorkflow_ok client answered).1
            refine ⟨stored, fun other editor found => ?_⟩
            simp only [Site.withClient] at found
            split at found
            · cases found
              rw [IrWorkflow.loadedDraft_truthy]
              exact stored
            · exact seen other editor found

theorem Site.Filled.informed (filled : site.Filled) (request : Request) :
    request.Informed site := by
  cases request with
  | load client => trivial
  | save client author snapshot failure =>
      intro editor present empty
      rw [filled.2 client editor present] at empty
      cases empty

end Editors

def draftsOf (workflow : IrWorkflow) (requests : List Request) : List Value :=
  workflow.draftSnapshot :: requests.filterMap Request.stored

/-- For any number of editors and any order of their requests, if no two drafts
share a hash: every save replaces what its editor has seen or is refused with a
conflict, exactly when no editor that loaded an empty draft saves after the
draft was filled; and so it always is when the draft is filled from the start. -/
theorem saves_lose_nothing (digests : Digests) (workflow : IrWorkflow) (requests : List Request)
    (collisionFree : CollisionFree digests (draftsOf workflow requests)) :
    (Meets (Request.serve digests) (Request.Lossless digests) (Site.unopened workflow) requests ↔
      Meets (Request.serve digests) Request.Informed (Site.unopened workflow) requests) ∧
    (workflow.draftSnapshot.truthy = true →
      Meets (Request.serve digests) (Request.Lossless digests) (Site.unopened workflow)
        requests) := by
  have keeps : ∀ (site : Site) (request : Request),
      site.Consistent digests (draftsOf workflow requests) →
      (∀ draft, request.stored = some draft → draft ∈ draftsOf workflow requests) →
      (request.serve digests site).Consistent digests (draftsOf workflow requests) :=
    fun _ _ consistent listed => consistent.serve listed
  have agree : ∀ (site : Site) (request : Request),
      site.Consistent digests (draftsOf workflow requests) →
      (request.Lossless digests site ↔ request.Informed site) :=
    fun _ request consistent => lossless_iff_informed consistent collisionFree request
  have started : (Site.unopened workflow).Consistent digests (draftsOf workflow requests) :=
    ⟨fun _ => List.mem_cons_self, fun _ _ found => nomatch found⟩
  have same := meets_congr keeps agree started fun request member draft stores =>
    List.mem_cons_of_mem _ (List.mem_filterMap.mpr ⟨request, member, stores⟩)
  refine ⟨same, fun filled => same.mpr ?_⟩
  have start : (Site.unopened workflow).Filled := ⟨filled, fun _ _ found => nomatch found⟩
  have stays : ∀ (site : Site) (request : Request), site.Filled →
      (request.serve digests site).Filled := fun _ request filled => filled.serve request
  exact meets_of_invariant stays (fun _ request filled => filled.informed request) start requests

/-!
## Two editors
-/

def workflowWith (draft : Value) : IrWorkflow where
  draftSnapshot := draft
  revisions := []
  blobs := OrderedMap.empty
  name := "Orders"
  version := 1
  publishedSnapshot := .dict []
  publishedVersion := 0

def snapshotOf (nodes : Nat) : Value :=
  .dict [(.str "nodes", .list (List.replicate nodes (.dict []))), (.str "connections", .list []),
    (.str "metadata", .dict [])]

def nodeDigests : Digests where
  snapshot := countNodes
  blob := countNodes
  version := countNodes
where
  countNodes : Value → String
    | .dict entries => String.ofList (List.replicate (nodesOf entries).length 'n')
    | _ => ""

def twoEditors : List Request := [
  .load 1,
  .load 2,
  .save 1 ⟨0, 7, "Admin"⟩ (snapshotOf 1) none,
  .save 2 ⟨0, 8, "Demo"⟩ (snapshotOf 2) none]

theorem saves_lose_nothing_twoEditors :
    Meets (Request.serve nodeDigests) (Request.Lossless nodeDigests)
      (Site.unopened (workflowWith (snapshotOf 0))) twoEditors :=
  (saves_lose_nothing nodeDigests (workflowWith (snapshotOf 0)) twoEditors (by
    unfold CollisionFree
    decide)).2 rfl

/-- Both editors loaded an empty draft: the second save replaces the first one,
which its editor has never seen. -/
theorem empty_draft_loses_save :
    ¬ Meets (Request.serve nodeDigests) (Request.Lossless nodeDigests)
      (Site.unopened (workflowWith (.bool false))) twoEditors := by
  rintro ⟨_, _, _, lossless, _⟩
  rcases lossless ⟨none, .dict []⟩ rfl with same | refused
  · exact absurd same (by decide)
  · cases refused

end WorkflowStudio.Workflow
