import WorkflowStudio.Editor.LoadSave
import WorkflowStudio.Editor.FreshIdProperties

/-! When the graph, the workflow identifier and the version hash of the store
belong together, whatever the order of the replies. -/

set_option autoImplicit false

namespace WorkflowStudio.Editor

open Lib

/-!
## The calls without other requests in flight
-/

theorem Store.loadWorkflow_eq (registry : Registry) (store : Store) (id : Nat) (draft : Draft)
    (versionHash : Option String) :
    store.loadWorkflow registry id draft versionHash =
      store.loadRequested.loadReplied registry id draft versionHash := rfl

theorem Store.saveWorkflow_eq (store : Store) (versionHash : Option String) :
    store.saveWorkflow (some versionHash) = store.saveRequested.saveReplied versionHash := rfl

/-!
## Coherence
-/

/-- The graph is the one that a load of the workflow gave. -/
def GraphFrom (registry : Registry) (answers : List Answer) (adapter : WorkflowAdapter) :
    Option Nat → Prop
  | none => adapter = .empty
  | some id => ∃ reply, .loaded id reply ∈ answers ∧
      adapter = (WorkflowAdapter.fromJSON registry reply.draft.snapshot).1

/-- The backend sent the hash for the workflow, with a load or with a save. -/
def HashFrom (answers : List Answer) (versionHash : Option String) (workflowId : Option Nat) :
    Prop :=
  (workflowId = none ∧ versionHash = none) ∨
  (∃ id reply, workflowId = some id ∧ .loaded id reply ∈ answers ∧
    reply.versionHash = versionHash) ∨
  .saved workflowId versionHash ∈ answers

/-- Graph, identifier and hash come from one and the same workflow. -/
def RequestSession.Coherent (registry : Registry) (session : RequestSession) : Prop :=
  GraphFrom registry session.answers session.store.adapter session.store.workflowId ∧
    HashFrom session.answers session.store.versionHash session.store.workflowId

/-- Every node of a draft loads, and a save is answered while its workflow is
still the one in the store. -/
def RequestStep.Orderly (registry : Registry) (session : RequestSession) : RequestStep → Prop
  | .loadReply _ (some reply) => reply.draft.snapshot.Loadable registry
  | .saveReply index (some _) => ∀ request, session.saves[index]? = some request →
      request.workflowId = session.store.workflowId
  | _ => True

section Steps

variable {registry : Registry}

theorem GraphFrom.mono {answers more : List Answer} {adapter : WorkflowAdapter}
    {workflowId : Option Nat} (origin : GraphFrom registry answers adapter workflowId)
    (grows : answers ⊆ more) : GraphFrom registry more adapter workflowId := by
  cases workflowId with
  | none => exact origin
  | some id =>
      obtain ⟨reply, member, same⟩ := origin
      exact ⟨reply, grows member, same⟩

theorem loadReplied_of_loadable {draft : Draft} (loadable : draft.snapshot.Loadable registry)
    (store : Store) (id : Nat) (versionHash : Option String) :
    store.loadReplied registry id draft versionHash =
      { store with
        adapter := (WorkflowAdapter.fromJSON registry draft.snapshot).1
        versionHash := versionHash
        workflowId := some id
        workflowMetadata := draft.metadata
        pinData := Store.loadedPinData draft.metadata } := by
  have loads := loadable.loads
  unfold Store.loadReplied WorkflowAdapter.fromJSON
  cases result : WorkflowEditor.fromJSON registry draft.snapshot with
  | mk editor error =>
      rw [result] at loads
      cases loads
      rfl

namespace RequestSession.Coherent

variable {session : RequestSession}

theorem loadReply (coherent : session.Coherent registry) {index : Nat} {reply : Option LoadReply}
    (loadable : ∀ draft ∈ reply.map LoadReply.draft, draft.snapshot.Loadable registry) :
    (session.loadReply registry index reply).Coherent registry := by
  unfold RequestSession.loadReply
  cases session.loads[index]? with
  | none => exact coherent
  | some id =>
      cases reply with
      | none => exact coherent
      | some reply =>
          have listed : Answer.loaded id reply ∈ session.answers ++ [.loaded id reply] :=
            List.mem_append_right _ List.mem_cons_self
          dsimp only
          rw [loadReplied_of_loadable (loadable reply.draft rfl)]
          exact ⟨⟨reply, listed, rfl⟩, .inr (.inl ⟨id, reply, rfl, listed, rfl⟩)⟩

theorem saveReply (coherent : session.Coherent registry) {index : Nat}
    {reply : Option (Option String)}
    (current : ∀ request, session.saves[index]? = some request → reply.isSome →
      request.workflowId = session.store.workflowId) :
    (session.saveReply index reply).Coherent registry := by
  unfold RequestSession.saveReply
  cases found : session.saves[index]? with
  | none => exact coherent
  | some request =>
      cases reply with
      | none => exact coherent
      | some versionHash =>
          have listed : Answer.saved session.store.workflowId versionHash ∈
              session.answers ++ [.saved request.workflowId versionHash] := by
            rw [current request found rfl]
            exact List.mem_append_right _ List.mem_cons_self
          exact ⟨coherent.1.mono (List.subset_append_left _ _), .inr (.inr listed)⟩

theorem step (coherent : session.Coherent registry) {next : RequestStep}
    (orderly : next.Orderly registry session) :
    (session.step registry next).Coherent registry := by
  cases next with
  | loadWorkflow id => exact coherent
  | saveWorkflow => exact coherent
  | loadReply index reply =>
      refine coherent.loadReply fun draft member => ?_
      cases reply with
      | none => cases member
      | some reply =>
          cases member
          exact orderly
  | saveReply index reply =>
      refine coherent.saveReply fun request found answered => ?_
      cases reply with
      | none => cases answered
      | some versionHash => exact orderly request found

end RequestSession.Coherent

/-- An orderly load that throws is one that the backend refused. -/
theorem RequestStep.Orderly.unchanged {session : RequestSession} {next : RequestStep}
    (orderly : next.Orderly registry session) (throws : next.loadThrows registry session = true) :
    (session.step registry next).store = session.store := by
  cases next with
  | loadWorkflow id => cases throws
  | saveWorkflow => cases throws
  | saveReply index reply => cases throws
  | loadReply index reply =>
      cases reply with
      | some reply =>
          have returns := Snapshot.Loadable.returns orderly
          simp only [RequestStep.loadThrows, returns, Option.isSome_none, Bool.and_false,
            Bool.false_eq_true] at throws
      | none =>
          change (session.loadReply registry index none).store = session.store
          unfold RequestSession.loadReply
          cases session.loads[index]? <;> rfl

end Steps

/-- In every run of calls and replies that is orderly at each step, the graph,
the identifier and the hash belong together, and a load that throws leaves the
whole store as it was. -/
theorem loads_and_saves_coherent (registry : Registry) (steps : List RequestStep)
    (orderly : GuardedRun.Meets (RequestSession.step registry)
      (fun session next => next.Orderly registry session) .initial steps) :
    (GuardedRun.run (RequestSession.step registry) .initial steps).Coherent registry ∧
    ∀ next, RequestStep.Orderly registry
        (GuardedRun.run (RequestSession.step registry) .initial steps) next →
      next.loadThrows registry (GuardedRun.run (RequestSession.step registry) .initial steps) =
        true →
      ((GuardedRun.run (RequestSession.step registry) .initial steps).step registry next).store =
        (GuardedRun.run (RequestSession.step registry) .initial steps).store := by
  have keeps : ∀ (session : RequestSession) (next : RequestStep), session.Coherent registry →
      next.Orderly registry session → (session.step registry next).Coherent registry :=
    fun _ _ coherent orderly => coherent.step orderly
  have started : RequestSession.initial.Coherent registry := ⟨rfl, .inl ⟨rfl, rfl⟩⟩
  refine ⟨?_, fun _ orderly throws => orderly.unchanged throws⟩
  exact GuardedRun.guarded_invariant (fun session : RequestSession => session.Coherent registry)
    keeps started orderly

/-- A workflow is loaded with the hash that is given. -/
def opened (id : Nat) (snapshot : Snapshot) (versionHash : String) : List RequestStep := [
  .loadWorkflow id,
  .loadReply 0 (some ⟨⟨snapshot, OrderedMap.empty⟩, some versionHash⟩)]

theorem loads_and_saves_coherent_opened :
    (GuardedRun.run (RequestSession.step noopRegistry) .initial
      (opened 1 allKnown "a1" ++ [.saveWorkflow, .saveReply 0 (some (some "a2"))])).Coherent
        noopRegistry := by
  refine (loads_and_saves_coherent noopRegistry
    (opened 1 allKnown "a1" ++ [.saveWorkflow, .saveReply 0 (some (some "a2"))]) ?_).1
  refine ⟨trivial, ⟨?_, ⟨trivial, ⟨?_, trivial⟩⟩⟩⟩
  · exact (by decide : allKnown.Loadable noopRegistry)
  · intro request found
    cases found
    rfl

/-- A save of workflow 1 that is answered after workflow 2 was opened puts its
hash beside workflow 2; a load that throws has already emptied the graph. -/
theorem late_save_mixes_workflows :
    ¬ (GuardedRun.run (RequestSession.step noopRegistry) .initial
      (opened 1 allKnown "a1" ++ [.saveWorkflow] ++ opened 2 allKnown "b1" ++
        [.saveReply 0 (some (some "a2"))])).Coherent noopRegistry ∧
    (GuardedRun.run (RequestSession.step noopRegistry) .initial
      (opened 1 allKnown "a1" ++ opened 2 ⟨partlyKnown.nodes.drop 1, []⟩
        "b1")).store.adapter.editor.nodes.get? "n_1" = none := by
  refine ⟨fun coherent => ?_, by decide⟩
  rcases coherent.2 with ⟨unset, _⟩ | ⟨id, reply, same, listed, sent⟩ | saved
  · cases unset
  · cases same
    have second : reply = ⟨⟨allKnown, OrderedMap.empty⟩, some "b1"⟩ := by
      change Answer.loaded 2 reply ∈ [.loaded 1 _, .loaded 2 _, .saved (some 1) (some "a2")] at listed
      simpa using listed
    rw [second] at sent
    exact absurd sent (by decide)
  · revert saved
    decide

end WorkflowStudio.Editor
