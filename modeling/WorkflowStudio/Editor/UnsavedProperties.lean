import WorkflowStudio.Editor.UnsavedChanges
import WorkflowStudio.Editor.PendingProperties
import WorkflowStudio.Editor.CoverProperties
import WorkflowStudio.Editor.RoundTripProperties

/-! The flag for unsaved changes is whether the undo stack is empty. It tells
the truth as long as undoing the whole history leads back to the stored draft:
what bypasses the history, what an entry does not capture, what the history
drops, and what happens between the moment a snapshot is accepted and the moment
its reply clears the history, all break this. -/

set_option autoImplicit false

namespace WorkflowStudio.Editor

open Lib Reversal GuardedRun

variable {registry : Registry}

/-!
## What the flag can follow
-/

/-- Undoing the history discards the node. -/
def Store.Discards (store : Store) (nodeId : String) : Prop :=
  nodeId ∈ store.history.pending.filterMap Command.added

/-- The change is one that undoing the history discards, or no change. -/
def Store.Passes (store : Store) (nodeId : String) (change : Node → Node) : Prop :=
  store.Idle ∧ (store.Discards nodeId ∨
    ∀ node, store.adapter.editor.nodes.get? nodeId = some node → change node = node)

/-- The history takes that many entries, and none of them is hidden in a batch
while the undo stack is empty. -/
def Store.Records (store : Store) (entries : Nat) : Prop :=
  store.Idle ∧ store.history.Room entries ∧
    (store.history.currentBatch ≠ none → store.history.undoStack ≠ [])

/-- A node of a connector request is sent without its blank fields. -/
def NodeData.sent (data : NodeData) : NodeData :=
  if data.type = "connector_request" then
    { data with config := some (sanitizeConnectorRequestConfig data.config) }
  else data

/-- The draft is in the form in which the editor saves: every node and every
connection is sent as it was loaded, and pinned data stands under one key. -/
structure Draft.Written (registry : Registry) (draft : Draft) : Prop where
  nodes : ∀ data ∈ draft.snapshot.nodes, ∃ node,
    Node.fromJSON registry data = .ok node ∧ node.toJSON.sent = data
  distinct : (draft.snapshot.nodes.map NodeData.id).Nodup
  connections : ∀ data ∈ draft.snapshot.connections, (Connection.fromJSON data).toJSON = data
  oldPins : draft.metadata.get? "pinData" = none
  pins : draft.metadata.get? "pin_data" = none ∨ ∃ pins : Config, pins.entries ≠ [] ∧
    draft.metadata.get? "pin_data" = some (WorkflowEditor.objectOf pins)

def Operation.Followed (registry : Registry) (store : Store) : Operation → Prop
  | .perform action =>
      store.Records (action.run registry store.adapter).2.length ∧
        action.Undoable registry store.adapter.editor ∧
        ∀ nodeId, action = .removeNode nodeId → store.pinData.get? nodeId = none
  | .recordMoveNodes nodeMoves => store.Records 1 ∧ ∀ move ∈ nodeMoves,
      store.Passes move.nodeId fun node => { node with position := move.oldPosition }
  | .moveNodesTransient updates => store.Idle ∧ ∀ update ∈ updates.entries,
      store.Passes update.1 fun node => { node with position := update.2 }
  | .setNodeConfig nodeId config => store.Passes nodeId fun node => node.configured config
  | .setNodeMeta nodeId metaPatch => store.Passes nodeId fun node =>
      { node with metaFields := WorkflowEditor.patchedMeta node.metaFields metaPatch }
  | .renameNode nodeId label => store.Passes nodeId fun node => { node with label := label }
  | .setControlValue nodeId controlKey value => store.Passes nodeId fun node =>
      { node with
        controls := if (node.controls.get? controlKey).isSome then
          node.controls.set controlKey value else node.controls }
  | .updatePosition nodeId position => store.Passes nodeId fun node =>
      { node with position := position }
  | .pinNodeData nodeId pinValue => nodeId = "" ∨
      store.pinData.get? nodeId = some pinValue.stored
  | .unpinNodeData nodeId => store.pinData.get? nodeId = none
  | .undo => store.Idle ∧ store.history.batched = []
  | .redo => store.Idle ∧ store.history.batched = [] ∧
      ∀ entry rest, store.history.redoStack = entry :: rest →
        EntryRetraceable registry entry.commands store.adapter
  | .beginBatch => store.history.batched = []
  | .endBatch _ => store.history.batched ≠ [] →
      store.history.undoStack.length < HistoryManager.maxSize
  | .startHistoryPreview _ snapshot | .startExecutionView _ snapshot =>
      (store.covered registry).editor.Labelled registry ∧
        (store.history.undoStack = [] →
          (WorkflowAdapter.fromJSON registry snapshot).1 ≈ store.covered registry)
  | .endHistoryPreview restoreOriginal =>
      restoreOriginal = true ∨ store.historyPreview.active = false
  | .endExecutionView restoreOriginal =>
      restoreOriginal = true ∨ store.executionView.active = false
  | .loadWorkflow _ draft _ => store.Idle ∧ draft.Written registry ∧
      store.history.undoStack = [] ∧ store.history.batched = []
  | .saveWorkflow answer => answer = none ∨ (store.Idle ∧ store.history.batched = [])
  | .fromJSON snapshot => store.Idle ∧ (WorkflowAdapter.fromJSON registry snapshot).2 = none ∧
      (WorkflowAdapter.fromJSON registry snapshot).1 ≈ store.adapter
  | .clear => store.Idle ∧ WorkflowAdapter.empty ≈ store.adapter
  | .adapterAddNode type _ | .adapterAddNodeWithId type _ _ _ =>
      store.Idle ∧ registry type = none
  | .adapterRemoveNode nodeId => store.Idle ∧ store.adapter.editor.nodes.get? nodeId = none
  | .adapterAddConnection source sourceHandle target targetHandle => store.Idle ∧
      store.adapter.editor.canConnect registry source sourceHandle target targetHandle = false
  | .adapterRemoveConnection connectionId => store.Idle ∧
      ∀ conn ∈ store.adapter.editor.connections, conn.id ≠ connectionId

/-- Nothing is edited between the acceptance of a snapshot and its reply, a
snapshot is accepted while the store still is as it was sent, and a reply is
only lost when there is nothing to undo. -/
def SaveStep.Followed (registry : Registry) (session : SaveSession) : SaveStep → Prop
  | .edit operation => session.accepted = [] ∧ operation.Followed registry session.store
  | .saveWorkflow | .refuse _ | .reply _ => True
  | .accept index _ => ∀ sender, session.requested[index]? = some sender →
      session.store.Idle ∧ session.store.history.batched = [] ∧
        sender.adapter ≈ session.store.adapter ∧ sender.pinData = session.store.pinData ∧
        sender.workflowMetadata = session.store.workflowMetadata
  | .lose _ => session.store.history.undoStack = []

/-!
## The invariant
-/

/-- What holds of the store whatever the backend has stored. -/
structure Store.Kept (registry : Registry) (store : Store) : Prop where
  previews : store.Previews
  mirrored : (store.covered registry).Mirrored registry

/-- Undoing the whole history leads back to the stored draft. -/
structure Store.Follows (registry : Registry) (store : Store) (stored : Draft) : Prop where
  rewinds : ∃ base : WorkflowAdapter,
    (sanitizeConnectorRequestSnapshot base.toJSON).SameUpToOrder stored.snapshot ∧
    Rewinds (Command.undo registry) NearFor base store.history.pending (store.covered registry)
  shown : store.history.undoStack = [] → store.adapter ≈ store.covered registry
  unbatched : store.history.undoStack = [] → store.history.batched = []
  metadata : ∀ key, store.buildFullSnapshot.metadata.get? key = stored.metadata.get? key

/-- The graph of the store is the stored one, whatever the history says. -/
structure Store.Agrees (store : Store) (stored : Draft) : Prop where
  idle : store.Idle
  graph : (sanitizeConnectorRequestSnapshot store.adapter.toJSON).SameUpToOrder stored.snapshot
  unbatched : store.history.batched = []
  metadata : ∀ key, store.buildFullSnapshot.metadata.get? key = stored.metadata.get? key

structure SaveSession.Sound (registry : Registry) (session : SaveSession) : Prop where
  kept : session.store.Kept registry
  follows : session.accepted = [] → ∀ stored, session.stored = some stored →
    session.store.Follows registry stored
  agrees : session.accepted ≠ [] → ∃ stored, session.stored = some stored ∧
    session.store.Agrees stored

theorem sanitized_sameUpToOrder {left right : Snapshot} (same : left.SameUpToOrder right) :
    (sanitizeConnectorRequestSnapshot left).SameUpToOrder (sanitizeConnectorRequestSnapshot right)
    where
  nodes := same.nodes.map _
  connections := same.connections

theorem Snapshot.SameUpToOrder.trans {first second third : Snapshot}
    (left : first.SameUpToOrder second) (right : second.SameUpToOrder third) :
    first.SameUpToOrder third :=
  ⟨left.nodes.trans right.nodes, left.connections.trans right.connections⟩

theorem sent_sameUpToOrder {left right : WorkflowAdapter} (same : left ≈ right) :
    (sanitizeConnectorRequestSnapshot left.toJSON).SameUpToOrder
      (sanitizeConnectorRequestSnapshot right.toJSON) :=
  sanitized_sameUpToOrder (WorkflowEditor.Same.toJSON same)

section Follows

variable {store : Store} {stored : Draft}

/-- With nothing to undo, the store holds the stored draft. -/
theorem Store.Follows.agreeing (follows : store.Follows registry stored)
    (empty : store.history.undoStack = []) :
    store.buildFullSnapshot.SameUpToOrder stored := by
  obtain ⟨base, based, rewinds⟩ := follows.rewinds
  rw [HistoryManager.pending_eq_nil empty (follows.unbatched empty)] at rewinds
  cases rewinds with
  | start near =>
      have graph : store.adapter ≈ base := (follows.shown empty).trans near.same
      have same := (sent_sameUpToOrder graph).trans based
      exact ⟨same.nodes, same.connections, follows.metadata⟩

theorem Store.Agrees.follows (agrees : store.Agrees stored)
    (empty : store.history.undoStack = []) : store.Follows registry stored where
  rewinds := by
    refine ⟨store.adapter, agrees.graph, ?_⟩
    rw [HistoryManager.pending_eq_nil empty agrees.unbatched, Store.covered_of_idle agrees.idle]
    exact .start (.of_same (.refl _))
  shown _ := by rw [Store.covered_of_idle agrees.idle]
  unbatched _ := agrees.unbatched
  metadata := agrees.metadata

theorem WorkflowAdapter.Mirrored.invariant (registry : Registry) :
    AdapterInvariant registry fun adapter => adapter.Mirrored registry where
  addNode _ _ _ mirrored := ⟨mirrored.formed.addNode _ _, mirrored.addNode_shown _ _⟩
  addNodeWithId _ _ _ _ _ mirrored :=
    ⟨mirrored.formed.addNodeWithId _ _ _ _, mirrored.addNodeWithId_shown _ _ _ _⟩
  removeNode _ _ mirrored := ⟨mirrored.formed.removeNode _, mirrored.found_shown _ _⟩
  updatePosition _ _ _ mirrored := ⟨mirrored.formed.updatePosition _ _,
    mirrored.formed.mirror_updatePosition mirrored.shown _ _⟩
  configure _ _ _ mirrored := ⟨mirrored.formed.configure _ _,
    mirrored.formed.mirror_configure mirrored.shown _ _⟩
  setNodeMeta _ _ _ mirrored := ⟨mirrored.formed.setNodeMeta _ _, mirrored.found_shown _ _⟩
  setNodeLabel _ _ _ mirrored := ⟨mirrored.formed.setNodeLabel _ _, mirrored.found_shown _ _⟩
  setControlValue _ _ _ _ mirrored := ⟨mirrored.formed.setControlValue _ _ _,
    mirrored.formed.mirror_setControlValue mirrored.shown _ _ _⟩
  addConnection _ _ _ _ _ mirrored :=
    ⟨mirrored.formed.addConnection _ _ _ _, mirrored.addConnection_shown _ _ _ _⟩
  removeConnection _ _ mirrored :=
    ⟨mirrored.formed.removeConnection _, mirrored.removeConnection_shown _⟩

/-- The graph changes in nothing but what undoing the history discards. -/
theorem Store.Follows.edited (follows : store.Follows registry stored) (idle : store.Idle)
    {after : WorkflowAdapter} (near : NearFor store.history.pending after store.adapter) :
    ({ store with adapter := after } : Store).Follows registry stored := by
  have idleAfter : ({ store with adapter := after } : Store).Idle := idle
  refine ⟨?_, fun _ => ?_, follows.unbatched, follows.metadata⟩
  · obtain ⟨base, based, rewinds⟩ := follows.rewinds
    rw [Store.covered_of_idle idle] at rewinds
    refine ⟨base, based, ?_⟩
    rw [Store.covered_of_idle idleAfter]
    exact rewinds.relocate (undo_nearness registry) near
  · rw [Store.covered_of_idle idleAfter]

/-- Commands are recorded that lead back to the graph before them. -/
theorem Store.Follows.recorded (follows : store.Follows registry stored) (commands : List Command)
    (records : store.Records commands.length) {after : WorkflowAdapter}
    (performed : ∀ base, Rewinds (Command.undo registry) NearFor base store.history.pending
      store.adapter → Rewinds (Command.undo registry) NearFor base
        (commands.reverse ++ store.history.pending) after) :
    ({ store with
      adapter := after
      history := commands.foldl HistoryManager.push store.history } : Store).Follows registry
      stored := by
  obtain ⟨idle, room, visible⟩ := records
  have idleAfter : ({ store with
      adapter := after
      history := commands.foldl HistoryManager.push store.history } : Store).Idle := idle
  refine ⟨?_, fun _ => ?_, fun empty => ?_, follows.metadata⟩
  · obtain ⟨base, based, rewinds⟩ := follows.rewinds
    rw [Store.covered_of_idle idle] at rewinds
    refine ⟨base, based, ?_⟩
    rw [Store.covered_of_idle idleAfter, HistoryManager.pending_pushAll room]
    exact performed base rewinds
  · rw [Store.covered_of_idle idleAfter]
  · dsimp only at empty ⊢
    cases opened : store.history.currentBatch with
    | some batch =>
        rw [HistoryManager.pushAll_batch commands batch _ opened] at empty
        exact absurd empty (visible (by rw [opened]; exact Option.some_ne_none _))
    | none =>
        simp only [HistoryManager.batched, HistoryManager.pushAll_closed commands opened,
          Option.getD_none]

end Follows

/-!
## Metadata and loads
-/

section Drafts

variable {store : Store}

theorem Store.metadata_get? (store : Store) (key : String) :
    store.buildFullSnapshot.metadata.get? key =
      if key = "pin_data" then
        if store.pinData.entries = [] then none
        else some (WorkflowEditor.objectOf store.pinData)
      else if key = "pinData" then none
      else store.workflowMetadata.get? key := by
  simp only [Store.buildFullSnapshot]
  by_cases unpinned : store.pinData.entries = []
  · rw [if_pos unpinned, if_pos unpinned, OrderedMap.get?_erase, OrderedMap.get?_erase]
  · rw [if_neg unpinned, if_neg unpinned, OrderedMap.get?_set, OrderedMap.get?_erase]

/-- Only the other keys of the metadata and the pins count. -/
theorem Store.metadata_congr {after : Store} (pins : after.pinData = store.pinData)
    (others : ∀ key, key ≠ "pin_data" → key ≠ "pinData" →
      after.workflowMetadata.get? key = store.workflowMetadata.get? key) (key : String) :
    after.buildFullSnapshot.metadata.get? key = store.buildFullSnapshot.metadata.get? key := by
  rw [Store.metadata_get?, Store.metadata_get?, pins]
  by_cases current : key = "pin_data"
  · rw [if_pos current, if_pos current]
  · rw [if_neg current, if_neg current]
    by_cases old : key = "pinData"
    · rw [if_pos old, if_pos old]
    · rw [if_neg old, if_neg old, others key current old]

theorem spreadEntries_objectOf (config : Config) :
    WorkflowEditor.spreadEntries (WorkflowEditor.objectOf config) = config.entries := by
  simp only [WorkflowEditor.objectOf, WorkflowEditor.spreadEntries, List.filterMap_map]
  exact List.filterMap_some

theorem ofList_entries (config : Config) : OrderedMap.ofList config.entries = config := by
  have merged : OrderedMap.empty.merge config = config :=
    OrderedMap.merge_eq_right List.nil_prefix
  exact merged

namespace Draft.Written

variable {draft : Draft} (written : draft.Written registry)

include written

theorem loadable : draft.snapshot.Loadable registry := by
  intro data member
  obtain ⟨node, loaded, _⟩ := written.nodes data member
  exact (Node.fromJSON_ok loaded).2.2

theorem snapshot : sanitizeConnectorRequestSnapshot
    (WorkflowAdapter.fromJSON registry draft.snapshot).1.toJSON = draft.snapshot := by
  have placed := written.loadable.nodes written.distinct
  have connections := written.loadable.connections
  have sentNodes : ((WorkflowEditor.fromJSON registry draft.snapshot).1.nodes.entries.map
      fun entry => entry.2.toJSON.sent) = draft.snapshot.nodes := by
    have each := written.nodes
    generalize (WorkflowEditor.fromJSON registry draft.snapshot).1.nodes.entries = entries at placed
    generalize draft.snapshot.nodes = nodes at placed each
    induction placed with
    | nil => rfl
    | cons loads _ ih =>
        obtain ⟨node, loaded, sent⟩ := each _ List.mem_cons_self
        rw [loads.2, Except.ok.injEq] at loaded
        rw [List.map_cons, loaded, sent,
          ih fun data member => each data (List.mem_cons_of_mem _ member)]
  have sentConnections : ((draft.snapshot.connections.map Connection.fromJSON).map
      Connection.toJSON) = draft.snapshot.connections := by
    rw [List.map_map]
    conv_rhs => rw [← List.map_id draft.snapshot.connections]
    exact List.map_congr_left written.connections
  simp only [sanitizeConnectorRequestSnapshot, WorkflowAdapter.toJSON, fromJSON_editor,
    WorkflowEditor.toJSON, OrderedMap.values, List.map_map]
  rw [connections]
  have eta : draft.snapshot = ⟨draft.snapshot.nodes, draft.snapshot.connections⟩ := rfl
  rw [eta, Snapshot.mk.injEq]
  exact ⟨sentNodes, sentConnections⟩

end Draft.Written

/-- After a load the store holds the loaded draft. -/
theorem Store.agrees_loadWorkflow {draft : Draft} (written : draft.Written registry)
    (idle : store.Idle) (unbatched : store.history.batched = []) (id : Nat)
    (versionHash : Option String) :
    (store.loadWorkflow registry id draft versionHash).Agrees draft := by
  have loaded : store.loadWorkflow registry id draft versionHash =
      { store with
        flags := { store.flags with executionViewActive := false }
        adapter := (WorkflowAdapter.fromJSON registry draft.snapshot).1
        versionHash := versionHash
        workflowId := some id
        workflowMetadata := draft.metadata
        pinData := Store.loadedPinData draft.metadata } := by
    have none := written.loadable.returns
    unfold Store.loadWorkflow
    cases result : WorkflowAdapter.fromJSON registry draft.snapshot with
    | mk adapter error =>
        rw [result] at none
        cases none
        rfl
  rw [loaded]
  refine ⟨idle, ?_, unbatched, fun key => ?_⟩
  · have same := written.snapshot
    dsimp only
    rw [same]
    exact ⟨.refl _, .refl _⟩
  · rw [Store.metadata_get?]
    dsimp only
    by_cases current : key = "pin_data"
    · rw [if_pos current, current, Store.loadedPinData, written.oldPins]
      rcases written.pins with unpinned | ⟨pins, some, pinned⟩
      · rw [unpinned]
        rfl
      · rw [pinned]
        have spread : OrderedMap.ofList (WorkflowEditor.spreadEntries
            (((Option.some (WorkflowEditor.objectOf pins)).getD .none).scriptOr
              ((none : Option Value).getD .none))) = pins := by
          change OrderedMap.ofList (WorkflowEditor.spreadEntries
            (WorkflowEditor.objectOf pins)) = pins
          rw [spreadEntries_objectOf, ofList_entries]
        rw [spread, if_neg some]
    · rw [if_neg current]
      by_cases old : key = "pinData"
      · rw [if_pos old, old, written.oldPins]
      · rw [if_neg old]

end Drafts

/-!
## One operation
-/

section Step

variable {store : Store} {operation : Operation}

theorem Operation.replaces_plain {holds : WorkflowAdapter → Prop}
    (unloaded : operation.loaded store = none) (uncleared : operation ≠ .clear) :
    operation.Replaces registry holds store := by
  refine ⟨fun snapshot loaded => ?_, fun same => absurd same uncleared⟩
  rw [unloaded] at loaded
  cases loaded

/-- An operation on a graph that no preview covers. -/
theorem Store.Kept.applied (kept : store.Kept registry) (idle : store.Idle)
    (plain : operation.isPreview = false)
    (replaces : operation.Replaces registry (·.Mirrored registry) store) :
    (operation.apply registry store).Kept registry := by
  have idleAfter := Operation.idle_apply registry operation idle plain
  have mirrored := kept.mirrored
  rw [Store.covered_of_idle idle] at mirrored
  refine ⟨.of_idle idleAfter, ?_⟩
  rw [Store.covered_of_idle idleAfter]
  exact (WorkflowAdapter.Mirrored.invariant registry).apply mirrored replaces

theorem Store.Kept.still (kept : store.Kept registry) {after : Store}
    (history : after.historyPreview = store.historyPreview)
    (execution : after.executionView = store.executionView)
    (adapter : after.adapter = store.adapter) : after.Kept registry := by
  obtain ⟨⟨one, historyOriginal, executionOriginal⟩, mirrored⟩ := kept
  refine ⟨⟨?_, ?_, ?_⟩, ?_⟩
  · rw [history, execution]; exact one
  · rw [history]; exact historyOriginal
  · rw [execution]; exact executionOriginal
  · rw [Store.covered_congr history execution adapter]; exact mirrored

theorem pinNodeData_adapter (store : Store) (nodeId : String) (pinValue : Store.PinValue) :
    (store.pinNodeData nodeId pinValue).adapter = store.adapter := by
  unfold Store.pinNodeData
  split <;> rfl

theorem saveWorkflow_adapter (store : Store) (answer : Option (Option String)) :
    (store.saveWorkflow answer).adapter = store.adapter := by
  unfold Store.saveWorkflow
  cases answer <;> rfl

theorem Store.Covers.kept {after : Store} {snapshot : Snapshot}
    (covers : store.Covers registry after snapshot) : after.Kept registry :=
  ⟨covers.previews, covers.mirrored⟩

theorem Store.Uncovers.kept {after : Store} (uncovers : store.Uncovers registry after)
    (kept : store.Kept registry) : after.Kept registry :=
  ⟨uncovers.previews, by rw [uncovers.covered]; exact kept.mirrored⟩

theorem Operation.Followed.kept (followed : operation.Followed registry store)
    (kept : store.Kept registry) : (operation.apply registry store).Kept registry := by
  cases operation with
  | startHistoryPreview revisionId snapshot =>
      exact (Store.startHistoryPreview_covers kept.previews kept.mirrored followed.1 _ _).kept
  | startExecutionView runId snapshot =>
      exact (Store.startExecutionView_covers kept.previews kept.mirrored followed.1 _ _).kept
  | endHistoryPreview restoreOriginal =>
      exact (Store.endHistoryPreview_uncovers kept.previews followed).1.kept kept
  | endExecutionView restoreOriginal =>
      exact (Store.endExecutionView_uncovers kept.previews followed).1.kept kept
  | pinNodeData nodeId pinValue =>
      have views := Operation.apply_views registry store (.pinNodeData nodeId pinValue) rfl
      exact kept.still views.1 views.2 (pinNodeData_adapter store nodeId pinValue)
  | unpinNodeData nodeId => exact kept.still rfl rfl rfl
  | beginBatch => exact kept.still rfl rfl rfl
  | endBatch description => exact kept.still rfl rfl rfl
  | saveWorkflow answer =>
      have views := Operation.apply_views registry store (.saveWorkflow answer) rfl
      exact kept.still views.1 views.2 (saveWorkflow_adapter store answer)
  | loadWorkflow id draft versionHash =>
      obtain ⟨idle, written, _⟩ := followed
      refine kept.applied idle rfl ⟨fun snapshot loaded => ?_, fun same => by cases same⟩
      cases loaded
      exact ⟨.fromJSON registry _, WorkflowAdapter.Mirrored.fromJSON_shown written.loadable.returns⟩
  | fromJSON snapshot =>
      obtain ⟨idle, loads, _⟩ := followed
      refine kept.applied idle rfl ⟨fun snapshot loaded => ?_, fun same => by cases same⟩
      cases loaded
      exact ⟨.fromJSON registry _, WorkflowAdapter.Mirrored.fromJSON_shown loads⟩
  | clear =>
      refine kept.applied followed.1 rfl ⟨fun snapshot loaded => ?_, fun _ => .empty⟩
      cases loaded
  | perform action =>
      exact kept.applied followed.1.1 rfl (Operation.replaces_plain rfl fun same => by cases same)
  | recordMoveNodes nodeMoves =>
      exact kept.applied followed.1.1 rfl (Operation.replaces_plain rfl fun same => by cases same)
  | _ =>
      exact kept.applied followed.1 rfl (Operation.replaces_plain rfl fun same => by cases same)

section Follows

variable {stored : Draft} (follows : store.Follows registry stored)

include follows

theorem Store.Follows.still {after : Store} (covered : after.covered registry =
      store.covered registry) (shown : after.adapter = store.adapter ∨
      after.adapter = store.covered registry)
    (pending : after.history.pending = store.history.pending)
    (stack : after.history.undoStack = [] → store.history.undoStack = [] ∧
      after.history.batched = [])
    (metadata : ∀ key, after.buildFullSnapshot.metadata.get? key =
      store.buildFullSnapshot.metadata.get? key) :
    after.Follows registry stored := by
  refine ⟨?_, fun empty => ?_, fun empty => (stack empty).2, fun key => ?_⟩
  · rw [pending, covered]
    exact follows.rewinds
  · rw [covered]
    rcases shown with same | back
    · rw [same]
      exact follows.shown (stack empty).1
    · rw [back]
  · rw [metadata, follows.metadata]

theorem Store.Follows.covers {after : Store} {snapshot : Snapshot}
    (covers : store.Covers registry after snapshot)
    (shows : store.history.undoStack = [] →
      (WorkflowAdapter.fromJSON registry snapshot).1 ≈ store.covered registry) :
    after.Follows registry stored := by
  obtain ⟨base, based, rewinds⟩ := follows.rewinds
  refine ⟨⟨base, based, ?_⟩, fun empty => ?_, fun empty => ?_, fun key => ?_⟩
  · rw [covers.history]
    exact rewinds.relocate (undo_nearness registry) (.of_same covers.covered)
  · rw [covers.history] at empty
    rw [covers.shown]
    exact (shows empty).trans covers.covered.symm
  · rw [covers.history] at empty ⊢
    exact follows.unbatched empty
  · rw [covers.draft, follows.metadata]

theorem Store.Follows.uncovers {after : Store} (uncovers : store.Uncovers registry after) :
    after.Follows registry stored := by
  refine follows.still uncovers.covered uncovers.shown.symm (by rw [uncovers.history])
    (fun empty => ?_) fun key => by rw [uncovers.draft]
  rw [uncovers.history] at empty ⊢
  exact ⟨empty, follows.unbatched empty⟩

theorem Store.Follows.performed {action : RecordedAction} (kept : store.Kept registry)
    (followed : (Operation.perform action).Followed registry store) :
    (store.perform registry action).Follows registry stored := by
  obtain ⟨records, undoable, unpinned⟩ := followed
  have mirrored := kept.mirrored
  rw [Store.covered_of_idle records.1] at mirrored
  have recorded := follows.recorded _ records fun base rewinds =>
    rewinds.performed (undo_nearness registry) (run_taken mirrored undoable)
  have pins : (store.perform registry action).pinData = store.pinData := by
    unfold Store.perform
    cases action with
    | removeNode nodeId =>
        dsimp only
        split
        · exact OrderedMap.erase_eq_self (unpinned nodeId rfl)
        · rfl
    | _ => rfl
  have same : store.perform registry action = { store with
      adapter := (action.run registry store.adapter).1
      history := (action.run registry store.adapter).2.foldl HistoryManager.push store.history } := by
    conv_rhs => rw [← pins]
    rfl
  rw [same]
  exact recorded

theorem Store.Follows.pinned {nodeId : String} {pinValue : Store.PinValue}
    (followed : (Operation.pinNodeData nodeId pinValue).Followed registry store) :
    (store.pinNodeData nodeId pinValue).Follows registry stored := by
  unfold Store.pinNodeData
  by_cases unnamed : nodeId = ""
  · rw [if_pos unnamed]
    exact follows
  · rw [if_neg unnamed]
    have present : store.pinData.get? nodeId = some pinValue.stored := by
      rcases followed with empty | same
      · exact absurd empty unnamed
      · exact same
    refine follows.still rfl (.inl rfl) rfl (fun empty => ⟨empty, follows.unbatched empty⟩)
      (Store.metadata_congr (OrderedMap.set_eq_self present) fun key current _ => ?_)
    exact OrderedMap.get?_set_of_ne _ _ current

theorem Store.Follows.unpinned {nodeId : String}
    (followed : (Operation.unpinNodeData nodeId).Followed registry store) :
    (store.unpinNodeData nodeId).Follows registry stored := by
  refine follows.still rfl (.inl rfl) rfl (fun empty => ⟨empty, follows.unbatched empty⟩)
    (Store.metadata_congr (OrderedMap.erase_eq_self followed) fun key current old => ?_)
  simp only [Store.unpinNodeData]
  rw [OrderedMap.get?_erase, if_neg old]
  split
  · rw [OrderedMap.get?_erase, if_neg current]
  · rw [OrderedMap.get?_set_of_ne _ _ current]

theorem Store.Follows.undone (followed : Operation.undo.Followed registry store) :
    (store.undo registry).Follows registry stored := by
  obtain ⟨idle, unbatched⟩ := followed
  have idleAfter : (store.undo registry).Idle :=
    Operation.idle_apply registry .undo idle rfl
  cases stack : store.history.undoStack with
  | nil =>
      have nothing : store.undo registry = store := by simp only [Store.undo, stack]
      rw [nothing]
      exact follows
  | cons entry rest =>
      obtain ⟨base, based, rewinds⟩ := follows.rewinds
      have step : store.undo registry = { store with
          adapter := undoAll (Command.undo registry) entry.commands store.adapter
          history := { store.history with
            undoStack := rest
            redoStack := entry :: store.history.redoStack } } := by
        simp only [Store.undo, stack]
      have before : store.history.pending = entry.commands.reverse ++
          (store.undo registry).history.pending := by
        rw [step]
        simp only [HistoryManager.pending, unbatched, stack, List.flatMap_cons]
        have empty : HistoryManager.batched { store.history with
            undoStack := rest
            redoStack := entry :: store.history.redoStack } = [] := unbatched
        rw [empty]
        rfl
      refine ⟨⟨base, based, ?_⟩, fun _ => ?_, fun _ => ?_, ?_⟩
      · rw [Store.covered_of_idle idle, before] at rewinds
        rw [Store.covered_of_idle idleAfter, Store.undo_adapter stack]
        exact rewinds.undone (undo_nearness registry)
      · rw [Store.covered_of_idle idleAfter]
      · rw [step]
        exact unbatched
      · rw [step]
        exact follows.metadata

theorem Store.Follows.redone (kept : store.Kept registry)
    (followed : Operation.redo.Followed registry store) :
    (store.redo registry).Follows registry stored := by
  obtain ⟨idle, unbatched, retraceable⟩ := followed
  have idleAfter : (store.redo registry).Idle :=
    Operation.idle_apply registry .redo idle rfl
  have mirrored := kept.mirrored
  rw [Store.covered_of_idle idle] at mirrored
  cases stack : store.history.redoStack with
  | nil =>
      have nothing : store.redo registry = store := by simp only [Store.redo, stack]
      rw [nothing]
      exact follows
  | cons entry rest =>
      obtain ⟨base, based, rewinds⟩ := follows.rewinds
      have step : store.redo registry = { store with
          adapter := redoAll (Command.redo registry) entry.commands store.adapter
          history := { store.history with
            undoStack := entry :: store.history.undoStack
            redoStack := rest } } := by
        simp only [Store.redo, stack]
      have after : (store.redo registry).history.pending =
          entry.commands.reverse ++ store.history.pending := by
        rw [step]
        have empty : HistoryManager.batched { store.history with
            undoStack := entry :: store.history.undoStack
            redoStack := rest } = [] := unbatched
        simp only [HistoryManager.pending, unbatched, empty, List.flatMap_cons]
        rfl
      refine ⟨⟨base, based, ?_⟩, fun _ => ?_, fun _ => ?_, ?_⟩
      · rw [Store.covered_of_idle idle] at rewinds
        rw [Store.covered_of_idle idleAfter, after, step]
        exact rewinds.performed (undo_nearness registry)
          ((retraceable entry rest stack).performed mirrored.formed)
      · rw [Store.covered_of_idle idleAfter]
      · rw [step]
        exact unbatched
      · rw [step]
        exact follows.metadata

end Follows

/-- What the backend stores after a save is what the store holds. -/
theorem Store.agrees_built (idle : store.Idle) (unbatched : store.history.batched = []) :
    store.Agrees store.buildFullSnapshot :=
  ⟨idle, ⟨.refl _, .refl _⟩, unbatched, fun _ => rfl⟩

theorem Store.Agrees.saved {stored : Draft} (agrees : store.Agrees stored)
    (versionHash : Option String) : (store.saveReplied versionHash).Agrees stored :=
  ⟨agrees.idle, agrees.graph, agrees.unbatched, agrees.metadata⟩

theorem Operation.Followed.follows (followed : operation.Followed registry store)
    (kept : store.Kept registry) {before : Option Draft}
    (follows : ∀ stored, before = some stored → store.Follows registry stored) {stored : Draft}
    (now : operation.stores store before = some stored) :
    (operation.apply registry store).Follows registry stored := by
  cases operation with
  | loadWorkflow id draft versionHash =>
      obtain ⟨idle, written, empty, unbatched⟩ := followed
      cases now
      have agrees := store.agrees_loadWorkflow written idle unbatched id versionHash
      refine agrees.follows ?_
      simp only [Store.loadWorkflow]
      split <;> exact empty
  | saveWorkflow answer =>
      cases answer with
      | none =>
          exact (follows stored now).still rfl (.inl rfl) rfl
            (fun empty => ⟨empty, (follows stored now).unbatched empty⟩) fun _ => rfl
      | some versionHash =>
          rcases followed with none | ⟨idle, unbatched⟩
          · cases none
          · cases now
            have agrees := (Store.agrees_built idle unbatched).saved versionHash
            exact (agrees.follows rfl).still rfl (.inl rfl) rfl
              (fun _ => ⟨rfl, unbatched⟩) fun _ => rfl
  | perform action => exact (follows stored now).performed kept followed
  | undo => exact (follows stored now).undone followed
  | redo => exact (follows stored now).redone kept followed
  | recordMoveNodes nodeMoves =>
      simp only [Operation.apply]
      split
      · exact follows stored now
      · refine (follows stored now).recorded [.moveNodes nodeMoves] followed.1
          fun base rewinds => .push rewinds fun reached near => ?_
        exact moves_near (fun move member => (followed.2 move member).2) near
  | moveNodesTransient updates =>
      exact (follows stored now).edited followed.1 (collectMoves_near
        (fun update member => (followed.2 update member).2) (.of_same (.refl _)))
  | setNodeConfig nodeId config =>
      have changed : Changed nodeId (fun node => node.configured config) store.adapter
          (store.adapter.configure nodeId config).1 := .of_modifyNode (WorkflowAdapter.configure_editor config)
      exact (follows stored now).edited followed.1
        (changed.near (fun node => node.configured_type config) followed.2)
  | setNodeMeta nodeId metaPatch =>
      exact (follows stored now).edited followed.1 (Changed.of_found.near (fun _ => rfl) followed.2)
  | renameNode nodeId label =>
      exact (follows stored now).edited followed.1 (Changed.of_found.near (fun _ => rfl) followed.2)
  | setControlValue nodeId controlKey value =>
      have changed : Changed nodeId (fun node : Node => { node with
          controls := if (node.controls.get? controlKey).isSome then
            node.controls.set controlKey value else node.controls }) store.adapter
          (store.adapter.setControlValue nodeId controlKey value) := .of_modifyNode rfl
      exact (follows stored now).edited followed.1 (changed.near (fun _ => rfl) followed.2)
  | updatePosition nodeId position =>
      exact (follows stored now).edited followed.1
        ((Changed.of_updatePosition nodeId position _).near (fun _ => rfl) followed.2)
  | adapterAddNode type position =>
      refine (follows stored now).edited followed.1 (.of_same ?_)
      simp only [WorkflowAdapter.addNode, followed.2]
      exact .refl _
  | adapterAddNodeWithId type position forcedId config =>
      simp only [Operation.apply, followed.2, Option.any_none, Bool.false_eq_true, ↓reduceIte]
      refine (follows stored now).edited followed.1 (.of_same ?_)
      simp only [WorkflowAdapter.addNodeWithId, followed.2]
      exact .refl _
  | adapterRemoveNode nodeId =>
      refine (follows stored now).edited followed.1 (.of_same ?_)
      simp only [WorkflowAdapter.removeNode, followed.2]
      exact .refl _
  | adapterAddConnection source sourceHandle target targetHandle =>
      refine (follows stored now).edited followed.1 (.of_same ?_)
      rw [addConnection_of_rejected followed.2]
      exact .refl _
  | adapterRemoveConnection connectionId =>
      refine (follows stored now).edited followed.1 (.of_same ?_)
      rw [removeConnection_of_absent followed.2]
      exact .refl _
  | clear => exact (follows stored now).edited followed.1 (.of_same followed.2)
  | fromJSON snapshot => exact (follows stored now).edited followed.1 (.of_same followed.2.2)
  | beginBatch =>
      have empty : store.history.startBatch.batched = store.history.batched := followed.symm
      refine (follows stored now).still rfl (.inl rfl) ?_ (fun none => ⟨none, rfl⟩) fun _ => rfl
      simp only [Operation.apply, HistoryManager.pending, empty]
      rfl
  | endBatch description =>
      refine (follows stored now).still rfl (.inl rfl)
        (HistoryManager.pending_commitBatch followed) (fun empty => ?_) fun _ => rfl
      exact HistoryManager.commitBatch_empty empty
  | pinNodeData nodeId pinValue => exact (follows stored now).pinned followed
  | unpinNodeData nodeId => exact (follows stored now).unpinned followed
  | startHistoryPreview revisionId snapshot =>
      exact (follows stored now).covers
        (Store.startHistoryPreview_covers kept.previews kept.mirrored followed.1 _ _) followed.2
  | startExecutionView runId snapshot =>
      exact (follows stored now).covers
        (Store.startExecutionView_covers kept.previews kept.mirrored followed.1 _ _) followed.2
  | endHistoryPreview restoreOriginal =>
      exact (follows stored now).uncovers
        (Store.endHistoryPreview_uncovers kept.previews followed).1
  | endExecutionView restoreOriginal =>
      exact (follows stored now).uncovers
        (Store.endExecutionView_uncovers kept.previews followed).1

end Step

/-!
## Sessions
-/

theorem SaveSession.Sound.step {session : SaveSession} {step : SaveStep}
    (sound : session.Sound registry) (followed : step.Followed registry session) :
    (session.step registry step).Sound registry := by
  cases step with
  | edit operation =>
      obtain ⟨idle, tracked⟩ := followed
      exact ⟨tracked.kept sound.kept,
        fun _ stored now => tracked.follows sound.kept (sound.follows idle) now,
        fun busy => absurd idle busy⟩
  | saveWorkflow =>
      refine ⟨sound.kept.still rfl rfl rfl, fun none stored now => ?_, fun busy => ?_⟩
      · have follows := sound.follows none stored now
        exact follows.still rfl (.inl rfl) rfl (fun empty => ⟨empty, follows.unbatched empty⟩)
          fun _ => rfl
      · obtain ⟨stored, now, agrees⟩ := sound.agrees busy
        exact ⟨stored, now, agrees.idle, agrees.graph, agrees.unbatched, agrees.metadata⟩
  | accept index versionHash =>
      simp only [SaveSession.step]
      cases found : session.requested[index]? with
      | none => exact sound
      | some sender =>
          obtain ⟨idle, unbatched, same, pins, metadata⟩ := followed sender found
          refine ⟨sound.kept, fun none => ?_, fun _ => ⟨_, rfl, idle, ?_, unbatched, ?_⟩⟩
          · exact absurd none (List.append_ne_nil_of_right_ne_nil _ (List.cons_ne_nil _ _))
          · exact sent_sameUpToOrder (Setoid.symm same)
          · exact fun key => (Store.metadata_congr pins (fun _ _ _ => by rw [metadata]) key).symm
  | refuse index => exact ⟨sound.kept, sound.follows, sound.agrees⟩
  | reply index =>
      simp only [SaveSession.step]
      cases found : session.accepted[index]? with
      | none => exact sound
      | some versionHash =>
          have busy : session.accepted ≠ [] := by
            intro none
            rw [none] at found
            cases found
          obtain ⟨stored, now, agrees⟩ := sound.agrees busy
          refine ⟨sound.kept.still rfl rfl rfl, fun _ other given => ?_, fun _ => ?_⟩
          · cases now.symm.trans given
            exact (agrees.saved versionHash).follows rfl
          · exact ⟨stored, now, agrees.saved versionHash⟩
  | lose index =>
      refine ⟨sound.kept, fun none stored now => ?_, fun busy => ?_⟩
      · by_cases idle : session.accepted = []
        · exact sound.follows idle stored now
        · obtain ⟨other, given, agrees⟩ := sound.agrees idle
          cases given.symm.trans now
          exact agrees.follows followed
      · refine sound.agrees fun none => busy ?_
        change session.accepted.eraseIdx index = []
        rw [none]
        rfl

theorem SaveSession.initial_sound (registry : Registry) :
    SaveSession.initial.Sound registry where
  kept := ⟨.of_idle ⟨rfl, rfl⟩, .empty⟩
  follows _ _ now := by cases now
  agrees busy := absurd rfl busy

/-- In every run of edits and saves that the history can follow, whenever there
is nothing to undo the store would send the draft most recently loaded from or
accepted by the backend. -/
theorem unsavedChanges_sound (registry : Registry) (steps : List SaveStep)
    (followed : Meets (SaveSession.step registry) (fun session step =>
      step.Followed registry session) SaveSession.initial steps)
    (before : List SaveStep) (leading : before <+: steps) (stored : Draft)
    (now : (run (SaveSession.step registry) SaveSession.initial before).stored = some stored)
    (clean : (run (SaveSession.step registry) SaveSession.initial
      before).store.hasUnsavedChanges = false) :
    (run (SaveSession.step registry) SaveSession.initial
      before).store.buildFullSnapshot.SameUpToOrder stored := by
  have sound := guarded_invariant (fun session : SaveSession => session.Sound registry)
    (fun _ _ sound followed => sound.step followed) (SaveSession.initial_sound registry)
    (followed.leading leading)
  have empty : (run (SaveSession.step registry) SaveSession.initial
      before).store.history.undoStack = [] := by
    simpa [Store.hasUnsavedChanges, HistoryManager.canUndo] using clean
  by_cases idle : (run (SaveSession.step registry) SaveSession.initial before).accepted = []
  · exact (sound.follows idle stored now).agreeing empty
  · obtain ⟨other, given, agrees⟩ := sound.agrees idle
    cases given.symm.trans now
    exact ⟨agrees.graph.nodes, agrees.graph.connections, agrees.metadata⟩

theorem oneNode_written : oneNode.Written noopRegistry where
  nodes := by
    intro data member
    cases List.mem_singleton.mp member
    exact ⟨_, rfl, by decide⟩
  distinct := by decide
  connections _ member := absurd member List.not_mem_nil
  oldPins := rfl
  pins := .inl rfl

/-- A node is added, renamed and taken back. -/
def takenBack : List SaveStep := [
  .edit (.loadWorkflow 1 oneNode (some "a")),
  .edit (.perform (.addNode "noop" ⟨200, 0⟩)),
  .edit (.renameNode "n_2" "Approve"),
  .edit .undo]

theorem unsavedChanges_sound_takenBack :
    (run (SaveSession.step noopRegistry) SaveSession.initial
      takenBack).store.hasUnsavedChanges = false ∧
    (run (SaveSession.step noopRegistry) SaveSession.initial
      takenBack).store.buildFullSnapshot.SameUpToOrder oneNode := by
  refine ⟨rfl, unsavedChanges_sound noopRegistry takenBack ?_ takenBack List.prefix_rfl oneNode rfl
    rfl⟩
  refine ⟨⟨rfl, ⟨rfl, rfl⟩, oneNode_written, rfl, rfl⟩, ⟨rfl, ?_, ?_, ?_⟩, ⟨rfl, ⟨rfl, rfl⟩, ?_⟩,
    ⟨rfl, ⟨rfl, rfl⟩, rfl⟩, trivial⟩
  · exact ⟨⟨rfl, rfl⟩, fun _ => by decide, fun opened => absurd rfl opened⟩
  · exact ⟨⟨by decide, fun _ member => absurd member List.not_mem_nil⟩,
      fun loop => absurd loop (by decide)⟩
  · intro nodeId removed
    cases removed
  · exact .inl (by unfold Store.Discards; decide)

/-- A label is edited without a trace in the history. -/
def relabelled : List SaveStep := [
  .edit (.loadWorkflow 1 oneNode (some "a")),
  .edit (.renameNode "n_1" "Approve")]

/-- A node is added while a save is in flight, whose reply clears the history. -/
def addedInFlight : List SaveStep := [
  .edit (.loadWorkflow 1 oneNode (some "a")),
  .saveWorkflow,
  .edit (.perform (.addNode "noop" ⟨200, 0⟩)),
  .accept 0 (some "b"),
  .reply 0]

/-- The steps end without a sign of unsaved changes, on a snapshot that is not the stored one. -/
def EndsUnnoticed (steps : List SaveStep) : Prop :=
  ∃ stored,
    (run (SaveSession.step noopRegistry) SaveSession.initial steps).stored = some stored ∧
    (run (SaveSession.step noopRegistry) SaveSession.initial
      steps).store.hasUnsavedChanges = false ∧
    ¬ (run (SaveSession.step noopRegistry) SaveSession.initial
      steps).store.buildFullSnapshot.SameUpToOrder stored

theorem unsavedChanges_missed : EndsUnnoticed relabelled ∧ EndsUnnoticed addedInFlight := by
  constructor
  · refine ⟨oneNode, rfl, rfl, fun same => ?_⟩
    have labels : [some "Approve"].Perm [some "No Operation"] := same.nodes.map NodeData.label
    exact absurd (List.perm_singleton.mp labels) (by decide)
  · refine ⟨_, rfl, rfl, fun same => ?_⟩
    have lengths : 2 = 1 := same.nodes.length_eq
    exact absurd lengths (by decide)

end WorkflowStudio.Editor
