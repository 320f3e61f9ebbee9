import WorkflowStudio.Editor.PastingProperties

/-! Copy and paste makes a copy of the selected part of the graph when that part
is one that the recorded actions rebuild: paste applies no title, a loop node
brings a placeholder with it, and a connection is only made where
`addConnection` would make it. -/

set_option autoImplicit false

namespace WorkflowStudio.Editor

open Lib Reversal

/-!
## Copies
-/

/-- The connections between the selected nodes. -/
def Store.connectionsBetween (store : Store) (nodeIds : List String) : List UiConnection :=
  store.adapter.ui.connections.filter fun conn =>
    ((store.selectedNodes nodeIds).map UiNode.id).contains conn.source &&
      ((store.selectedNodes nodeIds).map UiNode.id).contains conn.target

/-- The end points of a connection between the copies of its nodes. -/
def UiConnection.renamed (idOf : String → String) (conn : UiConnection) : Endpoints where
  source := idOf conn.source
  sourceHandle := conn.sourceHandle
  target := idOf conn.target
  targetHandle := conn.targetHandle

structure Node.CopyOf (copy node : Node) : Prop where
  type : copy.type = node.type
  config : copy.getConfig = node.getConfig
  label : copy.label = node.label
  position : copy.position = pastePosition node.position

/-- One new node for each selected node and one new connection for each
connection between selected nodes, under a renaming, and nothing else; and one
undo restores the graph. -/
structure Store.CopiedTo (registry : Registry) (store after : Store) (nodeIds : List String)
    (idOf : String → String) : Prop where
  distinct : ((store.selectedNodes nodeIds).map fun node => idOf node.id).Nodup
  copies : ∀ shown ∈ store.selectedNodes nodeIds, ∃ node copy,
    store.adapter.editor.nodes.get? shown.id = some node ∧
    store.adapter.editor.nodes.get? (idOf shown.id) = none ∧
    after.adapter.editor.nodes.get? (idOf shown.id) = some copy ∧ copy.CopyOf node
  others : ∀ nodeId, (∀ shown ∈ store.selectedNodes nodeIds, nodeId ≠ idOf shown.id) →
    after.adapter.editor.nodes.get? nodeId = store.adapter.editor.nodes.get? nodeId
  connections : ∃ added : List Connection,
    after.adapter.editor.connections.Perm (store.adapter.editor.connections ++ added) ∧
    (added.map Connection.endpoints).Perm
      ((store.connectionsBetween nodeIds).map (UiConnection.renamed idOf))
  restored : (after.undo registry).adapter ≈ store.adapter

/-!
## What can be copied
-/

/-- The identifier that the pasted copy of a node gets, by its place in the
selection. -/
def Store.pastedId (store : Store) (nodeIds : List String) (nodeId : String) : String :=
  numberedId (store.adapter.editor.idCounter + 1 +
    ((store.selectedNodes nodeIds).map UiNode.id).idxOf nodeId)

/-- The selected part of the graph can be rebuilt by the recorded actions. -/
structure Store.Pasteable (registry : Registry) (store : Store) (nodeIds : List String) :
    Prop where
  alone : ∀ shown ∈ store.selectedNodes nodeIds, shown.type = "loop" → registry "noop" = none
  labelled : ∀ shown ∈ store.selectedNodes nodeIds, ∀ nodeClass,
    registry shown.type = some nodeClass → shown.title = nodeClass.label
  fresh : ∀ shown ∈ store.selectedNodes nodeIds,
    store.adapter.editor.FreshId (store.pastedId nodeIds shown.id)
  connectable : ∀ conn ∈ store.connectionsBetween nodeIds, conn.source ≠ conn.target ∧
    conn.source ≠ "__proto__" ∧ conn.target ≠ "__proto__" ∧
    ∃ source target, store.adapter.editor.nodes.get? conn.source = some source ∧
      store.adapter.editor.nodes.get? conn.target = some target ∧
      WorkflowEditor.socketsMatch registry source target conn.sourceHandle conn.targetHandle = true
  identified : ((store.connectionsBetween nodeIds).map fun conn =>
    (conn.renamed (store.pastedId nodeIds)).generateId).Nodup
  untaken : ∀ conn ∈ store.connectionsBetween nodeIds,
    ∀ other ∈ store.adapter.editor.connections,
      other.id ≠ (conn.renamed (store.pastedId nodeIds)).generateId

/-- No selected node has a hidden default at a key that every script object
inherits, at which `setConfig` throws. -/
def Store.Settable (registry : Registry) (store : Store) (nodeIds : List String) : Prop :=
  ∀ shown ∈ store.selectedNodes nodeIds, ∀ nodeClass, registry shown.type = some nodeClass →
    (nodeClass.new shown.type).setConfigThrows (store.adapter.getNodeConfig shown.id) = false

section Selection

variable {registry : Registry} {store : Store} {nodeIds : List String}

theorem selected_mirrored (formed : store.adapter.WellFormed registry)
    (selected : store.selectedNodes nodeIds ≠ []) :
    store.adapter.ui = store.adapter.editor.mirror := by
  rcases formed.mirrored with mirrored | blank
  · exact mirrored
  · refine absurd ?_ selected
    unfold Store.selectedNodes
    rw [blank]
    rfl

theorem mem_selected (formed : store.adapter.WellFormed registry) {shown : UiNode}
    (member : shown ∈ store.selectedNodes nodeIds) :
    ∃ node, store.adapter.editor.nodes.get? shown.id = some node ∧ shown = node.toUi ∧
      node.Shaped registry := by
  have mirrored := selected_mirrored formed (List.ne_nil_of_mem member)
  have listed := (List.mem_filter.mp member).1
  rw [mirrored] at listed
  obtain ⟨node, value, rfl⟩ := List.mem_map.mp listed
  obtain ⟨entry, stored, rfl⟩ := List.mem_map.mp value
  have present : store.adapter.editor.nodes.get? entry.1 = some entry.2 :=
    OrderedMap.get?_eq_some_iff.mpr stored
  obtain ⟨own, shaped⟩ := formed.shaped entry.1 entry.2 present
  refine ⟨entry.2, ?_, rfl, shaped⟩
  change store.adapter.editor.nodes.get? entry.2.id = _
  rw [own]
  exact present

theorem selected_nodup (formed : store.adapter.WellFormed registry)
    (nodeIds : List String) : ((store.selectedNodes nodeIds).map UiNode.id).Nodup := by
  by_cases selected : store.selectedNodes nodeIds = []
  · rw [selected]
    exact List.nodup_nil
  · have ids : store.adapter.ui.nodes.map UiNode.id = store.adapter.editor.nodes.keys := by
      rw [selected_mirrored formed selected]
      simp only [WorkflowEditor.mirror, OrderedMap.values, OrderedMap.keys, List.map_map]
      refine List.map_congr_left fun entry stored => ?_
      exact (formed.shaped entry.1 entry.2 (OrderedMap.get?_eq_some_iff.mpr stored)).1
    have distinct := store.adapter.editor.nodes.keys_nodup
    rw [← ids] at distinct
    exact distinct.sublist (List.filter_sublist.map UiNode.id)

theorem selected_at (formed : store.adapter.WellFormed registry) {shown : UiNode}
    (member : shown ∈ store.selectedNodes nodeIds) :
    (store.selectedNodes nodeIds)[((store.selectedNodes nodeIds).map UiNode.id).idxOf shown.id]? =
      some shown := by
  obtain ⟨index, inside, rfl⟩ := List.getElem_of_mem member
  have place := (selected_nodup formed nodeIds).idxOf_getElem index (by simpa using inside)
  rw [List.getElem_map] at place
  rw [place]
  exact List.getElem?_eq_getElem inside

theorem clipboard_ids :
    (store.clipboardData nodeIds).nodes.map CopiedNode.id =
      (store.selectedNodes nodeIds).map UiNode.id := by
  simp only [Store.clipboardData, List.map_map]
  rfl

theorem clipboard_buildable (formed : store.adapter.WellFormed registry)
    (settable : store.Settable registry nodeIds) :
    ∀ node ∈ (store.clipboardData nodeIds).nodes, node.Buildable registry := by
  intro node member
  obtain ⟨shown, chosen, rfl⟩ := List.mem_map.mp member
  obtain ⟨original, _, rfl, nodeClass, registered, _⟩ := mem_selected formed chosen
  exact ⟨nodeClass, registered, settable _ chosen nodeClass registered⟩

/-!
## What is pasted
-/

def Store.placing (registry : Registry) (store : Store) (nodeIds : List String) : Pasting :=
  (store.clipboardData nodeIds).nodes.foldl (Pasting.addNode registry) {
    store := { store with history := store.history.startBatch }
    idMap := OrderedMap.empty
    thrown := false }

/-- The end points that paste asks `addConnection` for. -/
def Store.pastedEnds (registry : Registry) (store : Store) (nodeIds : List String) :
    List Endpoints :=
  (store.clipboardData nodeIds).connections.filterMap
    (Pasting.endsOf (store.placing registry nodeIds).idMap)

def Store.drawing (registry : Registry) (store : Store) (nodeIds : List String) : Store :=
  (store.pastedEnds registry nodeIds).foldl (Store.connect registry)
    (store.placing registry nodeIds).store

/-- The pasted batch is one entry of the history. -/
theorem copyPaste_entry (clipboard : Clipboard) (writable : store.flags.readonly = false)
    (selected : store.selectedNodes nodeIds ≠ [])
    (running : (store.placing registry nodeIds).thrown = false) {commands : List Command}
    (batch : (store.drawing registry nodeIds).history.currentBatch = some commands)
    (some : commands ≠ []) :
    (store.copyPaste registry nodeIds clipboard).adapter =
        (store.drawing registry nodeIds).adapter ∧
      ((store.copyPaste registry nodeIds clipboard).undo registry).adapter =
        undoAll (Command.undo registry) commands (store.drawing registry nodeIds).adapter := by
  have chosen : nodeIds ≠ [] := by
    rintro rfl
    exact selected (List.filter_eq_nil_iff.mpr fun _ _ => by simp)
  have copied :
      store.copySelectedNodes nodeIds clipboard = .data (store.clipboardData nodeIds) := by
    simp only [Store.copySelectedNodes, writable, chosen, Bool.false_eq_true, ↓reduceIte]
  have pasted : store.pasting registry (store.clipboardData nodeIds) =
      { store.placing registry nodeIds with store := store.drawing registry nodeIds } := by
    have placed : (store.clipboardData nodeIds).nodes.foldl (Pasting.addNode registry) {
        store := { store with history := store.history.startBatch }
        idMap := OrderedMap.empty
        thrown := false } = store.placing registry nodeIds := rfl
    unfold Store.pasting
    dsimp only
    rw [placed, if_neg (Bool.eq_false_iff.mp running)]
    exact addConnections_eq _
  have after : store.copyPaste registry nodeIds clipboard = { store.drawing registry nodeIds with
      history := (store.drawing registry nodeIds).history.commitBatch "Paste nodes" } := by
    simp only [Store.copyPaste, Store.pasteNodes, writable, copied, pasted, running,
      Bool.false_eq_true, ↓reduceIte]
  rw [after]
  refine ⟨rfl, ?_⟩
  cases commands with
  | nil => exact absurd rfl some
  | cons first others =>
      obtain ⟨rest, top⟩ := HistoryManager.pushEntry_top
        { (store.drawing registry nodeIds).history with currentBatch := none }
        { description := "Paste nodes", commands := first :: others }
      have recorded : ((store.drawing registry nodeIds).history.commitBatch
          "Paste nodes").undoStack =
            { description := "Paste nodes", commands := first :: others } :: rest := by
        simp only [HistoryManager.commitBatch, batch]
        exact top
      simp only [Store.undo, recorded]

/-- Paste in general: what it has added it has recorded. -/
structure Store.PastesAs (registry : Registry) (store : Store) (nodeIds : List String)
    (after : Store) (commands : List Command) (count : Nat) : Prop where
  adds : AddsNodes store.adapter.editor commands after.adapter.editor count
  undone : (after.undo registry).adapter = undoAll (Command.undo registry) commands after.adapter
  atLeast : (store.selectedNodes nodeIds).length ≤ count
  companion :
    (∃ shown ∈ store.selectedNodes nodeIds, shown.type = "loop" ∧ registry "noop" ≠ none) →
      (store.selectedNodes nodeIds).length < count

theorem copyPaste_adds (clipboard : Clipboard) (formed : store.adapter.WellFormed registry)
    (writable : store.flags.readonly = false) (selected : store.selectedNodes nodeIds ≠ [])
    (settable : store.Settable registry nodeIds) :
    ∃ commands count, store.PastesAs registry nodeIds
      (store.copyPaste registry nodeIds clipboard) commands count := by
  have opened : Pasting.Placed store.adapter.editor {
      store := { store with history := store.history.startBatch }
      idMap := OrderedMap.empty
      thrown := false } [] 0 := ⟨rfl, rfl, .refl _⟩
  obtain ⟨placing, count, placed, atLeast, companion⟩ := placed_addAll
    (store.clipboardData nodeIds).nodes (clipboard_buildable formed settable) opened
  rw [List.nil_append, Nat.zero_add] at placed
  obtain ⟨further, added, drawn⟩ := drawn_all registry placed.batch
    (store.pastedEnds registry nodeIds)
  have adds := placed.adds.trans drawn.adds
  have length : (store.clipboardData nodeIds).nodes.length = (store.selectedNodes nodeIds).length :=
    List.length_map _
  have some := List.length_pos_iff.mpr selected
  have recorded : placing ++ further ≠ [] := adds.recorded (by omega)
  obtain ⟨adapter, undone⟩ := copyPaste_entry clipboard writable selected placed.running
    drawn.batch recorded
  refine ⟨placing ++ further, count, ?_, ?_, ?_, ?_⟩
  · rw [adapter]
    exact adds
  · rw [undone, adapter]
  · rw [← length]
    exact atLeast
  · intro brings
    rw [← length]
    obtain ⟨shown, member, loop⟩ := brings
    exact companion ⟨_, List.mem_map_of_mem member, loop⟩

/-!
## Selections that bring no companion
-/

theorem opened_copies (store : Store) : Pasting.Copies registry store.adapter [] {
    store := { store with history := store.history.startBatch }
    idMap := OrderedMap.empty
    thrown := false } [] where
  placed := ⟨rfl, rfl, .refl _⟩
  connections := rfl
  copied _ _ listed := by cases listed
  idMap id := by simp [OrderedMap.get?, OrderedMap.empty]
  rewinds _ := .start (.of_same (.refl _))

theorem placing_copies (formed : store.adapter.WellFormed registry)
    (settable : store.Settable registry nodeIds)
    (alone : ∀ shown ∈ store.selectedNodes nodeIds, shown.type = "loop" → registry "noop" = none) :
    ∃ commands, (store.placing registry nodeIds).Copies registry store.adapter
      (store.clipboardData nodeIds).nodes commands := by
  have distinct := selected_nodup formed nodeIds
  rw [← clipboard_ids] at distinct
  refine copies_addAll _ (clipboard_buildable formed settable) (fun node member loop => ?_) distinct
    (opened_copies store)
  obtain ⟨shown, chosen, rfl⟩ := List.mem_map.mp member
  exact alone shown chosen loop

def UiConnection.mappable (conn : UiConnection) : Bool :=
  conn.source != "__proto__" && conn.target != "__proto__"

theorem endsOf_copied {commands : List Command}
    (copies : (store.placing registry nodeIds).Copies registry store.adapter
      (store.clipboardData nodeIds).nodes commands) (conn : UiConnection) :
    Pasting.endsOf (store.placing registry nodeIds).idMap conn =
      if (((store.selectedNodes nodeIds).map UiNode.id).contains conn.source &&
          ((store.selectedNodes nodeIds).map UiNode.id).contains conn.target) && conn.mappable
      then some (conn.renamed (store.pastedId nodeIds)) else none := by
  have mapped := copies.idMap
  rw [clipboard_ids] at mapped
  unfold Pasting.endsOf UiConnection.mappable
  rw [mapped, mapped]
  by_cases source : conn.source = "__proto__" ∨
    conn.source ∉ (store.selectedNodes nodeIds).map UiNode.id
  · rw [if_pos source]
    refine (if_neg ?_).symm
    rcases source with inherited | missing
    · simp [inherited]
    · simp [missing]
  · by_cases target : conn.target = "__proto__" ∨
      conn.target ∉ (store.selectedNodes nodeIds).map UiNode.id
    · rw [if_pos target, if_neg source]
      refine (if_neg ?_).symm
      rcases target with inherited | missing
      · simp [inherited]
      · simp [missing]
    · rw [if_neg source, if_neg target]
      rw [not_or, not_not] at source target
      have both : ((((store.selectedNodes nodeIds).map UiNode.id).contains conn.source &&
          ((store.selectedNodes nodeIds).map UiNode.id).contains conn.target) &&
          (conn.source != "__proto__" && conn.target != "__proto__")) = true := by
        simp only [Bool.and_eq_true, List.contains_iff_mem, bne_iff_ne]
        exact ⟨⟨source.2, target.2⟩, source.1, target.1⟩
      rw [if_pos both]
      rfl

theorem pastedEnds_eq {commands : List Command}
    (copies : (store.placing registry nodeIds).Copies registry store.adapter
      (store.clipboardData nodeIds).nodes commands) :
    store.pastedEnds registry nodeIds =
      ((store.connectionsBetween nodeIds).filter UiConnection.mappable).map
        (UiConnection.renamed (store.pastedId nodeIds)) := by
  have chosen : ∀ id, ((store.selectedNodes nodeIds).map UiNode.id).contains id = true →
      id ∈ nodeIds := by
    intro id member
    obtain ⟨shown, listed, rfl⟩ := List.mem_map.mp (List.contains_iff_mem.mp member)
    exact List.contains_iff_mem.mp (List.mem_filter.mp listed).2
  unfold Store.pastedEnds Store.connectionsBetween
  simp only [Store.clipboardData]
  rw [← List.filterMap_eq_map, List.filter_filter, List.filterMap_filter, List.filterMap_filter]
  refine congrArg (fun map => List.filterMap map _) (funext fun conn => ?_)
  rw [endsOf_copied copies]
  cases source : ((store.selectedNodes nodeIds).map UiNode.id).contains conn.source with
  | false => simp
  | true =>
      cases target : ((store.selectedNodes nodeIds).map UiNode.id).contains conn.target with
      | false => simp
      | true => simp [chosen _ source, chosen _ target]

theorem pastedId_injective {first second : String}
    (member : first ∈ (store.selectedNodes nodeIds).map UiNode.id)
    (same : store.pastedId nodeIds first = store.pastedId nodeIds second) : first = second := by
  have numbers := numberedId_injective same
  exact (List.idxOf_inj member).mp (Nat.add_left_cancel numbers)

theorem pastedId_next {shown : UiNode} (member : shown ∈ store.selectedNodes nodeIds) :
    store.pastedId nodeIds shown.id ∈
      nextIds store.adapter.editor.idCounter (store.selectedNodes nodeIds).length := by
  have inside := List.idxOf_lt_length_of_mem (List.mem_map_of_mem (f := UiNode.id) member)
  rw [List.length_map] at inside
  exact mem_nextIds.mpr ⟨_, inside, rfl⟩

theorem placing_pasted (formed : store.adapter.WellFormed registry) {commands : List Command}
    (copies : (store.placing registry nodeIds).Copies registry store.adapter
      (store.clipboardData nodeIds).nodes commands)
    {shown : UiNode} (member : shown ∈ store.selectedNodes nodeIds) {node : Node}
    (found : store.adapter.editor.nodes.get? shown.id = some node) :
    ∃ copy nodeClass, registry node.type = some nodeClass ∧
      (store.placing registry nodeIds).store.adapter.editor.nodes.get?
        (store.pastedId nodeIds shown.id) = some copy ∧ copy.type = node.type ∧
      copy.getConfig = node.getConfig ∧ copy.label = nodeClass.label ∧
      copy.position = pastePosition node.position := by
  obtain ⟨original, present, rfl, shaped⟩ := mem_selected formed member
  cases found.symm.trans present
  have config : store.adapter.getNodeConfig node.toUi.id = node.getConfig := by
    simp only [WorkflowAdapter.getNodeConfig, found]
  have place : (store.clipboardData nodeIds).nodes[
      ((store.selectedNodes nodeIds).map UiNode.id).idxOf node.toUi.id]? = some {
        id := node.toUi.id, type := node.type, position := node.position, title := node.label,
        config := node.getConfig } := by
    simp only [Store.clipboardData, List.getElem?_map, selected_at formed member, Option.map_some,
      config]
    rfl
  obtain ⟨nodeClass, registered, copied⟩ := copies.copied _ _ place
  refine ⟨_, nodeClass, registered, copied, rfl, ?_, rfl, rfl⟩
  obtain ⟨controls, hidden⟩ := shaped.config registered
  simp only [Node.getConfig, Node.restored, Node.setConfig, NodeClass.new] at controls hidden ⊢
  rw [controls, hidden]

theorem mem_between {conn : UiConnection} (member : conn ∈ store.connectionsBetween nodeIds) :
    conn.source ∈ (store.selectedNodes nodeIds).map UiNode.id ∧
      conn.target ∈ (store.selectedNodes nodeIds).map UiNode.id := by
  have both := (List.mem_filter.mp member).2
  rw [Bool.and_eq_true, List.contains_iff_mem, List.contains_iff_mem] at both
  exact both

theorem joins_pasted (formed : store.adapter.WellFormed registry) {commands : List Command}
    (copies : (store.placing registry nodeIds).Copies registry store.adapter
      (store.clipboardData nodeIds).nodes commands)
    {conn : UiConnection} (member : conn ∈ store.connectionsBetween nodeIds) :
    (store.placing registry nodeIds).store.adapter.editor.Joins registry
        (conn.renamed (store.pastedId nodeIds)) ↔
      conn.source ≠ conn.target ∧ ∃ source target,
        store.adapter.editor.nodes.get? conn.source = some source ∧
        store.adapter.editor.nodes.get? conn.target = some target ∧
        WorkflowEditor.socketsMatch registry source target conn.sourceHandle
          conn.targetHandle = true := by
  obtain ⟨fromSelected, toSelected⟩ := mem_between member
  obtain ⟨shownSource, sourceChosen, sourceId⟩ := List.mem_map.mp fromSelected
  obtain ⟨shownTarget, targetChosen, targetId⟩ := List.mem_map.mp toSelected
  obtain ⟨source, sourceFound, _⟩ := mem_selected formed sourceChosen
  obtain ⟨target, targetFound, _⟩ := mem_selected formed targetChosen
  obtain ⟨newSource, _, _, newSourceFound, sourceType, _⟩ :=
    placing_pasted formed copies sourceChosen sourceFound
  obtain ⟨newTarget, _, _, newTargetFound, targetType, _⟩ :=
    placing_pasted formed copies targetChosen targetFound
  rw [sourceId] at sourceFound newSourceFound
  rw [targetId] at targetFound newTargetFound
  have sockets : WorkflowEditor.socketsMatch registry newSource newTarget conn.sourceHandle
      conn.targetHandle = WorkflowEditor.socketsMatch registry source target conn.sourceHandle
        conn.targetHandle := by
    simp only [WorkflowEditor.socketsMatch, sourceType, targetType]
  have distinct : store.pastedId nodeIds conn.source ≠ store.pastedId nodeIds conn.target ↔
      conn.source ≠ conn.target :=
    ⟨fun apart same => apart (congrArg _ same), fun apart same =>
      apart (pastedId_injective fromSelected same)⟩
  unfold WorkflowEditor.Joins UiConnection.renamed
  dsimp only
  rw [distinct, newSourceFound, newTargetFound, sourceFound, targetFound]
  simp only [Option.some.injEq, exists_and_left, exists_eq_left', sockets]

theorem connectable_pasted (formed : store.adapter.WellFormed registry) {commands : List Command}
    (copies : (store.placing registry nodeIds).Copies registry store.adapter
      (store.clipboardData nodeIds).nodes commands) :
    (store.placing registry nodeIds).store.adapter.editor.Connectable registry
        ((store.connectionsBetween nodeIds).map (UiConnection.renamed (store.pastedId nodeIds))) ↔
      (∀ conn ∈ store.connectionsBetween nodeIds, conn.source ≠ conn.target ∧ ∃ source target,
        store.adapter.editor.nodes.get? conn.source = some source ∧
        store.adapter.editor.nodes.get? conn.target = some target ∧
        WorkflowEditor.socketsMatch registry source target conn.sourceHandle
          conn.targetHandle = true) ∧
      ((store.connectionsBetween nodeIds).map fun conn =>
        (conn.renamed (store.pastedId nodeIds)).generateId).Nodup ∧
      ∀ conn ∈ store.connectionsBetween nodeIds, ∀ other ∈ store.adapter.editor.connections,
        other.id ≠ (conn.renamed (store.pastedId nodeIds)).generateId := by
  constructor
  · intro connectable
    refine ⟨fun conn member => ?_, ?_, fun conn member other listed => ?_⟩
    · exact (joins_pasted formed copies member).mp
        (connectable.joined _ (List.mem_map_of_mem member))
    · have identified := connectable.identified
      rw [List.map_map] at identified
      exact identified
    · refine connectable.untaken _ (List.mem_map_of_mem member) other ?_
      rw [copies.connections]
      exact listed
  · rintro ⟨joined, identified, untaken⟩
    refine ⟨fun one member => ?_, ?_, fun one member other listed => ?_⟩
    · obtain ⟨conn, between, rfl⟩ := List.mem_map.mp member
      exact (joins_pasted formed copies between).mpr (joined conn between)
    · rw [List.map_map]
      exact identified
    · obtain ⟨conn, between, rfl⟩ := List.mem_map.mp member
      rw [copies.connections] at listed
      exact untaken conn between other listed

/-- Paste of a selection that brings no companion. -/
structure Store.PastesAlone (registry : Registry) (store : Store) (nodeIds : List String)
    (after : Store) (added : List Endpoints) : Prop where
  nodes : after.adapter.editor.nodes = (store.placing registry nodeIds).store.adapter.editor.nodes
  connections : after.adapter.editor.connections =
    store.adapter.editor.connections ++ added.map Endpoints.connection
  fewer : added.length ≤ (store.pastedEnds registry nodeIds).length
  all : (store.placing registry nodeIds).store.adapter.editor.Connectable registry
    (store.pastedEnds registry nodeIds) → added = store.pastedEnds registry nodeIds
  only : added.length = (store.pastedEnds registry nodeIds).length →
    (store.placing registry nodeIds).store.adapter.editor.Connectable registry
      (store.pastedEnds registry nodeIds)
  restored : (∀ id ∈ nextIds store.adapter.editor.idCounter (store.selectedNodes nodeIds).length,
    store.adapter.editor.FreshId id) → (after.undo registry).adapter ≈ store.adapter

theorem copyPaste_alone (clipboard : Clipboard) {commands : List Command}
    (writable : store.flags.readonly = false) (selected : store.selectedNodes nodeIds ≠ [])
    (copies : (store.placing registry nodeIds).Copies registry store.adapter
      (store.clipboardData nodeIds).nodes commands) :
    ∃ added, store.PastesAlone registry nodeIds (store.copyPaste registry nodeIds clipboard)
      added := by
  have length : (store.clipboardData nodeIds).nodes.length = (store.selectedNodes nodeIds).length :=
    List.length_map _
  obtain ⟨further, added, drawn⟩ := drawn_all registry copies.placed.batch
    (store.pastedEnds registry nodeIds)
  have some := List.length_pos_iff.mpr selected
  have recorded : commands ++ further ≠ [] :=
    (copies.placed.adds.trans drawn.adds).recorded (by omega)
  obtain ⟨adapter, undone⟩ := copyPaste_entry clipboard writable selected copies.placed.running
    drawn.batch recorded
  refine ⟨added, ?_, ?_, drawn.fewer, drawn.all, drawn.only, fun fresh => ?_⟩
  · rw [adapter]
    exact drawn.nodes
  · rw [adapter]
    exact drawn.connections.trans (by rw [copies.connections])
  · rw [← length] at fresh
    have rewinds := (copies.rewinds fresh).performed (undo_nearness registry) drawn.performed
    rw [← List.reverse_append, ← List.append_nil (List.reverse _)] at rewinds
    have back := rewinds.undone (undo_nearness registry)
    rw [undone]
    cases back with
    | start near => exact near.same

theorem next_pasted (formed : store.adapter.WellFormed registry) {id : String}
    (member : id ∈ nextIds store.adapter.editor.idCounter (store.selectedNodes nodeIds).length) :
    ∃ shown ∈ store.selectedNodes nodeIds, id = store.pastedId nodeIds shown.id := by
  obtain ⟨index, inside, rfl⟩ := mem_nextIds.mp member
  refine ⟨(store.selectedNodes nodeIds)[index], List.getElem_mem inside, ?_⟩
  have place := (selected_nodup formed nodeIds).idxOf_getElem index (by simpa using inside)
  rw [List.getElem_map] at place
  rw [Store.pastedId, place]

/-!
## When copy and paste makes a copy
-/

theorem endpoints_connections (added : List Endpoints) :
    (added.map Endpoints.connection).map Connection.endpoints = added := by
  rw [List.map_map]
  exact List.map_id'' (fun _ => rfl) added

theorem Store.Pasteable.copies {clipboard : Clipboard}
    (formed : store.adapter.WellFormed registry) (writable : store.flags.readonly = false)
    (selected : store.selectedNodes nodeIds ≠ []) (settable : store.Settable registry nodeIds)
    (pasteable : store.Pasteable registry nodeIds) :
    store.CopiedTo registry (store.copyPaste registry nodeIds clipboard) nodeIds
      (store.pastedId nodeIds) := by
  obtain ⟨commands, copies⟩ := placing_copies formed settable pasteable.alone
  obtain ⟨added, pasted⟩ := copyPaste_alone clipboard writable selected copies
  have length : (store.clipboardData nodeIds).nodes.length = (store.selectedNodes nodeIds).length :=
    List.length_map _
  have mappable : (store.connectionsBetween nodeIds).filter UiConnection.mappable =
      store.connectionsBetween nodeIds := by
    refine List.filter_eq_self.mpr fun conn member => ?_
    obtain ⟨_, source, target, _⟩ := pasteable.connectable conn member
    simp [UiConnection.mappable, source, target]
  have ends := pastedEnds_eq copies
  rw [mappable] at ends
  have connectable := (connectable_pasted formed copies).mpr ⟨fun conn member => by
    obtain ⟨distinct, _, _, joined⟩ := pasteable.connectable conn member
    exact ⟨distinct, joined⟩, pasteable.identified, pasteable.untaken⟩
  rw [← ends] at connectable
  refine ⟨?_, fun shown member => ?_, fun nodeId outside => ?_, ?_, ?_⟩
  · have injective : ∀ first ∈ (store.selectedNodes nodeIds).map UiNode.id,
        ∀ second ∈ (store.selectedNodes nodeIds).map UiNode.id,
        store.pastedId nodeIds first = store.pastedId nodeIds second → first = second :=
      fun first member second _ same => pastedId_injective member same
    have distinct := (selected_nodup formed nodeIds).map_on injective
    rw [List.map_map] at distinct
    exact distinct
  · obtain ⟨node, found, shows, _⟩ := mem_selected formed member
    obtain ⟨copy, nodeClass, registered, copied, type, config, label, position⟩ :=
      placing_pasted formed copies member found
    refine ⟨node, copy, found, (pasteable.fresh shown member).1, ?_, type, config, ?_, position⟩
    · rw [pasted.nodes]
      exact copied
    · subst shows
      rw [label]
      exact (pasteable.labelled _ member nodeClass registered).symm
  · rw [pasted.nodes]
    refine copies.placed.adds.others nodeId fun next => ?_
    rw [length] at next
    obtain ⟨shown, member, same⟩ := next_pasted formed next
    exact outside shown member same
  · refine ⟨added.map Endpoints.connection, by rw [pasted.connections], ?_⟩
    rw [endpoints_connections, pasted.all connectable, ends]
  · refine pasted.restored fun id next => ?_
    obtain ⟨shown, member, rfl⟩ := next_pasted formed next
    exact pasteable.fresh shown member

/-- One undo restores the graph only if the new identifiers were free in it. -/
theorem Store.PastesAs.fresh {after : Store} {commands : List Command} {count : Nat}
    (pastes : store.PastesAs registry nodeIds after commands count)
    (restored : (after.undo registry).adapter ≈ store.adapter) :
    ∀ id ∈ nextIds store.adapter.editor.idCounter count, store.adapter.editor.FreshId id := by
  have adds := pastes.adds.adds
  have added := pastes.adds.added
  rw [pastes.undone] at restored
  have distinct := nextIds_nodup store.adapter.editor.idCounter count
  rw [← added] at distinct ⊢
  intro id member
  constructor
  · rw [← restored.nodes, undoAll_nodes adds, if_pos member]
  · intro conn listed
    refine undoAll_apart adds distinct after.adapter (fun new recorded => ?_) id member conn
      (restored.connections.mem_iff.mpr listed)
    exact pastes.adds.present new (added ▸ recorded)

/-- A copy adds no node beyond the selected ones. -/
theorem Store.CopiedTo.count {after : Store} {idOf : String → String} {commands : List Command}
    {count : Nat} (copied : store.CopiedTo registry after nodeIds idOf)
    (pastes : store.PastesAs registry nodeIds after commands count) :
    count = (store.selectedNodes nodeIds).length := by
  have fresh := pastes.fresh copied.restored
  have inside : nextIds store.adapter.editor.idCounter count ⊆
      (store.selectedNodes nodeIds).map fun shown => idOf shown.id := by
    intro id member
    by_contra outside
    have same := copied.others id fun shown chosen equal =>
      outside (List.mem_map.mpr ⟨shown, chosen, equal.symm⟩)
    rw [(fresh id member).1] at same
    exact pastes.adds.present id member same
  have fewer := (List.subperm_of_subset (nextIds_nodup _ _) inside).length_le
  rw [length_nextIds, List.length_map] at fewer
  exact Nat.le_antisymm fewer pastes.atLeast

theorem Store.CopiedTo.pasteable {clipboard : Clipboard}
    (formed : store.adapter.WellFormed registry) (writable : store.flags.readonly = false)
    (selected : store.selectedNodes nodeIds ≠ []) (settable : store.Settable registry nodeIds)
    {idOf : String → String}
    (copied : store.CopiedTo registry (store.copyPaste registry nodeIds clipboard) nodeIds idOf) :
    store.Pasteable registry nodeIds := by
  obtain ⟨recorded, count, pastes⟩ := copyPaste_adds clipboard formed writable selected settable
  have exact := copied.count pastes
  have fresh := pastes.fresh copied.restored
  rw [exact] at fresh
  have alone : ∀ shown ∈ store.selectedNodes nodeIds, shown.type = "loop" →
      registry "noop" = none := by
    intro shown member loop
    by_contra known
    have more := pastes.companion ⟨shown, member, loop, known⟩
    omega
  obtain ⟨commands, copies⟩ := placing_copies formed settable alone
  obtain ⟨added, pasted⟩ := copyPaste_alone clipboard writable selected copies
  have length : added.length = (store.connectionsBetween nodeIds).length := by
    obtain ⟨connections, listed, renamed⟩ := copied.connections
    have total := listed.length_eq
    have ends := renamed.length_eq
    rw [pasted.connections, List.length_append, List.length_append, List.length_map] at total
    rw [List.length_map, List.length_map] at ends
    omega
  have mappable : (store.connectionsBetween nodeIds).filter UiConnection.mappable =
      store.connectionsBetween nodeIds := by
    refine List.filter_sublist.eq_of_length_le ?_
    have fewer := pasted.fewer
    rw [pastedEnds_eq copies, List.length_map] at fewer
    omega
  have ends := pastedEnds_eq copies
  rw [mappable] at ends
  have connectable := pasted.only (by rw [ends, List.length_map, length])
  rw [ends] at connectable
  obtain ⟨joined, identified, untaken⟩ := (connectable_pasted formed copies).mp connectable
  refine ⟨alone, fun shown member nodeClass registered => ?_, fun shown member =>
    fresh _ (pastedId_next member), fun conn member => ?_, identified, untaken⟩
  · obtain ⟨node, copy, found, absent, present, isCopy⟩ := copied.copies shown member
    -- the copy may be the one that was made of another node of the selection
    have next : idOf shown.id ∈ nextIds store.adapter.editor.idCounter
        (store.selectedNodes nodeIds).length := by
      by_contra outside
      have same := pastes.adds.others (idOf shown.id) (by rw [exact]; exact outside)
      rw [present, absent] at same
      cases same
    obtain ⟨other, chosen, sameId⟩ := next_pasted formed next
    obtain ⟨otherNode, otherFound, _⟩ := mem_selected formed chosen
    obtain ⟨otherCopy, otherClass, known, placed, type, _, label, _⟩ :=
      placing_pasted formed copies chosen otherFound
    rw [← pasted.nodes, ← sameId, present, Option.some.injEq] at placed
    subst placed
    obtain ⟨original, shownFound, rfl, _⟩ := mem_selected formed member
    cases found.symm.trans shownFound
    have sameType : otherNode.type = node.type := type.symm.trans isCopy.type
    rw [sameType] at known
    cases known.symm.trans registered
    exact isCopy.label.symm.trans label
  · obtain ⟨distinct, found⟩ := joined conn member
    have both := List.filter_eq_self.mp mappable conn member
    simp only [UiConnection.mappable, Bool.and_eq_true, bne_iff_ne] at both
    exact ⟨distinct, both.1, both.2, found⟩

end Selection

/-- In every store that operations reach, copying and pasting a selection makes
a copy of the selected part of the graph exactly when that part can be rebuilt. -/
theorem copyPaste_copies_iff (registry : Registry) (operations : List Operation)
    (nodeIds : List String) (clipboard : Clipboard)
    (writable : (Store.run registry operations).flags.readonly = false)
    (selected : (Store.run registry operations).selectedNodes nodeIds ≠ [])
    (settable : (Store.run registry operations).Settable registry nodeIds) :
    (∃ idOf, (Store.run registry operations).CopiedTo registry
        ((Store.run registry operations).copyPaste registry nodeIds clipboard) nodeIds idOf) ↔
      (Store.run registry operations).Pasteable registry nodeIds := by
  have formed := Store.run_formed registry operations
  constructor
  · intro copies
    obtain ⟨idOf, copied⟩ := copies
    exact copied.pasteable formed writable selected settable
  · intro pasteable
    exact ⟨_, pasteable.copies formed writable selected settable⟩

theorem copyPaste_copies_connectedNodes :
    ∃ idOf, (Store.run noopRegistry connectedNodes).CopiedTo noopRegistry
      ((Store.run noopRegistry connectedNodes).copyPaste noopRegistry ["n_1", "n_2"] .unreadable)
        ["n_1", "n_2"] idOf := by
  have plain : ∀ shown ∈ (Store.run noopRegistry connectedNodes).selectedNodes ["n_1", "n_2"],
      shown.type = "noop" ∧ shown.title = "No Operation" ∧
        (Store.run noopRegistry connectedNodes).adapter.getNodeConfig shown.id =
          OrderedMap.empty := by decide
  have fresh : ∀ shown ∈ (Store.run noopRegistry connectedNodes).selectedNodes ["n_1", "n_2"],
      (Store.run noopRegistry connectedNodes).adapter.editor.nodes.get?
          ((Store.run noopRegistry connectedNodes).pastedId ["n_1", "n_2"] shown.id) = none ∧
        ∀ conn ∈ (Store.run noopRegistry connectedNodes).adapter.editor.connections,
          conn.involvesNode ((Store.run noopRegistry connectedNodes).pastedId ["n_1", "n_2"]
            shown.id) = false := by decide
  have between : (Store.run noopRegistry connectedNodes).connectionsBetween ["n_1", "n_2"] =
      [(Connection.new "n_1" "result" "n_2" "data").toUi] := by decide
  refine (copyPaste_copies_iff noopRegistry connectedNodes ["n_1", "n_2"] .unreadable rfl
    (List.ne_nil_of_length_pos (by decide)) fun shown member nodeClass _ => ?_).mpr
      ⟨fun shown member loop => ?_, fun shown member nodeClass registered => ?_, fresh,
        fun conn member => ?_, by decide, by decide⟩
  · rw [(plain shown member).2.2]
    rfl
  · exact absurd ((plain shown member).1.symm.trans loop) (by decide)
  · rw [(plain shown member).1] at registered
    cases registered
    exact (plain shown member).2.1
  · rw [between, List.mem_singleton] at member
    subst member
    exact ⟨by decide, by decide, by decide, _, _, rfl, rfl, by decide⟩

def renamedNode : List Operation :=
  [.perform (.addNode "noop" ⟨0, 0⟩), .renameNode "n_1" "Approve"]

/-- The copy of a renamed node has the label of its class. -/
theorem copyPaste_loses_title :
    (Store.run noopRegistry renamedNode).flags.readonly = false ∧
    (Store.run noopRegistry renamedNode).selectedNodes ["n_1"] ≠ [] ∧
    ¬ ∃ idOf, (Store.run noopRegistry renamedNode).CopiedTo noopRegistry
      ((Store.run noopRegistry renamedNode).copyPaste noopRegistry ["n_1"] .unreadable) ["n_1"]
        idOf := by
  have selected : (Store.run noopRegistry renamedNode).selectedNodes ["n_1"] ≠ [] :=
    List.ne_nil_of_length_pos (by decide)
  refine ⟨rfl, selected, fun copies => ?_⟩
  obtain ⟨idOf, copied⟩ := copies
  have shown : (Store.run noopRegistry renamedNode).selectedNodes ["n_1"] =
      [⟨"n_1", "noop", "Approve", false, ⟨0, 0⟩, false⟩] := by decide
  have settable : (Store.run noopRegistry renamedNode).Settable noopRegistry ["n_1"] := by
    intro node member nodeClass registered
    rw [shown, List.mem_singleton] at member
    subst member
    rfl
  have labelled := (copied.pasteable (Store.run_formed noopRegistry renamedNode) rfl selected
    settable).labelled
  rw [shown] at labelled
  exact absurd (labelled _ List.mem_cons_self noopClass rfl) (by decide)

end WorkflowStudio.Editor
