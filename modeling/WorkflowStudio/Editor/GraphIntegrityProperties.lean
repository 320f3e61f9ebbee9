import WorkflowStudio.Editor.LoadProperties
import WorkflowStudio.Editor.UndoProperties

/-! Which snapshots give a graph that stays well formed under every sequence of
edits. `addConnection` looks for a duplicate by the generated identifier, so a
loaded connection with an identifier of its own can be drawn a second time. -/

set_option autoImplicit false

namespace WorkflowStudio.Editor

open Lib

/-!
## Well-formed graphs and snapshots
-/

structure Endpoints where
  source : String
  sourceHandle : String
  target : String
  targetHandle : String
  deriving DecidableEq

def Endpoints.generateId (ends : Endpoints) : String :=
  Connection.generateId ends.source ends.sourceHandle ends.target ends.targetHandle

def Connection.endpoints (conn : Connection) : Endpoints where
  source := conn.source
  sourceHandle := conn.sourceHandle
  target := conn.target
  targetHandle := conn.targetHandle

def ConnectionData.endpoints (data : ConnectionData) : Endpoints where
  source := data.source
  sourceHandle := data.sourceHandle
  target := data.target
  targetHandle := data.targetHandle

/-- The conditions on a graph, given as its node identifiers and the
identifiers and end points of its connections. -/
structure WellFormedGraph {Id : Type} (nodeIds : List String) (connections : List (Id × Endpoints)) :
    Prop where
  nodes : nodeIds.Nodup
  identified : (connections.map Prod.fst).Nodup
  anchored : ∀ conn ∈ connections, conn.2.source ∈ nodeIds ∧ conn.2.target ∈ nodeIds
  unlooped : ∀ conn ∈ connections, conn.2.source ≠ conn.2.target
  distinct : (connections.map Prod.snd).Nodup

def WorkflowEditor.Intact (editor : WorkflowEditor) : Prop :=
  WellFormedGraph (editor.nodes.values.map Node.id)
    (editor.connections.map fun conn => (conn.id, conn.endpoints))

def Snapshot.Intact (snapshot : Snapshot) : Prop :=
  WellFormedGraph (snapshot.nodes.map NodeData.id)
    (snapshot.connections.map fun data => (data.id, data.endpoints))

/-!
## Connections that can be drawn again
-/

/-- The types whose nodes can stand under an identifier: `addNodeWithId` puts
any type there, but gives a new identifier in place of an empty one. -/
def Snapshot.Admits (snapshot : Snapshot) (nodeId type : String) : Prop :=
  nodeId = "" → ∃ data ∈ snapshot.nodes, data.id = "" ∧ data.type = type

/-- Nodes of some types could have the two sockets, and these are compatible. -/
def Snapshot.Connectable (registry : Registry) (snapshot : Snapshot) (ends : Endpoints) : Prop :=
  ∃ source target : NodeClass, (∃ type, registry type = some source ∧
      snapshot.Admits ends.source type) ∧
    (∃ type, registry type = some target ∧ snapshot.Admits ends.target type) ∧
    ∃ outSocket inSocket, source.outputs.lookup ends.sourceHandle = some outSocket ∧
      target.inputs.lookup ends.targetHandle = some inSocket ∧
      outSocket.isCompatible inSocket = true

/-- The identifier of a loaded connection: a missing or empty one is generated. -/
def ConnectionData.loadedId (data : ConnectionData) : String :=
  match data.id with
  | none => data.endpoints.generateId
  | some id => if id = "" then data.endpoints.generateId else id

/-- A node does not load, so that no connection is loaded; or the
connections load with distinct identifiers, and those that could be drawn again
have their generated identifiers. -/
def Snapshot.StaysIntact (registry : Registry) (snapshot : Snapshot) : Prop :=
  snapshot.Loadable registry →
    (snapshot.connections.map ConnectionData.loadedId).Nodup ∧
    ∀ data ∈ snapshot.connections, snapshot.Connectable registry data.endpoints →
      data.loadedId = data.endpoints.generateId

/-- The edits of nodes and connections, by way of the history or without it,
and the two moves through the history. -/
def Operation.edits : Operation → Bool
  | .perform (.addNode _ _) | .perform (.removeNode _) | .perform (.addConnection _ _ _ _)
  | .perform (.removeConnection _) | .adapterAddNode _ _ | .adapterAddNodeWithId _ _ _ _
  | .adapterRemoveNode _ | .adapterAddConnection _ _ _ _ | .adapterRemoveConnection _
  | .undo | .redo => true
  | _ => false

/-!
## The invariant
-/

section Invariant

variable {registry : Registry} {snapshot : Snapshot}

theorem socketsMatch_iff {source target : Node} {sourceHandle targetHandle : String} :
    WorkflowEditor.socketsMatch registry source target sourceHandle targetHandle = true ↔
      ∃ sourceClass targetClass outSocket inSocket, registry source.type = some sourceClass ∧
        registry target.type = some targetClass ∧
        sourceClass.outputs.lookup sourceHandle = some outSocket ∧
        targetClass.inputs.lookup targetHandle = some inSocket ∧
        outSocket.isCompatible inSocket = true := by
  unfold WorkflowEditor.socketsMatch
  cases sourceFound : registry source.type with
  | none => simp
  | some sourceClass =>
      cases targetFound : registry target.type with
      | none => simp
      | some targetClass =>
          cases outFound : sourceClass.outputs.lookup sourceHandle with
          | none => simp [outFound]
          | some outSocket =>
              cases inFound : targetClass.inputs.lookup targetHandle with
              | none => simp [inFound]
              | some inSocket => simp [outFound, inFound]

/-- What every edit keeps, of a graph loaded from the snapshot. -/
structure Settled (registry : Registry) (snapshot : Snapshot) (editor : WorkflowEditor) :
    Prop where
  own : ∀ nodeId node, editor.nodes.get? nodeId = some node → node.id = nodeId
  admitted : ∀ nodeId node, editor.nodes.get? nodeId = some node →
    snapshot.Admits nodeId node.type
  anchored : ∀ conn ∈ editor.connections,
    (editor.nodes.get? conn.source).isSome ∧ (editor.nodes.get? conn.target).isSome
  unlooped : ∀ conn ∈ editor.connections, conn.source ≠ conn.target
  identified : (editor.connections.map Connection.id).Nodup
  distinct : (editor.connections.map Connection.endpoints).Nodup
  generated : ∀ conn ∈ editor.connections, snapshot.Connectable registry conn.endpoints →
    conn.id = conn.endpoints.generateId

namespace Settled

variable {editor : WorkflowEditor}

theorem intact (settled : Settled registry snapshot editor) : editor.Intact := by
  have ids : editor.nodes.values.map Node.id = editor.nodes.keys := by
    simp only [OrderedMap.values, OrderedMap.keys, List.map_map]
    refine List.map_congr_left fun entry member => ?_
    exact settled.own entry.1 entry.2 (OrderedMap.get?_eq_some_iff.mpr member)
  have listed : ∀ nodeId, (editor.nodes.get? nodeId).isSome → nodeId ∈ editor.nodes.keys :=
    fun _ present => OrderedMap.mem_keys_iff.mpr (Option.isSome_iff_exists.mp present)
  refine ⟨ids ▸ editor.nodes.keys_nodup, ?_, ?_, ?_, ?_⟩
  · rw [List.map_map]
    exact settled.identified
  · rintro _ member
    obtain ⟨conn, inside, rfl⟩ := List.mem_map.mp member
    obtain ⟨source, target⟩ := settled.anchored conn inside
    rw [ids]
    exact ⟨listed _ source, listed _ target⟩
  · rintro _ member
    obtain ⟨conn, inside, rfl⟩ := List.mem_map.mp member
    exact settled.unlooped conn inside
  · rw [List.map_map]
    exact settled.distinct

/-- Fewer connections, between nodes that are still there. -/
theorem fewer (settled : Settled registry snapshot editor) {nodes : OrderedMap String Node}
    {connections : List Connection} (counter : Nat)
    (fewer : connections.Sublist editor.connections)
    (kept : ∀ nodeId node, nodes.get? nodeId = some node →
      editor.nodes.get? nodeId = some node)
    (anchored : ∀ conn ∈ connections,
      (nodes.get? conn.source).isSome ∧ (nodes.get? conn.target).isSome) :
    Settled registry snapshot ⟨nodes, connections, counter⟩ where
  own nodeId node found := settled.own nodeId node (kept nodeId node found)
  admitted nodeId node found := settled.admitted nodeId node (kept nodeId node found)
  anchored := anchored
  unlooped conn member := settled.unlooped conn (fewer.subset member)
  identified := (fewer.map Connection.id).nodup settled.identified
  distinct := (fewer.map Connection.endpoints).nodup settled.distinct
  generated conn member := settled.generated conn (fewer.subset member)

/-- A node placed under an identifier whose types it belongs to. -/
theorem placed (settled : Settled registry snapshot editor) (node : Node) (counter : Nat)
    (admitted : snapshot.Admits node.id node.type) :
    Settled registry snapshot ⟨editor.nodes.set node.id node, editor.connections, counter⟩ := by
  have present : ∀ nodeId, (editor.nodes.get? nodeId).isSome →
      ((editor.nodes.set node.id node).get? nodeId).isSome := by
    intro nodeId found
    rw [OrderedMap.get?_set]
    split
    · rfl
    · exact found
  refine ⟨?_, ?_, ?_, settled.unlooped, settled.identified, settled.distinct,
    settled.generated⟩
  · intro nodeId other found
    rw [OrderedMap.get?_set] at found
    split at found
    · next same =>
        cases found
        exact same.symm
    · exact settled.own nodeId other found
  · intro nodeId other found
    rw [OrderedMap.get?_set] at found
    split at found
    · next same =>
        cases found
        exact same ▸ admitted
    · exact settled.admitted nodeId other found
  · intro conn member
    obtain ⟨source, target⟩ := settled.anchored conn member
    exact ⟨present _ source, present _ target⟩

theorem modified (settled : Settled registry snapshot editor) (nodeId : String)
    {change : Node → Node} (keepsId : ∀ node, (change node).id = node.id)
    (keepsType : ∀ node, (change node).type = node.type) :
    Settled registry snapshot (editor.modifyNode nodeId change) := by
  unfold WorkflowEditor.modifyNode
  cases found : editor.nodes.get? nodeId with
  | none => exact settled
  | some node =>
      have own : (change node).id = nodeId := (keepsId node).trans (settled.own nodeId node found)
      have admitted : snapshot.Admits (change node).id (change node).type := by
        rw [own, keepsType]
        exact settled.admitted nodeId node found
      have result := settled.placed (change node) editor.idCounter admitted
      rw [own] at result
      exact result

theorem admits_of_named {nodeId : String} (named : nodeId ≠ "") (type : String) :
    snapshot.Admits nodeId type := fun empty => absurd empty named

theorem nextId_ne_empty (editor : WorkflowEditor) : editor.nextId ≠ "" := by
  intro empty
  have letter : 'n' ∈ editor.nextId.toList := by simp [WorkflowEditor.nextId]
  rw [empty] at letter
  cases letter

theorem addNode (settled : Settled registry snapshot editor) (node : Node) (position : Position) :
    Settled registry snapshot (editor.addNode node position) := by
  unfold WorkflowEditor.addNode
  split
  · exact settled.placed { node with id := editor.nextId, position := position } _
      (admits_of_named (nextId_ne_empty editor) node.type)
  · next named =>
      exact settled.placed { node with position := position } _
        (admits_of_named named node.type)

theorem removeNode {adapter : WorkflowAdapter}
    (settled : Settled registry snapshot adapter.editor) (nodeId : String) :
    Settled registry snapshot (adapter.removeNode nodeId).editor := by
  unfold WorkflowAdapter.removeNode WorkflowEditor.removeNode WorkflowAdapter.synced
  cases found : adapter.editor.nodes.get? nodeId with
  | none => exact settled
  | some node =>
      refine settled.fewer _ List.filter_sublist ?_ ?_
      · intro other left stays
        rw [OrderedMap.get?_erase] at stays
        split at stays
        · cases stays
        · exact stays
      · intro conn member
        obtain ⟨listed, apart⟩ := List.mem_filter.mp member
        obtain ⟨source, target⟩ := settled.anchored conn listed
        have elsewhere : conn.source ≠ nodeId ∧ conn.target ≠ nodeId := by
          simpa [Connection.involvesNode] using apart
        simp only [OrderedMap.get?_erase, elsewhere.1, elsewhere.2, ↓reduceIte]
        exact ⟨source, target⟩

/-- A connection that is accepted has a new identifier, and no connection with
its end points can have had another one. -/
theorem connected (settled : Settled registry snapshot editor)
    {source sourceHandle target targetHandle : String}
    (accepted : editor.canConnect registry source sourceHandle target targetHandle = true) :
    Settled registry snapshot ⟨editor.nodes,
      editor.connections ++ [Connection.new source sourceHandle target targetHandle],
      editor.idCounter⟩ := by
  obtain ⟨⟨sourceNode, targetNode, sourceFound, targetFound, fits⟩, fresh, unlooped⟩ :=
    canConnect_iff.mp accepted
  obtain ⟨sourceClass, targetClass, outSocket, inSocket, sourceKnown, targetKnown, out, into,
    compatible⟩ := socketsMatch_iff.mp fits
  have connectable : snapshot.Connectable registry
      ⟨source, sourceHandle, target, targetHandle⟩ :=
    ⟨sourceClass, targetClass,
      ⟨_, sourceKnown, settled.admitted source sourceNode sourceFound⟩,
      ⟨_, targetKnown, settled.admitted target targetNode targetFound⟩,
      outSocket, inSocket, out, into, compatible⟩
  have unlike : ∀ conn ∈ editor.connections,
      conn.endpoints ≠ ⟨source, sourceHandle, target, targetHandle⟩ := by
    intro conn member same
    have named := settled.generated conn member (same ▸ connectable)
    rw [same] at named
    exact fresh conn member named
  refine ⟨settled.own, settled.admitted, ?_, ?_, ?_, ?_, ?_⟩
  · intro conn member
    rcases List.mem_append.mp member with old | new
    · exact settled.anchored conn old
    · cases List.mem_singleton.mp new
      simp only [Connection.new, sourceFound, targetFound, Option.isSome_some, and_self]
  · intro conn member
    rcases List.mem_append.mp member with old | new
    · exact settled.unlooped conn old
    · cases List.mem_singleton.mp new
      exact unlooped
  · simp only [List.map_append, List.map_cons, List.map_nil]
    refine List.nodup_append.mpr ⟨settled.identified, List.nodup_singleton _, ?_⟩
    intro id listed other new same
    obtain ⟨conn, member, rfl⟩ := List.mem_map.mp listed
    exact fresh conn member (same.trans (List.mem_singleton.mp new))
  · simp only [List.map_append, List.map_cons, List.map_nil]
    refine List.nodup_append.mpr ⟨settled.distinct, List.nodup_singleton _, ?_⟩
    intro ends listed other new same
    obtain ⟨conn, member, rfl⟩ := List.mem_map.mp listed
    exact unlike conn member (same.trans (List.mem_singleton.mp new))
  · intro conn member drawn
    rcases List.mem_append.mp member with old | new
    · exact settled.generated conn old drawn
    · cases List.mem_singleton.mp new
      rfl

theorem addConnection {adapter : WorkflowAdapter}
    (settled : Settled registry snapshot adapter.editor)
    (source sourceHandle target targetHandle : String) :
    Settled registry snapshot
      (adapter.addConnection registry source sourceHandle target targetHandle).1.editor := by
  unfold WorkflowAdapter.addConnection WorkflowEditor.addConnection
  cases accepted : adapter.editor.canConnect registry source sourceHandle target targetHandle with
  | false => exact settled
  | true => exact settled.connected accepted

theorem removeConnection {adapter : WorkflowAdapter}
    (settled : Settled registry snapshot adapter.editor) (connectionId : String) :
    Settled registry snapshot (adapter.removeConnection connectionId).editor := by
  unfold WorkflowAdapter.removeConnection
  split
  · exact settled.fewer _ List.eraseP_sublist (fun _ _ found => found)
      fun conn member => settled.anchored conn (List.mem_of_mem_eraseP member)
  · exact settled

/-- The operations that change a node they find and rebuild the mirror. -/
theorem found {adapter : WorkflowAdapter} (settled : Settled registry snapshot adapter.editor)
    (nodeId : String) {change : Node → Node} (keepsId : ∀ node, (change node).id = node.id)
    (keepsType : ∀ node, (change node).type = node.type) :
    Settled registry snapshot (match adapter.editor.nodes.get? nodeId with
      | none => adapter
      | some _ => WorkflowAdapter.synced (adapter.editor.modifyNode nodeId change)).editor := by
  cases adapter.editor.nodes.get? nodeId with
  | none => exact settled
  | some node => exact settled.modified nodeId keepsId keepsType

variable (registry snapshot) in
theorem invariant :
    AdapterInvariant registry fun adapter => Settled registry snapshot adapter.editor where
  addNode adapter type position settled := by
    unfold WorkflowAdapter.addNode
    cases registry type with
    | none => exact settled
    | some nodeClass => exact settled.addNode (nodeClass.new type) position
  addNodeWithId adapter type position forcedId config settled := by
    unfold WorkflowAdapter.addNodeWithId
    cases registry type with
    | none => exact settled
    | some nodeClass =>
        have added := settled.addNode
          (({ nodeClass.new type with id := forcedId } : Node).setConfig config) position
        exact added.fewer _ (List.Sublist.refl _) (fun _ _ found => found) added.anchored
  removeNode _ nodeId settled := settled.removeNode nodeId
  updatePosition adapter nodeId position settled := by
    unfold WorkflowAdapter.updatePosition
    cases adapter.editor.nodes.get? nodeId with
    | none => exact settled
    | some node =>
        dsimp only
        split
        · exact settled
        · exact settled.modified nodeId (fun _ => rfl) fun _ => rfl
  configure _ nodeId config settled := by
    rw [WorkflowAdapter.configure_editor]
    exact settled.modified nodeId (fun node => node.configured_id config)
      fun node => node.configured_type config
  setNodeMeta _ nodeId _ settled := settled.found nodeId (fun _ => rfl) fun _ => rfl
  setNodeLabel _ nodeId _ settled := settled.found nodeId (fun _ => rfl) fun _ => rfl
  setControlValue _ nodeId _ _ settled := settled.modified nodeId (fun _ => rfl) fun _ => rfl
  addConnection _ source sourceHandle target targetHandle settled :=
    settled.addConnection source sourceHandle target targetHandle
  removeConnection _ connectionId settled := settled.removeConnection connectionId

end Settled

/-!
## Loads
-/

theorem Connection.fromJSON_id (data : ConnectionData) :
    (Connection.fromJSON data).id = data.loadedId := by
  unfold Connection.fromJSON ConnectionData.loadedId
  cases data.id <;> rfl

theorem map_id_fromJSON (connections : List ConnectionData) :
    (connections.map Connection.fromJSON).map Connection.id =
      connections.map ConnectionData.loadedId := by
  rw [List.map_map]
  exact List.map_congr_left fun data _ => Connection.fromJSON_id data

theorem Settled.fromJSON (intact : snapshot.Intact) (stays : snapshot.StaysIntact registry) :
    Settled registry snapshot (WorkflowAdapter.fromJSON registry snapshot).1.editor := by
  have shaped := (WorkflowAdapter.WellFormed.fromJSON registry snapshot).shaped
  rw [fromJSON_editor] at shaped ⊢
  have own : ∀ nodeId node, (WorkflowEditor.fromJSON registry snapshot).1.nodes.get? nodeId =
      some node → node.id = nodeId := fun nodeId node found => (shaped nodeId node found).1
  have admitted : ∀ nodeId node, (WorkflowEditor.fromJSON registry snapshot).1.nodes.get? nodeId =
      some node → snapshot.Admits nodeId node.type := by
    intro nodeId node found empty
    rw [fromJSON_nodes] at found
    rcases loadNodes_source _ _ _ found with before | ⟨source, member, same, sameType⟩
    · cases before
    · exact ⟨source, member, same.trans empty, sameType⟩
  by_cases loadable : snapshot.Loadable registry
  · obtain ⟨identified, generated⟩ := stays loadable
    have connections := loadable.connections
    have drawn : ∀ conn ∈ (WorkflowEditor.fromJSON registry snapshot).1.connections,
        ∃ data ∈ snapshot.connections, conn.endpoints = data.endpoints ∧ conn.id = data.loadedId := by
      intro conn member
      rw [connections] at member
      obtain ⟨data, listed, rfl⟩ := List.mem_map.mp member
      exact ⟨data, listed, rfl, Connection.fromJSON_id data⟩
    have present : ∀ nodeId ∈ snapshot.nodes.map NodeData.id,
        ((WorkflowEditor.fromJSON registry snapshot).1.nodes.get? nodeId).isSome := by
      intro nodeId listed
      obtain ⟨data, member, rfl⟩ := List.mem_map.mp listed
      obtain ⟨node, found, _⟩ := loadable.found intact.nodes member
      rw [found]
      rfl
    refine ⟨own, admitted, ?_, ?_, ?_, ?_, ?_⟩
    · intro conn member
      obtain ⟨data, listed, ends, _⟩ := drawn conn member
      obtain ⟨source, target⟩ := intact.anchored (data.id, data.endpoints)
        (List.mem_map.mpr ⟨data, listed, rfl⟩)
      rw [← ends] at source target
      exact ⟨present _ source, present _ target⟩
    · intro conn member
      obtain ⟨data, listed, ends, _⟩ := drawn conn member
      have apart := intact.unlooped (data.id, data.endpoints) (List.mem_map.mpr ⟨data, listed, rfl⟩)
      rw [← ends] at apart
      exact apart
    · rw [connections, map_id_fromJSON]
      exact identified
    · rw [connections, List.map_map]
      have distinct := intact.distinct
      rw [List.map_map] at distinct
      exact distinct
    · intro conn member connectable
      obtain ⟨data, listed, ends, named⟩ := drawn conn member
      rw [ends] at connectable ⊢
      exact named.trans (generated data listed connectable)
  · have connections := fromJSON_refused loadable
    refine ⟨own, admitted, ?_, ?_, ?_, ?_, ?_⟩
    · rw [connections]
      exact fun _ member => nomatch member
    · rw [connections]
      exact fun _ member => nomatch member
    · rw [connections]
      exact List.nodup_nil
    · rw [connections]
      exact List.nodup_nil
    · rw [connections]
      exact fun _ member => nomatch member

theorem loaded_of_edits {operation : Operation} (edits : operation.edits = true) (store : Store) :
    operation.loaded store = none := by
  cases operation <;> first | rfl | cases edits

theorem Settled.run {store : Store} (settled : Settled registry snapshot store.adapter.editor)
    {operations : List Operation} (edits : ∀ operation ∈ operations, operation.edits = true) :
    Settled registry snapshot
      (GuardedRun.run (Operation.apply registry) store operations).adapter.editor := by
  induction operations generalizing store with
  | nil => exact settled
  | cons operation rest ih =>
      have here : operation.edits = true := edits operation List.mem_cons_self
      refine ih ?_ fun later member => edits later (List.mem_cons_of_mem _ member)
      refine (Settled.invariant registry snapshot).apply settled ⟨?_, ?_⟩
      · intro loaded found
        rw [loaded_of_edits here store] at found
        cases found
      · rintro rfl
        cases here

/-!
## Drawing a connection again
-/

/-- Put a node of the type under a non-empty identifier. -/
def retyped (nodeId type : String) : List Operation :=
  if nodeId = "" then [] else [.adapterAddNodeWithId type ⟨0, 0⟩ nodeId OrderedMap.empty]

theorem retyped_edits (nodeId type : String) :
    ∀ operation ∈ retyped nodeId type, operation.edits = true := by
  intro operation member
  unfold retyped at member
  split at member
  · cases member
  · cases List.mem_singleton.mp member
    rfl

theorem run_retyped {store : Store} {nodeId type : String} {nodeClass : NodeClass}
    (registered : registry type = some nodeClass)
    (blank : nodeId = "" → ∃ node, store.adapter.editor.nodes.get? nodeId = some node ∧
      node.type = type) :
    (∃ node, (GuardedRun.run (Operation.apply registry) store
        (retyped nodeId type)).adapter.editor.nodes.get? nodeId = some node ∧ node.type = type) ∧
    (∀ other, other ≠ nodeId → (GuardedRun.run (Operation.apply registry) store
        (retyped nodeId type)).adapter.editor.nodes.get? other =
      store.adapter.editor.nodes.get? other) ∧
    (GuardedRun.run (Operation.apply registry) store (retyped nodeId type)).adapter.editor.connections =
      store.adapter.editor.connections := by
  unfold retyped
  by_cases named : nodeId = ""
  · simp only [named, ↓reduceIte]
    exact ⟨named ▸ blank named, fun _ _ => rfl, rfl⟩
  · simp only [named, ↓reduceIte]
    have placed : GuardedRun.run (Operation.apply registry) store
        [.adapterAddNodeWithId type ⟨0, 0⟩ nodeId OrderedMap.empty] = { store with
          adapter := store.adapter.addNodeWithId registry type ⟨0, 0⟩ nodeId
            OrderedMap.empty } := by
      simp only [GuardedRun.run, List.foldl_cons, List.foldl_nil, Operation.apply, registered]
      rfl
    rw [placed]
    have nodes : ∀ other, (store.adapter.addNodeWithId registry type ⟨0, 0⟩ nodeId
        OrderedMap.empty).editor.nodes.get? other =
          if other = nodeId then some (Node.restored nodeClass type ⟨0, 0⟩ nodeId OrderedMap.empty)
          else store.adapter.editor.nodes.get? other :=
      WorkflowAdapter.addNodeWithId_nodes registered named
    refine ⟨⟨Node.restored nodeClass type ⟨0, 0⟩ nodeId OrderedMap.empty, ?_, rfl⟩, ?_, ?_⟩
    · exact (nodes nodeId).trans (if_pos rfl)
    · exact fun other different => (nodes other).trans (if_neg different)
    · exact WorkflowAdapter.addNodeWithId_connections

/-- Remove what holds the generated identifier, then draw the connection. -/
def redrawn (ends : Endpoints) : List Operation := [
  .adapterRemoveConnection ends.generateId,
  .adapterAddConnection ends.source ends.sourceHandle ends.target ends.targetHandle]

theorem id_ne_of_mem_eraseP {connections : List Connection} {connectionId : String}
    {other : Connection} (identified : (connections.map Connection.id).Nodup)
    (left : other ∈ connections.eraseP fun conn => conn.id == connectionId) :
    other.id ≠ connectionId := by
  induction connections with
  | nil => cases left
  | cons first rest ih =>
      obtain ⟨alone, restIdentified⟩ := List.nodup_cons.mp identified
      by_cases here : first.id = connectionId
      · rw [List.eraseP_cons_of_pos (by simpa using here)] at left
        intro same
        exact alone (List.mem_map.mpr ⟨other, left, same.trans here.symm⟩)
      · rw [List.eraseP_cons_of_neg (by simpa using here)] at left
        rcases List.mem_cons.mp left with rfl | later
        · exact here
        · exact ih restIdentified later

theorem run_redrawn {store : Store} (conn : Connection)
    (member : conn ∈ store.adapter.editor.connections)
    (identified : (store.adapter.editor.connections.map Connection.id).Nodup)
    (named : conn.id ≠ conn.endpoints.generateId) (unlooped : conn.source ≠ conn.target)
    {source target : Node} (sourceFound : store.adapter.editor.nodes.get? conn.source = some source)
    (targetFound : store.adapter.editor.nodes.get? conn.target = some target)
    (fits : WorkflowEditor.socketsMatch registry source target conn.sourceHandle
      conn.targetHandle = true) :
    ¬ (GuardedRun.run (Operation.apply registry) store
      (redrawn conn.endpoints)).adapter.editor.Intact := by
  intro intact
  have removed := store.adapter.removeConnection_connections conn.endpoints.generateId
  have kept : conn ∈ (store.adapter.removeConnection
      conn.endpoints.generateId).editor.connections := by
    rw [removed]
    exact (List.mem_eraseP_of_neg (by simpa using named)).mpr member
  have fresh : ∀ other ∈ (store.adapter.removeConnection
      conn.endpoints.generateId).editor.connections, other.id ≠ conn.endpoints.generateId := by
    intro other listed
    rw [removed] at listed
    exact id_ne_of_mem_eraseP identified listed
  have accepted : (store.adapter.removeConnection conn.endpoints.generateId).editor.canConnect
      registry conn.source conn.sourceHandle conn.target conn.targetHandle = true := by
    refine canConnect_iff.mpr ⟨⟨source, target, ?_, ?_, fits⟩, fresh, unlooped⟩
    · rw [WorkflowAdapter.removeConnection_nodes]
      exact sourceFound
    · rw [WorkflowAdapter.removeConnection_nodes]
      exact targetFound
  have drawn : (GuardedRun.run (Operation.apply registry) store
      (redrawn conn.endpoints)).adapter.editor.connections =
      (store.adapter.removeConnection conn.endpoints.generateId).editor.connections ++
        [Connection.new conn.source conn.sourceHandle conn.target conn.targetHandle] := by
    refine WorkflowAdapter.addConnection_connections.trans ?_
    exact if_pos accepted
  have distinct := intact.distinct
  rw [drawn, List.map_map, List.map_append] at distinct
  have twice := (List.nodup_append.mp distinct).2.2 conn.endpoints
    (List.mem_map.mpr ⟨conn, kept, rfl⟩) conn.endpoints (List.mem_singleton.mpr rfl)
  exact twice rfl

theorem breaks {store : Store} (intact : snapshot.Intact) (loadable : snapshot.Loadable registry)
    (identified : (snapshot.connections.map ConnectionData.loadedId).Nodup)
    {data : ConnectionData} (member : data ∈ snapshot.connections)
    (connectable : snapshot.Connectable registry data.endpoints)
    (named : data.loadedId ≠ data.endpoints.generateId)
    (loaded : store.adapter = (WorkflowAdapter.fromJSON registry snapshot).1) :
    ∃ operations, (∀ operation ∈ operations, Operation.edits operation = true) ∧
      ¬ (GuardedRun.run (Operation.apply registry) store operations).adapter.editor.Intact := by
  obtain ⟨sourceClass, targetClass, ⟨sourceType, sourceKnown, sourceAdmitted⟩,
    ⟨targetType, targetKnown, targetAdmitted⟩, outSocket, inSocket, out, into, compatible⟩ :=
    connectable
  have editor : store.adapter.editor = (WorkflowEditor.fromJSON registry snapshot).1 := by
    rw [loaded, fromJSON_editor]
  have blank : ∀ nodeId type, snapshot.Admits nodeId type → nodeId = "" →
      ∃ node, store.adapter.editor.nodes.get? nodeId = some node ∧ node.type = type := by
    intro nodeId type admitted empty
    obtain ⟨source, listed, own, sameType⟩ := admitted empty
    obtain ⟨node, found, read⟩ := loadable.found intact.nodes listed
    obtain ⟨_, readType, _⟩ := Node.fromJSON_ok read
    rw [own, ← empty, ← editor] at found
    exact ⟨node, found, readType.trans sameType⟩
  have unlooped := intact.unlooped (data.id, data.endpoints) (List.mem_map.mpr ⟨data, member, rfl⟩)
  obtain ⟨⟨source, sourceFound, sourceTyped⟩, otherKept, firstConnections⟩ :=
    run_retyped sourceKnown (blank _ _ sourceAdmitted)
  have targetBlank : data.endpoints.target = "" → ∃ node, (GuardedRun.run (Operation.apply registry)
      store (retyped data.endpoints.source sourceType)).adapter.editor.nodes.get?
        data.endpoints.target = some node ∧ node.type = targetType := by
    intro empty
    rw [otherKept _ fun same => unlooped same.symm]
    exact blank _ _ targetAdmitted empty
  obtain ⟨⟨target, targetFound, targetTyped⟩, sourceKept, secondConnections⟩ :=
    run_retyped targetKnown targetBlank
  rw [← sourceKept _ unlooped] at sourceFound
  refine ⟨retyped data.endpoints.source sourceType ++ (retyped data.endpoints.target targetType ++
    redrawn data.endpoints), ?_, ?_⟩
  · intro operation listed
    rcases List.mem_append.mp listed with inFirst | later
    · exact retyped_edits _ _ operation inFirst
    · rcases List.mem_append.mp later with inSecond | inThird
      · exact retyped_edits _ _ operation inSecond
      · rcases List.mem_pair.mp inThird with rfl | rfl <;> rfl
  · have connections := (secondConnections.trans firstConnections).trans
      (congrArg WorkflowEditor.connections editor)
    rw [loadable.connections] at connections
    rw [GuardedRun.run_append, GuardedRun.run_append]
    refine run_redrawn (Connection.fromJSON data) ?_ ?_ ?_ unlooped sourceFound targetFound ?_
    · rw [connections]
      exact List.mem_map.mpr ⟨data, member, rfl⟩
    · rw [connections, map_id_fromJSON]
      exact identified
    · rw [Connection.fromJSON_id]
      exact named
    · refine socketsMatch_iff.mpr ⟨sourceClass, targetClass, outSocket, inSocket, ?_, ?_, out, into,
        compatible⟩
      · rw [sourceTyped]
        exact sourceKnown
      · rw [targetTyped]
        exact targetKnown

end Invariant

/-!
## Runs of edits
-/

/-- Two nodes and one connection, with the identifier that is given. -/
def linkedNodes (connectionId : String) : Snapshot where
  nodes := [
    { id := "n_1", type := "noop", label := none, position := none, config := none,
      metaFields := none },
    { id := "n_2", type := "noop", label := none, position := none, config := none,
      metaFields := none }]
  connections := [
    { id := some connectionId, source := "n_1", sourceHandle := "result", target := "n_2",
      targetHandle := "data", metaFields := none }]

theorem linkedNodes_intact (connectionId : String) : (linkedNodes connectionId).Intact where
  nodes := (by decide : ["n_1", "n_2"].Nodup)
  identified := List.nodup_singleton _
  anchored conn member := by
    cases List.mem_singleton.mp member
    exact ⟨List.mem_cons_self, List.mem_cons_of_mem _ List.mem_cons_self⟩
  unlooped conn member := by
    cases List.mem_singleton.mp member
    exact (by decide : "n_1" ≠ "n_2")
  distinct := List.nodup_singleton _

def linkedStore (connectionId : String) : Store :=
  { Store.initial with
    adapter := (WorkflowAdapter.fromJSON noopRegistry (linkedNodes connectionId)).1 }

end WorkflowStudio.Editor
