import WorkflowStudio.Editor.AdapterInvariant

/-! What holds of the adapter after any sequence of operations: nodes are
stored under their identifiers with the controls of their class, and the
mirror shows the graph or, after a load that failed, nothing. -/

set_option autoImplicit false

namespace WorkflowStudio.Editor

open Lib

/-- The node has the controls and hidden defaults that its class declares, and
metadata that starts with the keys of a new node. -/
def Node.Shaped (registry : Registry) (node : Node) : Prop :=
  ∃ nodeClass, registry node.type = some nodeClass ∧
    node.controls.keys = nodeClass.controls.keys ∧
    node.hiddenDefaults.keys = nodeClass.hiddenDefaults.keys ∧
    defaultNodeMeta.keys <+: node.metaFields.keys

def Connection.Shaped (conn : Connection) : Prop :=
  conn.id ≠ "" ∧ defaultConnectionMeta.keys <+: conn.metaFields.keys

/-- Every node is stored under its own identifier and shaped by its class. -/
def NodesShaped (registry : Registry) (nodes : OrderedMap String Node) : Prop :=
  ∀ nodeId node, nodes.get? nodeId = some node → node.id = nodeId ∧ node.Shaped registry

structure WorkflowAdapter.WellFormed (registry : Registry) (adapter : WorkflowAdapter) :
    Prop where
  shaped : NodesShaped registry adapter.editor.nodes
  connected : ∀ conn ∈ adapter.editor.connections, conn.Shaped
  mirrored : adapter.ui = adapter.editor.mirror ∨ adapter.ui = WorkflowEditor.empty.mirror

section Shaped

variable {registry : Registry} {nodes : OrderedMap String Node} {node : Node}

theorem NodesShaped.empty : NodesShaped registry OrderedMap.empty :=
  fun _ _ found => nomatch found

theorem NodesShaped.set (shaped : NodesShaped registry nodes) (node : Node)
    (fits : node.Shaped registry) :
    NodesShaped registry (nodes.set node.id node) := by
  intro nodeId other found
  rw [OrderedMap.get?_set] at found
  split at found
  · next same =>
      cases found
      exact ⟨same.symm, fits⟩
  · exact shaped nodeId other found

theorem NodesShaped.erase (shaped : NodesShaped registry nodes) (removed : String) :
    NodesShaped registry (nodes.erase removed) := by
  intro nodeId other found
  rw [OrderedMap.get?_erase] at found
  split at found
  · cases found
  · exact shaped nodeId other found

theorem Node.Shaped.setConfig (fits : node.Shaped registry) (config : Config) :
    (node.setConfig config).Shaped registry := by
  obtain ⟨nodeClass, registered, controls, hidden, metaKeys⟩ := fits
  refine ⟨nodeClass, registered, ?_, ?_, metaKeys⟩
  · exact (OrderedMap.keys_assign _ _).trans controls
  · exact (OrderedMap.keys_assign _ _).trans hidden

theorem Node.Shaped.configured (fits : node.Shaped registry) (config : Config) :
    (node.configured config).Shaped registry := by
  unfold Node.configured
  split
  · obtain ⟨nodeClass, registered, controls, hidden, metaKeys⟩ := fits
    exact ⟨nodeClass, registered, (OrderedMap.keys_assign _ _).trans controls, hidden, metaKeys⟩
  · exact fits.setConfig config

theorem Node.shaped_new {nodeClass : NodeClass} {type : String}
    (registered : registry type = some nodeClass) : (nodeClass.new type).Shaped registry :=
  ⟨nodeClass, registered, rfl, rfl, List.prefix_rfl⟩

/-- The fields of a loaded `meta` come after the default ones. -/
theorem keys_prefix_loadedMeta (given : Option Config) :
    defaultNodeMeta.keys <+: (match given with
      | none => defaultNodeMeta
      | some metaFields => defaultNodeMeta.merge metaFields).keys := by
  cases given with
  | none => exact List.prefix_rfl
  | some metaFields => exact OrderedMap.keys_prefix_merge List.prefix_rfl metaFields

theorem Node.fromJSON_of_registered {data : NodeData} {nodeClass : NodeClass} {node : Node}
    (registered : registry data.type = some nodeClass)
    (loaded : Node.fromJSON registry data = .ok node) :
    node = match data.config with
      | none => Node.read nodeClass data
      | some config => (Node.read nodeClass data).setConfig config := by
  unfold Node.fromJSON at loaded
  simp only [registered] at loaded
  cases configured : data.config with
  | none =>
      simp only [configured] at loaded
      exact (Except.ok.inj loaded).symm
  | some config =>
      simp only [configured] at loaded
      split at loaded
      · cases loaded
      · exact (Except.ok.inj loaded).symm

theorem Node.shaped_fromJSON {data : NodeData}
    (loaded : Node.fromJSON registry data = .ok node) : node.Shaped registry := by
  cases registered : registry data.type with
  | none =>
      unfold Node.fromJSON at loaded
      rw [registered] at loaded
      cases loaded
  | some nodeClass =>
      have metaKeys := keys_prefix_loadedMeta data.metaFields
      rw [Node.fromJSON_of_registered registered loaded]
      cases data.config with
      | none => exact ⟨nodeClass, registered, rfl, rfl, metaKeys⟩
      | some config =>
          exact Node.Shaped.setConfig ⟨nodeClass, registered, rfl, rfl, metaKeys⟩ config

theorem Node.Shaped.config {nodeClass : NodeClass} (fits : node.Shaped registry)
    (registered : registry node.type = some nodeClass) :
    nodeClass.controls.assign node.getConfig = node.controls ∧
      nodeClass.hiddenDefaults.assign node.getConfig = node.hiddenDefaults := by
  obtain ⟨declared, found, controlKeys, hiddenKeys, _⟩ := fits
  rw [registered, Option.some.injEq] at found
  subst declared
  constructor
  · apply OrderedMap.ext_keys
    · rw [OrderedMap.keys_assign, controlKeys]
    · intro key member
      rw [OrderedMap.keys_assign] at member
      obtain ⟨fallback, declared⟩ := OrderedMap.mem_keys_iff.mp member
      obtain ⟨value, current⟩ := OrderedMap.mem_keys_iff.mp (controlKeys ▸ member)
      rw [OrderedMap.get?_assign, declared, Node.getConfig, OrderedMap.get?_union, current]
      rfl
  · apply OrderedMap.ext_keys
    · rw [OrderedMap.keys_assign, hiddenKeys]
    · intro key member
      rw [OrderedMap.keys_assign] at member
      have uncontrolled : node.controls.get? key = none := by
        rw [OrderedMap.get?_eq_none_iff, controlKeys]
        exact nodeClass.separate key member
      obtain ⟨fallback, declared⟩ := OrderedMap.mem_keys_iff.mp member
      obtain ⟨value, current⟩ := OrderedMap.mem_keys_iff.mp (hiddenKeys ▸ member)
      rw [OrderedMap.get?_assign, declared, Node.getConfig, OrderedMap.get?_union, uncontrolled,
        current]
      rfl

/-- A node of the same class never throws at the configuration of a node. -/
theorem Node.Shaped.quiet {nodeClass : NodeClass} {other : Node} (fits : node.Shaped registry)
    (registered : registry node.type = some nodeClass)
    (declared : other.controls.keys = nodeClass.controls.keys) :
    other.setConfigThrows node.getConfig = false := by
  obtain ⟨own, found, controlKeys, hiddenKeys, _⟩ := fits
  rw [registered, Option.some.injEq] at found
  subst own
  refine List.any_eq_false.mpr fun key member => ?_
  have listed : key ∈ node.controls.keys ∨ key ∈ node.hiddenDefaults.keys :=
    OrderedMap.mem_keys_union member
  unfold Node.inherits
  rcases listed with control | hidden
  · have own : other.controls.keys.contains key = true := by
      rw [List.contains_iff_mem, declared, ← controlKeys]
      exact control
    simp only [own, Bool.not_true, Bool.and_false, Bool.false_eq_true, not_false_eq_true]
  · have plain := nodeClass.ownHidden key (hiddenKeys ▸ hidden)
    simp only [List.contains_iff_mem, plain, Bool.and_eq_true, false_and, not_false_eq_true]

theorem generateId_ne_empty (source sourceHandle target targetHandle : String) :
    Connection.generateId source sourceHandle target targetHandle ≠ "" := by
  intro empty
  have colon : ':' ∈ (Connection.generateId source sourceHandle target targetHandle).toList := by
    simp [Connection.generateId]
  rw [empty] at colon
  cases colon

theorem Connection.shaped_new (source sourceHandle target targetHandle : String) :
    (Connection.new source sourceHandle target targetHandle).Shaped :=
  ⟨generateId_ne_empty _ _ _ _, List.prefix_rfl⟩

theorem Connection.shaped_fromJSON (data : ConnectionData) :
    (Connection.fromJSON data).Shaped := by
  constructor
  · simp only [Connection.fromJSON]
    cases data.id with
    | none => exact generateId_ne_empty _ _ _ _
    | some id =>
        dsimp only
        split
        · exact generateId_ne_empty _ _ _ _
        · next named => exact named
  · simp only [Connection.fromJSON]
    cases data.metaFields with
    | none => exact List.prefix_rfl
    | some metaFields => exact OrderedMap.keys_prefix_merge List.prefix_rfl metaFields

theorem patchedMeta_keys {prev : Config} (starts : defaultNodeMeta.keys <+: prev.keys)
    (patch : Config) :
    defaultNodeMeta.keys <+: (WorkflowEditor.patchedMeta prev patch).keys := by
  have merged := OrderedMap.keys_prefix_merge starts patch
  unfold WorkflowEditor.patchedMeta
  dsimp only
  split
  · split
    · exact OrderedMap.keys_prefix_set merged _ _
    · exact merged
  · exact merged

end Shaped

/-!
## The operations of the core
-/

section Core

variable {registry : Registry} {editor : WorkflowEditor}

theorem modifyNode_shaped {nodeId : String} {change : Node → Node}
    (shaped : NodesShaped registry editor.nodes)
    (keeps : ∀ node, (change node).id = node.id)
    (fits : ∀ node, node.Shaped registry → (change node).Shaped registry) :
    NodesShaped registry (editor.modifyNode nodeId change).nodes := by
  unfold WorkflowEditor.modifyNode
  cases found : editor.nodes.get? nodeId with
  | none => exact shaped
  | some node =>
      obtain ⟨own, shape⟩ := shaped nodeId node found
      have stored := shaped.set (change node) (fits node shape)
      rw [keeps, own] at stored
      exact stored

theorem addNode_shaped {node : Node} (shaped : NodesShaped registry editor.nodes)
    (fits : node.Shaped registry) (position : Position) :
    NodesShaped registry (editor.addNode node position).nodes := by
  unfold WorkflowEditor.addNode
  split
  · exact shaped.set { node with id := editor.nextId, position := position } fits
  · exact shaped.set { node with position := position } fits

theorem modifyNode_connections (nodeId : String) (change : Node → Node) :
    (editor.modifyNode nodeId change).connections = editor.connections := by
  unfold WorkflowEditor.modifyNode
  split <;> rfl

theorem addNode_connections (node : Node) (position : Position) :
    (editor.addNode node position).connections = editor.connections := by
  unfold WorkflowEditor.addNode
  split <;> rfl

variable (registry) in
theorem loadNodes_shaped (data : List NodeData) (nodes : OrderedMap String Node) (maxId : Nat)
    (shaped : NodesShaped registry nodes) :
    NodesShaped registry (WorkflowEditor.loadNodes registry data nodes maxId).1 := by
  induction data generalizing nodes maxId with
  | nil => exact shaped
  | cons first rest ih =>
      unfold WorkflowEditor.loadNodes
      cases loaded : Node.fromJSON registry first with
      | error error => exact shaped
      | ok node => exact ih _ _ (shaped.set node (Node.shaped_fromJSON loaded))

end Core

/-!
## The operations of the adapter
-/

namespace WorkflowAdapter.WellFormed

variable {registry : Registry} {adapter : WorkflowAdapter}

theorem synced {editor : WorkflowEditor} (shaped : NodesShaped registry editor.nodes)
    (connected : ∀ conn ∈ editor.connections, conn.Shaped) :
    (WorkflowAdapter.synced editor).WellFormed registry :=
  ⟨shaped, connected, .inl rfl⟩

theorem empty : WorkflowAdapter.empty.WellFormed registry :=
  synced NodesShaped.empty fun _ member => nomatch member

theorem addNode (formed : adapter.WellFormed registry) (type : String) (position : Position) :
    (adapter.addNode registry type position).1.WellFormed registry := by
  unfold WorkflowAdapter.addNode
  cases registered : registry type with
  | none => exact formed
  | some nodeClass =>
      refine synced (addNode_shaped formed.shaped (Node.shaped_new registered) position) ?_
      rw [addNode_connections]
      exact formed.connected

theorem addNodeWithId (formed : adapter.WellFormed registry) (type : String)
    (position : Position) (forcedId : String) (config : Config) :
    (adapter.addNodeWithId registry type position forcedId config).WellFormed registry := by
  unfold WorkflowAdapter.addNodeWithId
  cases registered : registry type with
  | none => exact formed
  | some nodeClass =>
      have fits : (({ nodeClass.new type with id := forcedId } : Node).setConfig config).Shaped
          registry :=
        Node.Shaped.setConfig ⟨nodeClass, registered, rfl, rfl, List.prefix_rfl⟩ config
      refine ⟨addNode_shaped formed.shaped fits position, ?_, .inl rfl⟩
      dsimp only
      rw [addNode_connections]
      exact formed.connected

theorem removeNode (formed : adapter.WellFormed registry) (nodeId : String) :
    (adapter.removeNode nodeId).WellFormed registry := by
  unfold WorkflowAdapter.removeNode WorkflowEditor.removeNode
  cases adapter.editor.nodes.get? nodeId with
  | none => exact formed
  | some node =>
      refine synced (formed.shaped.erase nodeId) fun conn member => ?_
      exact formed.connected conn (List.mem_filter.mp member).1

theorem addConnection (formed : adapter.WellFormed registry)
    (source sourceHandle target targetHandle : String) :
    (adapter.addConnection registry source sourceHandle target targetHandle).1.WellFormed
      registry := by
  unfold WorkflowAdapter.addConnection WorkflowEditor.addConnection
  split
  · exact formed
  · next editor connection added =>
      split at added
      · cases added
        refine synced formed.shaped fun conn member => ?_
        rcases List.mem_append.mp member with old | new
        · exact formed.connected conn old
        · rw [List.mem_singleton.mp new]
          exact Connection.shaped_new _ _ _ _
      · cases added

theorem removeConnection (formed : adapter.WellFormed registry) (connectionId : String) :
    (adapter.removeConnection connectionId).WellFormed registry := by
  unfold WorkflowAdapter.removeConnection
  split
  · exact synced formed.shaped fun conn member =>
      formed.connected conn (List.mem_of_mem_eraseP member)
  · exact formed

variable (registry) in
theorem fromJSON (data : Snapshot) :
    (WorkflowAdapter.fromJSON registry data).1.WellFormed registry := by
  have loaded := loadNodes_shaped registry data.nodes OrderedMap.empty 0 NodesShaped.empty
  unfold WorkflowAdapter.fromJSON WorkflowEditor.fromJSON
  cases result : WorkflowEditor.loadNodes registry data.nodes OrderedMap.empty 0 with
  | mk nodes left =>
      rw [result] at loaded
      obtain ⟨maxId, error⟩ := left
      cases error with
      | none =>
          refine synced loaded fun conn member => ?_
          obtain ⟨connData, _, rfl⟩ := List.mem_map.mp member
          exact Connection.shaped_fromJSON connData
      | some error => exact ⟨loaded, fun _ member => (nomatch member), .inr rfl⟩

theorem modified (formed : adapter.WellFormed registry) {nodeId : String} {change : Node → Node}
    (keeps : ∀ node, (change node).id = node.id)
    (fits : ∀ node, node.Shaped registry → (change node).Shaped registry) :
    WellFormed registry (match adapter.editor.nodes.get? nodeId with
      | none => adapter
      | some _ => WorkflowAdapter.synced (adapter.editor.modifyNode nodeId change)) := by
  cases adapter.editor.nodes.get? nodeId with
  | none => exact formed
  | some node =>
      refine synced (modifyNode_shaped formed.shaped keeps fits) ?_
      rw [modifyNode_connections]
      exact formed.connected

theorem setNodeConfig (formed : adapter.WellFormed registry) (nodeId : String)
    (config : Config) : (adapter.setNodeConfig nodeId config).WellFormed registry :=
  formed.modified (fun _ => rfl) fun _ fits => fits.setConfig config

theorem setNodeMeta (formed : adapter.WellFormed registry) (nodeId : String)
    (metaPatch : Config) : (adapter.setNodeMeta nodeId metaPatch).WellFormed registry := by
  refine formed.modified (fun _ => rfl) fun node fits => ?_
  obtain ⟨nodeClass, registered, controls, hidden, metaKeys⟩ := fits
  exact ⟨nodeClass, registered, controls, hidden, patchedMeta_keys metaKeys metaPatch⟩

theorem setNodeLabel (formed : adapter.WellFormed registry) (nodeId label : String) :
    (adapter.setNodeLabel nodeId label).WellFormed registry :=
  formed.modified (fun _ => rfl) fun _ fits => fits

theorem mirror_setEntries {entries : List (String × Node)} {nodeId : String} {old new : Node}
    (own : ∀ entry ∈ entries, entry.2.id = entry.1) (found : entries.lookup nodeId = some old)
    {change : UiNode → UiNode} (changed : new.toUi = change old.toUi) :
    (OrderedMap.setEntries nodeId new entries).map (fun entry => entry.2.toUi) =
      (entries.map fun entry => entry.2.toUi).modify
        ((entries.map fun entry => entry.2.toUi).findIdx fun shown => shown.id == nodeId)
        change := by
  induction entries with
  | nil => cases found
  | cons entry rest ih =>
      obtain ⟨key, current⟩ := entry
      have here : current.id = key := own (key, current) List.mem_cons_self
      rw [OrderedMap.lookup_cons_eq] at found
      by_cases same : nodeId = key
      · rw [if_pos same, Option.some.injEq] at found
        subst current
        have shown : (old.toUi.id == nodeId) = true := by
          rw [beq_iff_eq, same]
          exact here
        simp only [OrderedMap.setEntries, same, ↓reduceIte, List.map_cons]
        rw [List.findIdx_cons, ← same, shown, changed]
        rfl
      · rw [if_neg same] at found
        have elsewhere : (current.toUi.id == nodeId) = false := by
          rw [beq_eq_false_iff_ne]
          intro equal
          exact same (equal.symm.trans here)
        have later := ih (fun entry member => own entry (List.mem_cons_of_mem _ member)) found
        have different : key ≠ nodeId := fun equal => same equal.symm
        simp only [OrderedMap.setEntries, different, ↓reduceIte, List.map_cons]
        rw [List.findIdx_cons, elsewhere, later]
        rfl

theorem mirrored_set (formed : adapter.WellFormed registry) {nodeId : String} {old : Node}
    (found : adapter.editor.nodes.get? nodeId = some old) (new : Node)
    (change : UiNode → UiNode) (changed : new.toUi = change old.toUi) :
    (adapter.editor.nodes.set nodeId new).values.map Node.toUi =
      (adapter.editor.mirror).nodes.modify
        ((adapter.editor.mirror).nodes.findIdx fun shown => shown.id == nodeId) change := by
  have own : ∀ entry ∈ adapter.editor.nodes.entries, entry.2.id = entry.1 := by
    intro entry member
    exact (formed.shaped entry.1 entry.2 (OrderedMap.get?_eq_some_iff.mpr member)).1
  simp only [WorkflowEditor.mirror, OrderedMap.values, List.map_map]
  exact mirror_setEntries own found changed

theorem mirror_updatePosition (formed : adapter.WellFormed registry)
    (shown : adapter.ui = adapter.editor.mirror) (nodeId : String) (position : Position) :
    (adapter.updatePosition nodeId position).ui =
      (adapter.updatePosition nodeId position).editor.mirror := by
  unfold WorkflowAdapter.updatePosition
  cases found : adapter.editor.nodes.get? nodeId with
  | none => exact shown
  | some node =>
      dsimp only
      split
      · exact shown
      · have moved := formed.mirrored_set found { node with position := position }
          (fun shown => { shown with position := position }) rfl
        simp only [WorkflowEditor.updateNodePosition, WorkflowEditor.modifyNode, found, shown]
        rw [← moved]
        rfl

theorem updatePosition (formed : adapter.WellFormed registry) (nodeId : String)
    (position : Position) : (adapter.updatePosition nodeId position).WellFormed registry := by
  have mirrored : (adapter.updatePosition nodeId position).ui =
        (adapter.updatePosition nodeId position).editor.mirror ∨
      (adapter.updatePosition nodeId position).ui = WorkflowEditor.empty.mirror := by
    rcases formed.mirrored with shown | blank
    · exact .inl (formed.mirror_updatePosition shown nodeId position)
    · right
      unfold WorkflowAdapter.updatePosition
      cases adapter.editor.nodes.get? nodeId with
      | none => exact blank
      | some node =>
          dsimp only
          split
          · exact blank
          · simp only [blank]
            rfl
  refine ⟨?_, ?_, mirrored⟩
  · unfold WorkflowAdapter.updatePosition
    cases adapter.editor.nodes.get? nodeId with
    | none => exact formed.shaped
    | some node =>
        dsimp only
        split
        · exact formed.shaped
        · exact modifyNode_shaped formed.shaped (fun _ => rfl) fun _ fits => fits
  · rw [updatePosition_connections]
    exact formed.connected

/-- A change that no mirrored field shows leaves the mirror right. -/
theorem mirror_modifyNode (formed : adapter.WellFormed registry) (nodeId : String)
    {change : Node → Node} (unseen : ∀ node, (change node).toUi = node.toUi) :
    (adapter.editor.modifyNode nodeId change).mirror = adapter.editor.mirror := by
  unfold WorkflowEditor.modifyNode
  cases found : adapter.editor.nodes.get? nodeId with
  | none => rfl
  | some node =>
      have kept := formed.mirrored_set found (change node) id (unseen node)
      rw [List.modify_id] at kept
      simp only [WorkflowEditor.mirror, kept]

theorem mirror_configure (formed : adapter.WellFormed registry)
    (shown : adapter.ui = adapter.editor.mirror) (nodeId : String) (config : Config) :
    (adapter.configure nodeId config).1.ui =
      (adapter.configure nodeId config).1.editor.mirror := by
  have unseen : (adapter.editor.modifyNode nodeId fun node => node.setConfigUntil config).mirror =
      adapter.editor.mirror := formed.mirror_modifyNode nodeId fun _ => rfl
  unfold WorkflowAdapter.configure WorkflowAdapter.setNodeConfig
  cases adapter.editor.nodes.get? nodeId with
  | none => exact shown
  | some node =>
      dsimp only
      split
      · exact shown.trans unseen.symm
      · rfl

theorem configure (formed : adapter.WellFormed registry) (nodeId : String) (config : Config) :
    (adapter.configure nodeId config).1.WellFormed registry := by
  refine ⟨?_, ?_, ?_⟩
  · rw [WorkflowAdapter.configure_editor]
    exact modifyNode_shaped formed.shaped (fun node => node.configured_id config)
      fun _ fits => fits.configured config
  · rw [WorkflowAdapter.configure_editor, modifyNode_connections]
    exact formed.connected
  · rcases formed.mirrored with shown | blank
    · exact .inl (formed.mirror_configure shown nodeId config)
    · unfold WorkflowAdapter.configure WorkflowAdapter.setNodeConfig
      cases adapter.editor.nodes.get? nodeId with
      | none => exact .inr blank
      | some node =>
          dsimp only
          split
          · exact .inr blank
          · exact .inl rfl

theorem mirror_setControlValue (formed : adapter.WellFormed registry)
    (shown : adapter.ui = adapter.editor.mirror) (nodeId controlKey : String) (value : Value) :
    (adapter.setControlValue nodeId controlKey value).ui =
      (adapter.setControlValue nodeId controlKey value).editor.mirror := by
  have unseen : (adapter.setControlValue nodeId controlKey value).editor.mirror =
      adapter.editor.mirror := formed.mirror_modifyNode nodeId fun _ => rfl
  exact shown.trans unseen.symm

theorem setControlValue (formed : adapter.WellFormed registry) (nodeId controlKey : String)
    (value : Value) : (adapter.setControlValue nodeId controlKey value).WellFormed registry := by
  refine ⟨?_, ?_, ?_⟩
  · refine modifyNode_shaped formed.shaped (fun _ => rfl) fun node fits => ?_
    obtain ⟨nodeClass, registered, controls, hidden, metaKeys⟩ := fits
    refine ⟨nodeClass, registered, ?_, hidden, metaKeys⟩
    dsimp only
    split
    · next present => exact (OrderedMap.keys_set_of_get? present value).trans controls
    · exact controls
  · unfold WorkflowAdapter.setControlValue
    dsimp only
    rw [modifyNode_connections]
    exact formed.connected
  · rcases formed.mirrored with shown | blank
    · exact .inl (formed.mirror_setControlValue shown nodeId controlKey value)
    · exact .inr blank

theorem invariant (registry : Registry) :
    AdapterInvariant registry fun adapter => adapter.WellFormed registry where
  addNode _ type position formed := formed.addNode type position
  addNodeWithId _ type position forcedId config formed :=
    formed.addNodeWithId type position forcedId config
  removeNode _ nodeId formed := formed.removeNode nodeId
  updatePosition _ nodeId position formed := formed.updatePosition nodeId position
  configure _ nodeId config formed := formed.configure nodeId config
  setNodeMeta _ nodeId metaPatch formed := formed.setNodeMeta nodeId metaPatch
  setNodeLabel _ nodeId label formed := formed.setNodeLabel nodeId label
  setControlValue _ nodeId controlKey value formed :=
    formed.setControlValue nodeId controlKey value
  addConnection _ sourceId sourceHandle targetId targetHandle formed :=
    formed.addConnection sourceId sourceHandle targetId targetHandle
  removeConnection _ connectionId formed := formed.removeConnection connectionId

theorem performed (formed : adapter.WellFormed registry) (action : RecordedAction) :
    (action.run registry adapter).1.WellFormed registry :=
  (invariant registry).performed formed action

end WorkflowAdapter.WellFormed

/-!
## Runs of the store
-/

theorem Store.run_formed (registry : Registry) (operations : List Operation) :
    (Store.run registry operations).adapter.WellFormed registry := by
  have keeps : ∀ (store : Store) (operation : Operation), store.adapter.WellFormed registry →
      (operation.apply registry store).adapter.WellFormed registry :=
    fun _ _ formed => (WorkflowAdapter.WellFormed.invariant registry).apply formed
      ⟨fun snapshot _ => .fromJSON registry snapshot, fun _ => .empty⟩
  exact GuardedRun.run_invariant (fun store : Store => store.adapter.WellFormed registry) keeps
    .empty operations

end WorkflowStudio.Editor
