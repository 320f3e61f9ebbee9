import WorkflowStudio.Editor.WellFormedProperties

/-! What `fromJSON` reads from a snapshot: which snapshots load, and the nodes
and connections of a graph that loaded. -/

set_option autoImplicit false

namespace WorkflowStudio.Editor

open Lib

def Registry.Knows (registry : Registry) (data : NodeData) : Bool := (registry data.type).isSome

/-- The class of the node is registered, and its configuration has no inherited key at
which `setConfig` throws. -/
def Registry.Loads (registry : Registry) (data : NodeData) : Bool :=
  match registry data.type, data.config with
  | none, _ => false
  | some _, none => true
  | some nodeClass, some config => !(nodeClass.new data.type).setConfigThrows config

section Nodes

variable {registry : Registry}

theorem Registry.loads_iff {data : NodeData} :
    registry.Loads data = true ↔ registry.Knows data = true ∧ ∀ nodeClass config,
      registry data.type = some nodeClass → data.config = some config →
        (nodeClass.new data.type).setConfigThrows config = false := by
  unfold Registry.Loads Registry.Knows
  cases registry data.type with
  | none => simp
  | some nodeClass => cases data.config <;> simp

theorem Node.fromJSON_ok {data : NodeData} {node : Node}
    (loaded : Node.fromJSON registry data = .ok node) :
    node.id = data.id ∧ node.type = data.type ∧ registry.Loads data = true := by
  cases registered : registry data.type with
  | none =>
      unfold Node.fromJSON at loaded
      simp only [registered] at loaded
      cases loaded
  | some nodeClass =>
      have read := Node.fromJSON_of_registered registered loaded
      have loads : registry.Loads data = true := by
        unfold Node.fromJSON at loaded
        unfold Registry.Loads
        simp only [registered] at loaded ⊢
        cases configured : data.config with
        | none => rfl
        | some config =>
            simp only [configured] at loaded ⊢
            split at loaded
            · cases loaded
            · next quiet => exact (Bool.not_eq_true' _).mpr (Bool.eq_false_iff.mpr quiet)
      subst read
      cases data.config with
      | none => exact ⟨rfl, rfl, loads⟩
      | some config => exact ⟨rfl, rfl, loads⟩

theorem Node.fromJSON_error {data : NodeData} {error : String}
    (failed : Node.fromJSON registry data = .error error) : registry.Loads data = false := by
  unfold Node.fromJSON at failed
  unfold Registry.Loads
  cases registered : registry data.type with
  | none => rfl
  | some nodeClass =>
      simp only [registered] at failed ⊢
      cases configured : data.config with
      | none =>
          simp only [configured] at failed
          cases failed
      | some config =>
          simp only [configured] at failed ⊢
          split at failed
          · next throws => exact (congrArg not throws)
          · cases failed

theorem loadNodes_loads (data : List NodeData) (nodes : OrderedMap String Node) (maxId : Nat) :
    (WorkflowEditor.loadNodes registry data nodes maxId).2.2 = none ↔
      ∀ node ∈ data, registry.Loads node = true := by
  induction data generalizing nodes maxId with
  | nil => exact ⟨fun _ _ member => (nomatch member), fun _ => rfl⟩
  | cons first rest ih =>
      unfold WorkflowEditor.loadNodes
      cases loaded : Node.fromJSON registry first with
      | error error =>
          have unknown := Node.fromJSON_error loaded
          simp only [reduceCtorEq, List.mem_cons, forall_eq_or_imp, unknown, Bool.false_eq_true,
            false_and]
      | ok node =>
          obtain ⟨_, _, known⟩ := Node.fromJSON_ok loaded
          simp only [ih, List.mem_cons, forall_eq_or_imp, known, true_and]

/-- Every node of the graph was there before or comes from the snapshot. -/
theorem loadNodes_source (data : List NodeData) (nodes : OrderedMap String Node) (maxId : Nat)
    {nodeId : String} {node : Node}
    (found : (WorkflowEditor.loadNodes registry data nodes maxId).1.get? nodeId = some node) :
    nodes.get? nodeId = some node ∨ ∃ source ∈ data, source.id = nodeId ∧ source.type = node.type := by
  induction data generalizing nodes maxId with
  | nil => exact .inl found
  | cons first rest ih =>
      unfold WorkflowEditor.loadNodes at found
      cases loaded : Node.fromJSON registry first with
      | error error =>
          simp only [loaded] at found
          exact .inl found
      | ok placed =>
          simp only [loaded] at found
          obtain ⟨own, sameType, _⟩ := Node.fromJSON_ok loaded
          rcases ih _ _ found with before | ⟨source, member, same⟩
          · rw [OrderedMap.get?_set] at before
            split at before
            · next here =>
                cases before
                exact .inr ⟨first, List.mem_cons_self, own.symm.trans here.symm, sameType.symm⟩
            · exact .inl before
          · exact .inr ⟨source, List.mem_cons_of_mem _ member, same⟩

/-- The entry that a node of the snapshot becomes. -/
def LoadsAs (registry : Registry) (data : NodeData) (entry : String × Node) : Prop :=
  entry.1 = data.id ∧ Node.fromJSON registry data = .ok entry.2

theorem loadsAs_of_mem {data : List NodeData} {entries : List (String × Node)} {node : NodeData}
    (each : List.Forall₂ (LoadsAs registry) data entries) (member : node ∈ data) :
    ∃ entry ∈ entries, LoadsAs registry node entry := by
  induction each with
  | nil => cases member
  | cons here later ih =>
      rcases List.mem_cons.mp member with rfl | further
      · exact ⟨_, List.mem_cons_self, here⟩
      · obtain ⟨entry, listed, loads⟩ := ih further
        exact ⟨entry, List.mem_cons_of_mem _ listed, loads⟩

/-- Nodes with distinct identifiers are placed one after the other. -/
theorem loadNodes_entries (data : List NodeData) (nodes : OrderedMap String Node) (maxId : Nat)
    (loadable : ∀ node ∈ data, registry.Loads node = true)
    (distinct : (data.map NodeData.id).Nodup)
    (apart : ∀ node ∈ data, node.id ∉ nodes.keys) :
    ∃ entries, (WorkflowEditor.loadNodes registry data nodes maxId).1.entries =
        nodes.entries ++ entries ∧ List.Forall₂ (LoadsAs registry) data entries := by
  induction data generalizing nodes maxId with
  | nil => exact ⟨[], (List.append_nil _).symm, .nil⟩
  | cons first rest ih =>
      obtain ⟨firstApart, restDistinct⟩ := List.nodup_cons.mp distinct
      unfold WorkflowEditor.loadNodes
      cases loaded : Node.fromJSON registry first with
      | error error =>
          have unknown := Node.fromJSON_error loaded
          rw [loadable first List.mem_cons_self] at unknown
          cases unknown
      | ok node =>
          obtain ⟨own, _, _⟩ := Node.fromJSON_ok loaded
          have absent : node.id ∉ nodes.keys := own ▸ apart first List.mem_cons_self
          have placed := OrderedMap.keys_set_of_absent absent node
          have restApart : ∀ later ∈ rest, later.id ∉ (nodes.set node.id node).keys := by
            intro later member listed
            rw [OrderedMap.keys, placed, List.map_append] at listed
            rcases List.mem_append.mp listed with before | here
            · exact apart later (List.mem_cons_of_mem _ member) before
            · have same : later.id = first.id := (List.mem_singleton.mp here).trans own
              exact firstApart (List.mem_map.mpr ⟨later, member, same⟩)
          obtain ⟨entries, appended, each⟩ := ih (nodes.set node.id node)
            (max maxId ((idNumber node.id).getD 0))
            (fun later member => loadable later (List.mem_cons_of_mem _ member)) restDistinct restApart
          refine ⟨(node.id, node) :: entries, ?_, .cons ⟨own, loaded⟩ each⟩
          rw [appended, placed, List.append_assoc]
          rfl

end Nodes

/-!
## Whole snapshots
-/

/-- Every node loads. -/
def Snapshot.Loadable (registry : Registry) (snapshot : Snapshot) : Prop :=
  ∀ data ∈ snapshot.nodes, registry.Loads data = true

instance (registry : Registry) (snapshot : Snapshot) : Decidable (snapshot.Loadable registry) :=
  inferInstanceAs (Decidable (∀ data ∈ snapshot.nodes, registry.Loads data = true))

section Snapshots

variable {registry : Registry} {snapshot : Snapshot}

variable (registry snapshot) in
theorem fromJSON_editor : (WorkflowAdapter.fromJSON registry snapshot).1.editor =
    (WorkflowEditor.fromJSON registry snapshot).1 := by
  unfold WorkflowAdapter.fromJSON
  cases WorkflowEditor.fromJSON registry snapshot with
  | mk editor error => cases error <;> rfl

variable (registry snapshot) in
theorem fromJSON_nodes : (WorkflowEditor.fromJSON registry snapshot).1.nodes =
    (WorkflowEditor.loadNodes registry snapshot.nodes OrderedMap.empty 0).1 := by
  unfold WorkflowEditor.fromJSON
  cases WorkflowEditor.loadNodes registry snapshot.nodes OrderedMap.empty 0 with
  | mk nodes left =>
      obtain ⟨maxId, error⟩ := left
      cases error <;> rfl

theorem Snapshot.Loadable.connections (loadable : snapshot.Loadable registry) :
    (WorkflowEditor.fromJSON registry snapshot).1.connections =
      snapshot.connections.map Connection.fromJSON := by
  have loads := (loadNodes_loads snapshot.nodes OrderedMap.empty 0).mpr loadable
  unfold WorkflowEditor.fromJSON
  cases result : WorkflowEditor.loadNodes registry snapshot.nodes OrderedMap.empty 0 with
  | mk nodes left =>
      obtain ⟨maxId, error⟩ := left
      rw [result] at loads
      cases loads
      rfl

theorem Snapshot.Loadable.loads (loadable : snapshot.Loadable registry) :
    (WorkflowEditor.fromJSON registry snapshot).2 = none := by
  have loads := (loadNodes_loads snapshot.nodes OrderedMap.empty 0).mpr loadable
  unfold WorkflowEditor.fromJSON
  cases result : WorkflowEditor.loadNodes registry snapshot.nodes OrderedMap.empty 0 with
  | mk nodes left =>
      obtain ⟨maxId, error⟩ := left
      rw [result] at loads
      cases loads
      rfl

theorem Snapshot.Loadable.returns (loadable : snapshot.Loadable registry) :
    (WorkflowAdapter.fromJSON registry snapshot).2 = none := by
  have loads := loadable.loads
  unfold WorkflowAdapter.fromJSON
  cases result : WorkflowEditor.fromJSON registry snapshot with
  | mk editor error =>
      rw [result] at loads
      cases loads
      rfl

theorem Snapshot.Loadable.nodes (loadable : snapshot.Loadable registry)
    (distinct : (snapshot.nodes.map NodeData.id).Nodup) :
    List.Forall₂ (LoadsAs registry) snapshot.nodes
      (WorkflowEditor.fromJSON registry snapshot).1.nodes.entries := by
  obtain ⟨entries, placed, each⟩ := loadNodes_entries snapshot.nodes OrderedMap.empty 0 loadable
    distinct fun _ _ listed => nomatch listed
  rw [fromJSON_nodes, placed]
  exact each

theorem Snapshot.Loadable.found (loadable : snapshot.Loadable registry)
    (distinct : (snapshot.nodes.map NodeData.id).Nodup) {data : NodeData}
    (member : data ∈ snapshot.nodes) :
    ∃ node, (WorkflowEditor.fromJSON registry snapshot).1.nodes.get? data.id = some node ∧
      Node.fromJSON registry data = .ok node := by
  have placed := loadable.nodes distinct
  generalize (WorkflowEditor.fromJSON registry snapshot).1.nodes = nodes at placed
  obtain ⟨entry, listed, own, loaded⟩ := loadsAs_of_mem placed member
  exact ⟨entry.2, own ▸ OrderedMap.get?_eq_some_iff.mpr listed, loaded⟩

/-- A snapshot with a node that does not load leaves a graph without connections. -/
theorem fromJSON_refused (refused : ¬ snapshot.Loadable registry) :
    (WorkflowEditor.fromJSON registry snapshot).1.connections = [] := by
  unfold WorkflowEditor.fromJSON
  cases result : WorkflowEditor.loadNodes registry snapshot.nodes OrderedMap.empty 0 with
  | mk nodes left =>
      obtain ⟨maxId, error⟩ := left
      cases error with
      | some error => rfl
      | none =>
          have loadable : snapshot.Loadable registry := by
            refine (loadNodes_loads snapshot.nodes OrderedMap.empty 0).mp ?_
            rw [result]
          exact absurd loadable refused

end Snapshots

end WorkflowStudio.Editor
