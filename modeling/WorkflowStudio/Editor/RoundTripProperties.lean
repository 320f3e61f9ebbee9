import WorkflowStudio.Editor.Events
import WorkflowStudio.Editor.GraphIntegrityProperties

/-! Loading a snapshot and saving it again. The configuration passes through
the controls and hidden defaults that the class declares, so what comes back is
the given value or the default of every declared key, and nothing else. -/

set_option autoImplicit false

namespace WorkflowStudio.Editor

open Lib

/-!
## Loading and saving
-/

/-- `fromJSON` and then `toJSON`. -/
def WorkflowEditor.reload (registry : Registry) (snapshot : Snapshot) : Except String Snapshot :=
  match fromJSON registry snapshot with
  | (_, some error) => .error error
  | (editor, none) => .ok editor.toJSON

/-!
## What comes back
-/

/-- The node that is saved for a given one. -/
structure SavedNode (nodeClass : NodeClass) (given saved : NodeData) : Prop where
  id : saved.id = given.id
  type : saved.type = given.type
  label : ∀ label, given.label = some label → label ≠ "" → saved.label = some label
  unlabelled : given.label = none ∨ given.label = some "" → saved.label = some nodeClass.label
  position : saved.position = some (given.position.getD ⟨0, 0⟩)
  config : ∃ config, saved.config = some config ∧ ∀ key, config.get? key =
    ((nodeClass.controls.get? key).or (nodeClass.hiddenDefaults.get? key)).map fun fallback =>
      (given.config.bind fun values => values.get? key).getD fallback
  metaFields : ∃ metaFields, saved.metaFields = some metaFields ∧ ∀ key, metaFields.get? key =
    (given.metaFields.bind fun values => values.get? key).or (defaultNodeMeta.get? key)

structure SavedConnection (given saved : ConnectionData) : Prop where
  endpoints : saved.endpoints = given.endpoints
  id : ∀ id, given.id = some id → id ≠ "" → saved.id = some id
  unnamed : given.id = none ∨ given.id = some "" →
    saved.id = some given.endpoints.generateId

section Nodes

variable {registry : Registry} {nodeClass : NodeClass}

/-- The two maps of a class are separate, so a hidden default is never shadowed. -/
theorem getConfig_assigned (nodeClass : NodeClass) (config : Config) (key : String) :
    ((nodeClass.controls.assign config).union (nodeClass.hiddenDefaults.assign config)).get? key =
      ((nodeClass.controls.get? key).or (nodeClass.hiddenDefaults.get? key)).map fun fallback =>
        (config.get? key).getD fallback := by
  rw [OrderedMap.get?_union, OrderedMap.get?_assign, OrderedMap.get?_assign]
  cases nodeClass.controls.get? key <;> rfl

theorem get?_loadedMeta (given : Option Config) (key : String) :
    (match given with
      | none => defaultNodeMeta
      | some metaFields => defaultNodeMeta.merge metaFields).get? key =
      (given.bind fun values => values.get? key).or (defaultNodeMeta.get? key) := by
  cases given with
  | none => rfl
  | some metaFields => exact OrderedMap.get?_merge _ _ _

theorem savedNode {given : NodeData} {node : Node}
    (registered : registry given.type = some nodeClass)
    (loaded : Node.fromJSON registry given = .ok node) : SavedNode nodeClass given node.toJSON := by
  have unthrown := Node.fromJSON_of_registered registered loaded
  clear loaded
  subst unthrown
  have label : ∀ label, given.label = some label → label ≠ "" →
      Node.labelFrom given nodeClass.label = label := by
    intro label found named
    simp only [Node.labelFrom, found, named, ↓reduceIte]
  have unlabelled : given.label = none ∨ given.label = some "" →
      Node.labelFrom given nodeClass.label = nodeClass.label := by
    rintro (missing | empty)
    · simp only [Node.labelFrom, missing]
    · simp only [Node.labelFrom, empty, ↓reduceIte]
  have metaFields := get?_loadedMeta given.metaFields
  cases configured : given.config with
  | none =>
      refine ⟨rfl, rfl, fun text found named => congrArg some (label text found named),
        fun absent => congrArg some (unlabelled absent), rfl, ⟨_, rfl, fun key => ?_⟩,
        ⟨_, rfl, metaFields⟩⟩
      change (nodeClass.controls.union nodeClass.hiddenDefaults).get? key = _
      rw [OrderedMap.get?_union]
      simp only [configured, Option.bind_none, Option.getD_none, Option.map_id']
  | some config =>
      refine ⟨rfl, rfl, fun text found named => congrArg some (label text found named),
        fun absent => congrArg some (unlabelled absent), rfl, ⟨_, rfl, fun key => ?_⟩,
        ⟨_, rfl, metaFields⟩⟩
      simp only [configured, Option.bind_some]
      exact getConfig_assigned nodeClass config key

theorem savedConnection (given : ConnectionData) :
    SavedConnection given (Connection.fromJSON given).toJSON := by
  have named := Connection.fromJSON_id given
  unfold ConnectionData.loadedId at named
  refine ⟨rfl, fun id found nonempty => congrArg some ?_, fun absent => congrArg some ?_⟩
  · rw [named, found]
    exact if_neg nonempty
  · rw [named]
    rcases absent with missing | empty
    · rw [missing]
    · rw [empty]
      exact if_pos rfl

end Nodes

/-!
## Whole snapshots
-/

/-- The class of every node is registered. -/
def Snapshot.Known (registry : Registry) (snapshot : Snapshot) : Prop :=
  ∀ data ∈ snapshot.nodes, registry.Knows data = true

instance (registry : Registry) (snapshot : Snapshot) : Decidable (snapshot.Known registry) :=
  inferInstanceAs (Decidable (∀ data ∈ snapshot.nodes, registry.Knows data = true))

/-- No configuration has a key that every script object inherits. -/
def Snapshot.OwnKeys (snapshot : Snapshot) : Prop :=
  ∀ data ∈ snapshot.nodes, ∀ config, data.config = some config →
    ∀ key ∈ config.keys, key ∉ inheritedKeys

theorem Snapshot.Known.loadable {registry : Registry} {snapshot : Snapshot}
    (known : snapshot.Known registry) (own : snapshot.OwnKeys) : snapshot.Loadable registry := by
  intro data member
  refine Registry.loads_iff.mpr ⟨known data member, fun nodeClass config _ configured => ?_⟩
  refine List.any_eq_false.mpr fun key listed inherited => ?_
  have among : inheritedKeys.contains key = true := (Bool.and_eq_true_iff.mp inherited).1
  exact own data member config configured key listed (List.contains_iff_mem.mp among)

/-- Every snapshot of registered types and distinct node identifiers loads, and
saving gives back its nodes and connections in order, each with the given value
of everything that its class declares and with the defaults of what is missing. -/
theorem reload_keeps (registry : Registry) (snapshot : Snapshot)
    (known : snapshot.Known registry) (distinct : (snapshot.nodes.map NodeData.id).Nodup)
    (own : snapshot.OwnKeys) :
    ∃ saved, WorkflowEditor.reload registry snapshot = .ok saved ∧
      List.Forall₂ (fun given kept => ∃ nodeClass, registry given.type = some nodeClass ∧
        SavedNode nodeClass given kept) snapshot.nodes saved.nodes ∧
      List.Forall₂ SavedConnection snapshot.connections saved.connections := by
  have loadable := known.loadable own
  refine ⟨(WorkflowEditor.fromJSON registry snapshot).1.toJSON, ?_, ?_, ?_⟩
  · have loads := loadable.loads
    unfold WorkflowEditor.reload
    cases result : WorkflowEditor.fromJSON registry snapshot with
    | mk editor error =>
        rw [result] at loads
        cases loads
        rfl
  · have placed := loadable.nodes distinct
    have saves : ∀ data (entry : String × Node), LoadsAs registry data entry →
        ∃ nodeClass, registry data.type = some nodeClass ∧
          SavedNode nodeClass data entry.2.toJSON := by
      intro data entry loads
      obtain ⟨nodeClass, registered⟩ :=
        Option.isSome_iff_exists.mp (Registry.loads_iff.mp (Node.fromJSON_ok loads.2).2.2).1
      exact ⟨nodeClass, registered, savedNode registered loads.2⟩
    simp only [WorkflowEditor.toJSON, OrderedMap.values, List.map_map, List.forall₂_map_right_iff]
    exact placed.imp saves
  · have connections := loadable.connections
    simp only [WorkflowEditor.toJSON, connections, List.map_map, List.forall₂_map_right_iff]
    exact List.forall₂_same.mpr fun data _ => savedConnection data

def requestClass : NodeClass where
  label := "Request"
  inputs := []
  outputs := [("response", dataSocket)]
  controls := OrderedMap.ofList [("url", .str "")]
  hiddenDefaults := OrderedMap.ofList [("timeout", .int 30)]
  separate := by decide
  ownHidden := by decide

def requestRegistry : Registry := fun type => if type = "request" then some requestClass else none

def requestNode (label : String) (config : List (String × Value)) : Snapshot where
  nodes := [
    { id := "n_1", type := "request", label := some label, position := none,
      config := some (OrderedMap.ofList config), metaFields := none }]
  connections := []

theorem reload_keeps_requestNode :
    ∃ saved, WorkflowEditor.reload requestRegistry
        (requestNode "Fetch" [("url", .str "/orders"), ("timeout", .int 0)]) = .ok saved ∧
      List.Forall₂ (fun given kept => ∃ nodeClass, requestRegistry given.type = some nodeClass ∧
        SavedNode nodeClass given kept)
        (requestNode "Fetch" [("url", .str "/orders"), ("timeout", .int 0)]).nodes saved.nodes ∧
      List.Forall₂ SavedConnection [] saved.connections := by
  refine reload_keeps requestRegistry _ (by decide) (by decide) ?_
  intro data member config configured
  cases List.mem_singleton.mp member
  cases configured
  decide

/-- A key that the class does not declare, and an empty label, are lost. -/
theorem reload_drops_undeclared :
    (requestNode "" [("note", .str "draft")]).Known requestRegistry ∧
    ((requestNode "" [("note", .str "draft")]).nodes.map NodeData.id).Nodup ∧
    ∃ saved, WorkflowEditor.reload requestRegistry (requestNode "" [("note", .str "draft")]) =
        .ok saved ∧
      (requestNode "" [("note", .str "draft")]).nodes.map
        (fun data => (data.label, data.config.bind fun config => config.get? "note")) =
          [(some "", some (.str "draft"))] ∧
      saved.nodes.map (fun data => (data.label, data.config.bind fun config => config.get? "note")) =
        [(some "Request", none)] :=
  ⟨by decide, by decide, _, rfl, by decide, by decide⟩

end WorkflowStudio.Editor
