import WorkflowStudio.Editor.LoadProperties
import WorkflowStudio.Editor.UndoProperties

/-! The counter of the editor stays at or above the number of every generated
identifier in the graph, so a generated identifier is new. A load that throws
after it has placed such a node is the only way to break this. -/

set_option autoImplicit false

namespace WorkflowStudio.Editor

open Lib

/-!
## Numbered identifiers
-/

def numberedId (number : Nat) : String := "n_" ++ toString number

@[simp] theorem idNumber_numberedId (number : Nat) : idNumber (numberedId number) = some number := by
  have digits : (numberedId number).toList.filter Char.isDigit = Nat.toDigits 10 number := by
    have kept : (Nat.toDigits 10 number).filter Char.isDigit = Nat.toDigits 10 number :=
      List.filter_eq_self.mpr fun _ member =>
        Nat.isDigit_of_mem_toDigits (by decide) (by decide) member
    simp only [numberedId, String.toList_append, Nat.toString_eq_repr, Nat.toList_repr,
      List.filter_append, kept]
    rfl
  unfold idNumber
  rw [digits]
  cases shown : Nat.toDigits 10 number with
  | nil => exact absurd shown Nat.toDigits_ne_nil
  | cons digit rest =>
      have read : Nat.ofDigitChars 10 (Nat.toDigits 10 number) 0 = number :=
        Nat.ofDigitChars_ten_toDigits
      rw [shown, Nat.ofDigitChars_eq_foldl] at read
      exact congrArg some read

/-- No node of the graph has the number of an identifier still to be generated. -/
def WorkflowEditor.Counted (editor : WorkflowEditor) : Prop :=
  ∀ number, editor.idCounter < number → editor.nodes.get? (numberedId number) = none

theorem WorkflowEditor.Counted.nextId {editor : WorkflowEditor} (counted : editor.Counted) :
    editor.nodes.get? editor.nextId = none :=
  counted (editor.idCounter + 1) (Nat.lt_succ_self _)

/-!
## The operations
-/

section Operations

variable {registry : Registry} {adapter : WorkflowAdapter}

/-- Placing a node whose number the new counter covers. -/
theorem counted_set {editor : WorkflowEditor} (counted : editor.Counted) {nodeId : String}
    (node : Node) (connections : List Connection) {counter : Nat}
    (grown : editor.idCounter ≤ counter) (covered : (idNumber nodeId).getD 0 ≤ counter) :
    WorkflowEditor.Counted ⟨editor.nodes.set nodeId node, connections, counter⟩ := by
  intro number above
  dsimp only at above ⊢
  have different : numberedId number ≠ nodeId := by
    rintro rfl
    rw [idNumber_numberedId] at covered
    exact absurd covered (Nat.not_le_of_lt above)
  rw [OrderedMap.get?_set_of_ne _ _ different]
  exact counted number (Nat.lt_of_le_of_lt grown above)

theorem counted_addNode {editor : WorkflowEditor} (counted : editor.Counted) (node : Node)
    (unnamed : node.id = "") (position : Position) : (editor.addNode node position).Counted := by
  simp only [WorkflowEditor.addNode, unnamed, ↓reduceIte]
  refine counted_set counted _ _ (Nat.le_succ _) ?_
  change (idNumber (numberedId (editor.idCounter + 1))).getD 0 ≤ _
  rw [idNumber_numberedId]
  exact Nat.le_refl _

theorem counted_addNodeWithId (counted : adapter.editor.Counted) (type : String)
    (position : Position) (forcedId : String) (config : Config) :
    (adapter.addNodeWithId registry type position forcedId config).editor.Counted := by
  unfold WorkflowAdapter.addNodeWithId
  cases registry type with
  | none => exact counted
  | some nodeClass =>
      by_cases unnamed : forcedId = ""
      · -- The editor numbers the node itself, and an empty identifier has no number.
        intro number above
        have added := counted_addNode counted
          (({ nodeClass.new type with id := forcedId } : Node).setConfig config) unnamed position
        exact added number (Nat.lt_of_le_of_lt (Nat.le_max_left _ _) above)
      · simp only [WorkflowEditor.addNode, Node.setConfig, unnamed, ↓reduceIte]
        exact counted_set counted _ _ (Nat.le_max_left _ _) (Nat.le_max_right _ _)

theorem counted_modifyNode {editor : WorkflowEditor} (counted : editor.Counted) (nodeId : String)
    (change : Node → Node) : (editor.modifyNode nodeId change).Counted := by
  unfold WorkflowEditor.modifyNode
  cases found : editor.nodes.get? nodeId with
  | none => exact counted
  | some node =>
      intro number above
      have absent := counted number above
      have different : numberedId number ≠ nodeId := by
        rintro rfl
        rw [found] at absent
        cases absent
      exact (OrderedMap.get?_set_of_ne _ _ different).trans absent

theorem counted_removeNode (counted : adapter.editor.Counted) (nodeId : String) :
    (adapter.removeNode nodeId).editor.Counted := by
  intro number above
  rw [WorkflowAdapter.removeNode_nodes]
  split
  · rfl
  · refine counted number ?_
    unfold WorkflowAdapter.removeNode WorkflowEditor.removeNode at above
    cases found : adapter.editor.nodes.get? nodeId with
    | none =>
        simp only [found] at above
        exact above
    | some node =>
        simp only [found] at above
        exact above

theorem counted_updatePosition (counted : adapter.editor.Counted) (nodeId : String)
    (position : Position) : (adapter.updatePosition nodeId position).editor.Counted := by
  unfold WorkflowAdapter.updatePosition
  cases adapter.editor.nodes.get? nodeId with
  | none => exact counted
  | some node =>
      dsimp only
      split
      · exact counted
      · exact counted_modifyNode counted nodeId _

/-- The operations that change a node they find and rebuild the mirror. -/
theorem counted_modified (counted : adapter.editor.Counted) (nodeId : String)
    (change : Node → Node) :
    (match adapter.editor.nodes.get? nodeId with
      | none => adapter
      | some _ => WorkflowAdapter.synced (adapter.editor.modifyNode nodeId change)).editor.Counted := by
  cases adapter.editor.nodes.get? nodeId with
  | none => exact counted
  | some node => exact counted_modifyNode counted nodeId change

theorem counted_addConnection (counted : adapter.editor.Counted)
    (source sourceHandle target targetHandle : String) :
    (adapter.addConnection registry source sourceHandle target
      targetHandle).1.editor.Counted := by
  unfold WorkflowAdapter.addConnection WorkflowEditor.addConnection
  by_cases accepted : adapter.editor.canConnect registry source sourceHandle target targetHandle
  · simp only [accepted, ↓reduceIte]
    exact counted
  · simp only [accepted, Bool.false_eq_true, ↓reduceIte]
    exact counted

theorem counted_removeConnection (counted : adapter.editor.Counted) (connectionId : String) :
    (adapter.removeConnection connectionId).editor.Counted := by
  unfold WorkflowAdapter.removeConnection
  split <;> exact counted

theorem counted_invariant (registry : Registry) :
    AdapterInvariant registry fun adapter => adapter.editor.Counted where
  addNode adapter type position counted := by
    unfold WorkflowAdapter.addNode
    cases registry type with
    | none => exact counted
    | some nodeClass => exact counted_addNode counted _ rfl position
  addNodeWithId _ type position forcedId config counted :=
    counted_addNodeWithId counted type position forcedId config
  removeNode _ nodeId counted := counted_removeNode counted nodeId
  updatePosition _ nodeId position counted := counted_updatePosition counted nodeId position
  configure _ nodeId _ counted := by
    rw [WorkflowAdapter.configure_editor]
    exact counted_modifyNode counted nodeId _
  setNodeMeta _ nodeId _ counted := counted_modified counted nodeId _
  setNodeLabel _ nodeId _ counted := counted_modified counted nodeId _
  setControlValue _ nodeId _ _ counted := counted_modifyNode counted nodeId _
  addConnection _ source sourceHandle target targetHandle counted :=
    counted_addConnection counted source sourceHandle target targetHandle
  removeConnection _ connectionId counted := counted_removeConnection counted connectionId

end Operations

/-!
## Loads
-/

/-- All nodes load, or none of the nodes before the first one that does not has
a generated identifier. -/
def Snapshot.Countable (registry : Registry) (snapshot : Snapshot) : Prop :=
  snapshot.Loadable registry ∨
    ∀ data ∈ snapshot.nodes.takeWhile registry.Loads, ∀ number, 0 < number →
      data.id ≠ numberedId number

section Loads

variable {registry : Registry}

variable (registry) in
/-- What the node loop holds when it stops, with or without an error. -/
theorem loadNodes_counted (data : List NodeData) (nodes : OrderedMap String Node) (maxId : Nat)
    (counted : ∀ number, maxId < number → nodes.get? (numberedId number) = none) :
    ∀ number, (WorkflowEditor.loadNodes registry data nodes maxId).2.1 < number →
      (WorkflowEditor.loadNodes registry data nodes maxId).1.get? (numberedId number) = none := by
  induction data generalizing nodes maxId with
  | nil => exact counted
  | cons first rest ih =>
      unfold WorkflowEditor.loadNodes
      cases loaded : Node.fromJSON registry first with
      | error error => exact counted
      | ok node =>
          have before : WorkflowEditor.Counted ⟨nodes, [], maxId⟩ := counted
          exact ih _ _ (counted_set before node [] (Nat.le_max_left _ _) (Nat.le_max_right _ _))

/-- A loop that fails has placed only nodes before the first that does not load. -/
theorem loadNodes_placed (data : List NodeData) (nodes : OrderedMap String Node) (maxId : Nat)
    {nodeId : String} (absent : nodes.get? nodeId = none)
    (unnamed : ∀ before ∈ data.takeWhile registry.Loads, before.id ≠ nodeId) :
    (WorkflowEditor.loadNodes registry data nodes maxId).1.get? nodeId = none := by
  induction data generalizing nodes maxId with
  | nil => exact absent
  | cons first rest ih =>
      unfold WorkflowEditor.loadNodes
      cases loaded : Node.fromJSON registry first with
      | error error => exact absent
      | ok node =>
          obtain ⟨own, _, loads⟩ := Node.fromJSON_ok loaded
          rw [List.takeWhile_cons_of_pos loads] at unnamed
          refine ih _ _ ?_ fun before member => unnamed before (List.mem_cons_of_mem _ member)
          have different : nodeId ≠ node.id := fun same =>
            unnamed first List.mem_cons_self (own.symm.trans same.symm)
          exact (OrderedMap.get?_set_of_ne _ _ different).trans absent

theorem counted_fromJSON {snapshot : Snapshot} (countable : snapshot.Countable registry) :
    (WorkflowAdapter.fromJSON registry snapshot).1.editor.Counted := by
  have covered := loadNodes_counted registry snapshot.nodes OrderedMap.empty 0
    fun _ _ => rfl
  unfold WorkflowAdapter.fromJSON WorkflowEditor.fromJSON
  cases result : WorkflowEditor.loadNodes registry snapshot.nodes OrderedMap.empty 0 with
  | mk nodes left =>
      obtain ⟨maxId, error⟩ := left
      cases error with
      | none =>
          rw [result] at covered
          exact covered
      | some error =>
          rcases countable with loadable | unnamed
          · have whole := (loadNodes_loads snapshot.nodes OrderedMap.empty 0).mpr loadable
            rw [result] at whole
            cases whole
          · intro number above
            have absent := loadNodes_placed snapshot.nodes OrderedMap.empty 0 rfl
              fun before member => unnamed before member number above
            rw [result] at absent
            exact absent

end Loads

/-!
## Runs
-/

/-- The snapshot that the operation loads, if any, can be counted. -/
def Operation.LoadsCountable (registry : Registry) (store : Store) (operation : Operation) : Prop :=
  ∀ snapshot, operation.loaded store = some snapshot → snapshot.Countable registry

theorem Operation.LoadsCountable.apply {registry : Registry} {store : Store}
    {operation : Operation} (countable : operation.LoadsCountable registry store)
    (counted : store.adapter.editor.Counted) :
    (operation.apply registry store).adapter.editor.Counted :=
  (counted_invariant registry).apply counted
    ⟨fun snapshot loaded => counted_fromJSON (countable snapshot loaded), fun _ _ _ => rfl⟩

theorem run_counted {registry : Registry} {operations : List Operation}
    (countable : GuardedRun.Meets (Operation.apply registry) (Operation.LoadsCountable registry)
      Store.initial operations) :
    (Store.run registry operations).adapter.editor.Counted := by
  have keeps : ∀ (store : Store) (operation : Operation), store.adapter.editor.Counted →
      operation.LoadsCountable registry store →
      (operation.apply registry store).adapter.editor.Counted :=
    fun _ _ counted countable => countable.apply counted
  have started : Store.initial.adapter.editor.Counted := fun _ _ => rfl
  exact GuardedRun.guarded_invariant (fun store : Store => store.adapter.editor.Counted) keeps
    started countable

def partlyKnown : Snapshot where
  nodes := [
    { id := "n_1", type := "noop", label := none, position := some ⟨40, 40⟩, config := none,
      metaFields := none },
    { id := "n_2", type := "retired", label := none, position := none, config := none,
      metaFields := none }]
  connections := []

def allKnown : Snapshot where
  nodes := partlyKnown.nodes.take 1
  connections := []

end WorkflowStudio.Editor
