import WorkflowStudio.Editor.Clipboard
import WorkflowStudio.Editor.FreshIdProperties
import WorkflowStudio.Editor.GraphIntegrityProperties
import WorkflowStudio.Editor.PendingProperties

/-! What paste does to the graph: it only adds, a node that brings no companion
gets the next identifier, and a connection is drawn where `addConnection`
draws it. -/

set_option autoImplicit false

namespace WorkflowStudio.Editor

open Lib Reversal

/-!
## Numbered identifiers
-/

theorem numberedId_injective : Function.Injective numberedId := by
  intro first second same
  have numbers := congrArg idNumber same
  rwa [idNumber_numberedId, idNumber_numberedId, Option.some.injEq] at numbers

/-- The identifiers that the counter gives next. -/
def nextIds (counter count : Nat) : List String :=
  (List.range count).map fun index => numberedId (counter + 1 + index)

theorem nextIds_nodup (counter count : Nat) : (nextIds counter count).Nodup := by
  refine List.Nodup.map (fun first second same => ?_) List.nodup_range
  have numbers := numberedId_injective same
  omega

theorem nextIds_add (counter first second : Nat) :
    nextIds counter (first + second) =
      nextIds counter first ++ nextIds (counter + first) second := by
  simp only [nextIds, List.range_add, List.map_append, List.map_map]
  congr 1
  refine List.map_congr_left fun index _ => ?_
  simp only [Function.comp_apply]
  congr 1
  omega

theorem mem_nextIds {counter count : Nat} {id : String} :
    id ∈ nextIds counter count ↔
      ∃ index, index < count ∧ id = numberedId (counter + 1 + index) := by
  simp only [nextIds, List.mem_map, List.mem_range]
  constructor
  · rintro ⟨index, inside, rfl⟩
    exact ⟨index, inside, rfl⟩
  · rintro ⟨index, inside, rfl⟩
    exact ⟨index, inside, rfl⟩

theorem length_nextIds (counter count : Nat) : (nextIds counter count).length = count := by
  simp only [nextIds, List.length_map, List.length_range]

/-!
## Commands that only add
-/

def Command.Adds : Command → Prop
  | .addNode _ _ _ _ | .addConnection _ _ _ _ => True
  | _ => False

section Adds

variable {registry : Registry}

/-- Undoing additions removes exactly the added nodes. -/
theorem undoAll_nodes {commands : List Command} (adds : ∀ command ∈ commands, command.Adds)
    (adapter : WorkflowAdapter) (nodeId : String) :
    (undoAll (Command.undo registry) commands adapter).editor.nodes.get? nodeId =
      if nodeId ∈ commands.filterMap Command.added then none
      else adapter.editor.nodes.get? nodeId := by
  induction commands with
  | nil => rfl
  | cons command rest ih =>
      have later := ih fun other member => adds other (List.mem_cons_of_mem _ member)
      have here := adds command List.mem_cons_self
      cases command with
      | addNode id type position config =>
          change ((undoAll (Command.undo registry) rest adapter).removeNode id).editor.nodes.get?
            nodeId = _
          rw [WorkflowAdapter.removeNode_nodes, later]
          by_cases same : nodeId = id
          · simp [same, Command.added]
          · simp [same, Command.added]
      | addConnection source sourceHandle target targetHandle =>
          change ((undoAll (Command.undo registry) rest adapter).removeConnection
            _).editor.nodes.get? nodeId = _
          rw [WorkflowAdapter.removeConnection_nodes, later]
          rfl
      | _ => cases here

/-- Undoing additions leaves no connection at an added node. -/
theorem undoAll_apart {commands : List Command} (adds : ∀ command ∈ commands, command.Adds)
    (distinct : (commands.filterMap Command.added).Nodup) (adapter : WorkflowAdapter)
    (present : ∀ id ∈ commands.filterMap Command.added, adapter.editor.nodes.get? id ≠ none) :
    ∀ id ∈ commands.filterMap Command.added,
      ∀ conn ∈ (undoAll (Command.undo registry) commands adapter).editor.connections,
        conn.involvesNode id = false := by
  induction commands with
  | nil => exact fun _ member => absurd member List.not_mem_nil
  | cons command rest ih =>
      have addsRest : ∀ command ∈ rest, command.Adds := fun other member =>
        adds other (List.mem_cons_of_mem _ member)
      have here := adds command List.mem_cons_self
      cases command with
      | addNode id type position config =>
          have split : (Command.addNode id type position config :: rest).filterMap Command.added =
              id :: rest.filterMap Command.added := rfl
          rw [split, List.nodup_cons] at distinct
          rw [split] at present ⊢
          have later := ih addsRest distinct.2 fun other member =>
            present other (List.mem_cons_of_mem _ member)
          intro other member conn listed
          change conn ∈ ((undoAll (Command.undo registry) rest adapter).removeNode
            id).editor.connections at listed
          have still :
              (undoAll (Command.undo registry) rest adapter).editor.nodes.get? id ≠ none := by
            rw [undoAll_nodes addsRest, if_neg distinct.1]
            exact present id List.mem_cons_self
          obtain ⟨node, found⟩ := Option.ne_none_iff_exists'.mp still
          rw [WorkflowAdapter.removeNode_connections found] at listed
          obtain ⟨kept, apart⟩ := List.mem_filter.mp listed
          rcases List.mem_cons.mp member with rfl | further
          · simpa using apart
          · exact later other further conn kept
      | addConnection source sourceHandle target targetHandle =>
          have later := ih addsRest distinct present
          intro other member conn listed
          change conn ∈ ((undoAll (Command.undo registry) rest adapter).removeConnection
            _).editor.connections at listed
          rw [WorkflowAdapter.removeConnection_connections] at listed
          exact later other member conn (List.mem_of_mem_eraseP listed)
      | _ => cases here

/-- The commands have put so many nodes in the graph, under the next identifiers,
and have left the other nodes alone. -/
structure AddsNodes (before : WorkflowEditor) (commands : List Command) (after : WorkflowEditor)
    (count : Nat) : Prop where
  adds : ∀ command ∈ commands, command.Adds
  added : commands.filterMap Command.added = nextIds before.idCounter count
  counter : after.idCounter = before.idCounter + count
  present : ∀ id ∈ nextIds before.idCounter count, after.nodes.get? id ≠ none
  others : ∀ id, id ∉ nextIds before.idCounter count → after.nodes.get? id = before.nodes.get? id

theorem AddsNodes.refl (editor : WorkflowEditor) : AddsNodes editor [] editor 0 :=
  ⟨fun _ member => absurd member List.not_mem_nil, rfl, rfl,
    fun _ member => absurd member List.not_mem_nil, fun _ _ => rfl⟩

theorem AddsNodes.trans {first second third : WorkflowEditor} {left right : List Command}
    {leftCount rightCount : Nat} (former : AddsNodes first left second leftCount)
    (latter : AddsNodes second right third rightCount) :
    AddsNodes first (left ++ right) third (leftCount + rightCount) := by
  have split := nextIds_add first.idCounter leftCount rightCount
  rw [← former.counter] at split
  refine ⟨fun command member => ?_, ?_, ?_, fun id member => ?_, fun id outside => ?_⟩
  · rcases List.mem_append.mp member with earlier | later
    · exact former.adds command earlier
    · exact latter.adds command later
  · rw [List.filterMap_append, former.added, latter.added, split]
  · rw [latter.counter, former.counter, Nat.add_assoc]
  · by_cases late : id ∈ nextIds second.idCounter rightCount
    · exact latter.present id late
    · rw [latter.others id late]
      rw [split] at member
      rcases List.mem_append.mp member with early | impossible
      · exact former.present id early
      · exact absurd impossible late
  · rw [split, List.mem_append, not_or] at outside
    rw [latter.others id outside.2, former.others id outside.1]

theorem AddsNodes.recorded {before after : WorkflowEditor} {commands : List Command} {count : Nat}
    (adds : AddsNodes before commands after count) (some : 0 < count) : commands ≠ [] := by
  rintro rfl
  have lengths := congrArg List.length adds.added
  rw [length_nextIds, List.filterMap_nil, List.length_nil] at lengths
  omega

theorem addsNodes_addOne (adapter : WorkflowAdapter) {type : String} {nodeClass : NodeClass}
    (registered : registry type = some nodeClass) (position : Position) :
    ∃ after command, RecordedAction.addOne registry adapter type position =
        (after, some (adapter.editor.nextId, command)) ∧
      AddsNodes adapter.editor [command] after.editor 1 := by
  obtain ⟨after, node, config, added, nodes, _, counter⟩ :=
    addOne_of_registered adapter registered position
  have only : nextIds adapter.editor.idCounter 1 = [adapter.editor.nextId] := rfl
  refine ⟨after, _, added, fun command member => ?_, rfl, counter, ?_, ?_⟩
  · cases List.mem_singleton.mp member
    trivial
  · rw [only, nodes]
    intro id member
    cases List.mem_singleton.mp member
    rw [OrderedMap.get?_set_self]
    exact Option.some_ne_none _
  · rw [only, nodes]
    exact fun id outside => OrderedMap.get?_set_of_ne _ _ fun same =>
      outside (List.mem_singleton.mpr same)

theorem addsNodes_connectOne (registry : Registry) (adapter : WorkflowAdapter)
    (source sourceHandle target targetHandle : String) :
    AddsNodes adapter.editor
      (RecordedAction.connectOne registry adapter source sourceHandle target targetHandle).2
      (RecordedAction.connectOne registry adapter source sourceHandle target
        targetHandle).1.editor 0 := by
  have counter : (adapter.addConnection registry source sourceHandle target
      targetHandle).1.editor.idCounter = adapter.editor.idCounter := by
    unfold WorkflowAdapter.addConnection WorkflowEditor.addConnection
    by_cases accepted :
      adapter.editor.canConnect registry source sourceHandle target targetHandle
    · simp only [accepted, ↓reduceIte, WorkflowAdapter.synced]
    · simp only [accepted, Bool.false_eq_true, ↓reduceIte]
  rw [connectOne_eq]
  refine ⟨?_, ?_, counter, fun _ member => absurd member List.not_mem_nil, fun id _ => ?_⟩
  · split
    · intro command member
      cases List.mem_singleton.mp member
      trivial
    · exact fun _ member => absurd member List.not_mem_nil
  · dsimp only
    split <;> rfl
  · dsimp only
    rw [WorkflowAdapter.addConnection_nodes]

/-- A loop node brings a second node with it. -/
theorem addsNodes_addNodeAction (adapter : WorkflowAdapter) {type : String}
    {nodeClass : NodeClass} (registered : registry type = some nodeClass) (position : Position) :
    ∃ count, AddsNodes adapter.editor
        (RecordedAction.addNodeAction registry adapter type position).2
        (RecordedAction.addNodeAction registry adapter type position).1.editor count ∧
      1 ≤ count ∧ (type = "loop" → registry "noop" ≠ none → 2 ≤ count) := by
  obtain ⟨after, command, added, first⟩ := addsNodes_addOne adapter registered position
  unfold RecordedAction.addNodeAction
  rw [added]
  dsimp only
  split
  · cases noop : registry "noop" with
    | none =>
        simp only [RecordedAction.addOne, WorkflowAdapter.addNode, noop]
        exact ⟨1, first, le_rfl, fun _ present => absurd rfl present⟩
    | some noopClass =>
        obtain ⟨further, noopCommand, noopAdded, second⟩ :=
          addsNodes_addOne after noop ⟨position.x + 80, position.y + 160⟩
        rw [noopAdded]
        dsimp only
        have forth := addsNodes_connectOne registry further adapter.editor.nextId
          "loop" after.editor.nextId "data"
        exact ⟨2, ((first.trans second).trans forth).trans (addsNodes_connectOne _ _ _ _ _ _),
          by omega, fun _ _ => le_rfl⟩
  · next other => exact ⟨1, first, le_rfl, fun loop => absurd loop other⟩

end Adds

/-!
## Pasted nodes
-/

section Pasting

variable {registry : Registry} {pasting : Pasting} {node : CopiedNode} {nodeClass : NodeClass}

theorem addNodeAction_found (adapter : WorkflowAdapter) {type : String}
    (registered : registry type = some nodeClass) (position : Position) :
    (RecordedAction.addNodeAction registry adapter type position).1.editor.nodes.get?
      adapter.editor.nextId = some { nodeClass.new type with
        id := adapter.editor.nextId
        position := position } := by
  have first : (adapter.addNode registry type position).1.editor.nodes.get?
      adapter.editor.nextId = some { nodeClass.new type with
        id := adapter.editor.nextId
        position := position } := by
    rw [WorkflowAdapter.addNode_of_registered registered]
    exact OrderedMap.get?_set_self _ _ _
  have counter : (adapter.addNode registry type position).1.editor.idCounter =
      adapter.editor.idCounter + 1 := by
    rw [WorkflowAdapter.addNode_of_registered registered]
    rfl
  unfold RecordedAction.addNodeAction RecordedAction.addOne
  rw [WorkflowAdapter.addNode_of_registered registered] at first counter ⊢
  dsimp only at first counter ⊢
  split
  · cases noop : registry "noop" with
    | none =>
        simp only [WorkflowAdapter.addNode, noop]
        exact first
    | some noopClass =>
        rw [WorkflowAdapter.addNode_of_registered noop]
        dsimp only
        simp only [connectOne_eq, WorkflowAdapter.addConnection_nodes]
        refine (OrderedMap.get?_set_of_ne _ _ fun same => ?_).trans first
        have numbers := numberedId_injective same
        rw [counter] at numbers
        omega
  · exact first

theorem AddsNodes.modified {before after : WorkflowEditor} {commands : List Command} {count : Nat}
    (adds : AddsNodes before commands after count) {nodeId : String}
    (own : nodeId ∈ nextIds before.idCounter count) (change : Node → Node) :
    AddsNodes before commands (after.modifyNode nodeId change) count := by
  have changed : Changed nodeId change (WorkflowAdapter.synced after)
      (WorkflowAdapter.synced (after.modifyNode nodeId change)) := .of_modifyNode rfl
  refine ⟨adds.adds, adds.added, ?_, fun id member => ?_, fun id outside => ?_⟩
  · rw [← adds.counter]
    unfold WorkflowEditor.modifyNode
    split <;> rfl
  · refine fun absent => ?_
    have lookup := (changed.nodes id).symm.trans absent
    split at lookup
    · next same =>
        rw [Option.map_eq_none_iff] at lookup
        exact adds.present id member (same ▸ lookup)
    · exact adds.present id member lookup
  · refine ((changed.nodes id).trans (if_neg fun same => ?_)).trans (adds.others id outside)
    exact outside (same ▸ own)

/-- Paste after some nodes: what is recorded in the batch is what was added. -/
structure Pasting.Placed (start : WorkflowEditor) (pasting : Pasting) (commands : List Command)
    (count : Nat) : Prop where
  running : pasting.thrown = false
  batch : pasting.store.history.currentBatch = some commands
  adds : AddsNodes start commands pasting.store.adapter.editor count

theorem Pasting.addNode_eq (running : pasting.thrown = false)
    (registered : registry node.type = some nodeClass)
    (quiet : (nodeClass.new node.type).setConfigThrows node.config = false) :
    pasting.addNode registry node = {
      store := { pasting.store.perform registry (.addNode node.type (pastePosition node.position)) with
        adapter := (RecordedAction.addNodeAction registry pasting.store.adapter node.type
          (pastePosition node.position)).1.setNodeConfig
            pasting.store.adapter.editor.nextId node.config }
      idMap := Pasting.mapId pasting.idMap node.id pasting.store.adapter.editor.nextId
      thrown := false } := by
  have given : (pasting.store.adapter.addNode registry node.type
      (pastePosition node.position)).2 = some pasting.store.adapter.editor.nextId := by
    rw [WorkflowAdapter.addNode_of_registered registered]
  have found := addNodeAction_found pasting.store.adapter registered (pastePosition node.position)
  have configured : (RecordedAction.addNodeAction registry pasting.store.adapter node.type
      (pastePosition node.position)).1.configure pasting.store.adapter.editor.nextId node.config =
      ((RecordedAction.addNodeAction registry pasting.store.adapter node.type
        (pastePosition node.position)).1.setNodeConfig pasting.store.adapter.editor.nextId
          node.config, false) := by
    simp only [WorkflowAdapter.configure, found]
    rw [if_neg]
    exact Bool.eq_false_iff.mp quiet
  simp only [Pasting.addNode, running, Bool.false_eq_true, ↓reduceIte, given, Store.perform,
    RecordedAction.run, configured]

theorem Pasting.Placed.addNode {start : WorkflowEditor} {commands : List Command} {count : Nat}
    (placed : pasting.Placed start commands count)
    (registered : registry node.type = some nodeClass)
    (quiet : (nodeClass.new node.type).setConfigThrows node.config = false) :
    ∃ further more, (pasting.addNode registry node).Placed start (commands ++ further)
        (count + more) ∧ 1 ≤ more ∧ (node.type = "loop" → registry "noop" ≠ none → 2 ≤ more) := by
  obtain ⟨more, adds, atLeast, companion⟩ :=
    addsNodes_addNodeAction pasting.store.adapter registered (pastePosition node.position)
  have found := addNodeAction_found pasting.store.adapter registered (pastePosition node.position)
  have own : pasting.store.adapter.editor.nextId ∈ nextIds start.idCounter (count + more) := by
    refine mem_nextIds.mpr ⟨count, by omega, ?_⟩
    change numberedId (pasting.store.adapter.editor.idCounter + 1) = _
    rw [placed.adds.counter]
    congr 1
    omega
  rw [Pasting.addNode_eq placed.running registered quiet]
  have batch := congrArg HistoryManager.currentBatch (HistoryManager.pushAll_batch
    (RecordedAction.addNodeAction registry pasting.store.adapter node.type
      (pastePosition node.position)).2 commands _ placed.batch)
  have configured := (placed.adds.trans adds).modified own fun added => added.setConfig node.config
  refine ⟨_, more, ⟨rfl, batch, ?_⟩, atLeast, companion⟩
  simp only [WorkflowAdapter.setNodeConfig, found]
  exact configured

/-- The class is registered, and no key of the configuration makes `setConfig` throw. -/
def CopiedNode.Buildable (registry : Registry) (node : CopiedNode) : Prop :=
  ∃ nodeClass, registry node.type = some nodeClass ∧
    (nodeClass.new node.type).setConfigThrows node.config = false

theorem placed_addAll {start : WorkflowEditor} (nodes : List CopiedNode)
    (buildable : ∀ node ∈ nodes, node.Buildable registry)
    {commands : List Command} {count : Nat} (placed : pasting.Placed start commands count) :
    ∃ further more, (nodes.foldl (Pasting.addNode registry) pasting).Placed start
        (commands ++ further) (count + more) ∧ nodes.length ≤ more ∧
      ((∃ node ∈ nodes, node.type = "loop" ∧ registry "noop" ≠ none) → nodes.length < more) := by
  induction nodes generalizing pasting commands count with
  | nil =>
      refine ⟨[], 0, by simpa using placed, le_rfl, fun companion => ?_⟩
      obtain ⟨node, member, _⟩ := companion
      cases member
  | cons node rest ih =>
      obtain ⟨nodeClass, registered, quiet⟩ := buildable node List.mem_cons_self
      obtain ⟨first, one, here, atLeast, companion⟩ := placed.addNode registered quiet
      obtain ⟨later, others, there, enough, more⟩ :=
        ih (fun other member => buildable other (List.mem_cons_of_mem _ member)) here
      refine ⟨first ++ later, one + others, ?_, ?_, fun brings => ?_⟩
      · rw [← List.append_assoc, ← Nat.add_assoc]
        exact there
      · rw [List.length_cons]
        omega
      · rw [List.length_cons]
        obtain ⟨loop, member, isLoop, known⟩ := brings
        rcases List.mem_cons.mp member with same | further
        · have two := companion (same ▸ isLoop) known
          omega
        · have surplus := more ⟨loop, further, isLoop, known⟩
          omega

/-!
### Nodes without companions
-/

/-- Paste after some nodes of which none has brought a companion. -/
structure Pasting.Copies (registry : Registry) (start : WorkflowAdapter) (nodes : List CopiedNode)
    (pasting : Pasting) (commands : List Command) : Prop where
  placed : pasting.Placed start.editor commands nodes.length
  connections : pasting.store.adapter.editor.connections = start.editor.connections
  copied : ∀ index node, nodes[index]? = some node → ∃ nodeClass,
    registry node.type = some nodeClass ∧
    pasting.store.adapter.editor.nodes.get? (numberedId (start.editor.idCounter + 1 + index)) =
      some (Node.restored nodeClass node.type (pastePosition node.position)
        (numberedId (start.editor.idCounter + 1 + index)) node.config)
  idMap : ∀ id, pasting.idMap.get? id =
    if id = "__proto__" ∨ id ∉ nodes.map CopiedNode.id then none
    else some (numberedId (start.editor.idCounter + 1 + (nodes.map CopiedNode.id).idxOf id))
  rewinds : (∀ id ∈ nextIds start.editor.idCounter nodes.length, start.editor.FreshId id) →
    Rewinds (Command.undo registry) NearFor start commands.reverse pasting.store.adapter

theorem addNodeAction_alone (adapter : WorkflowAdapter) {type : String}
    (registered : registry type = some nodeClass) (alone : type = "loop" → registry "noop" = none)
    (position : Position) : ∃ command,
    RecordedAction.addNodeAction registry adapter type position =
      ((adapter.addNode registry type position).1, [command]) ∧
    AddsNodes adapter.editor [command] (adapter.addNode registry type position).1.editor 1 ∧
    (adapter.editor.FreshId adapter.editor.nextId →
      Leads (Command.undo registry) command (adapter.addNode registry type position).1 adapter) := by
  obtain ⟨after, command, added, adds⟩ := addsNodes_addOne adapter registered position
  unfold RecordedAction.addOne at added
  rw [WorkflowAdapter.addNode_of_registered registered] at added ⊢
  cases added
  refine ⟨_, ?_, adds, fun fresh => addNode_takenBack registry type position _ fresh rfl rfl⟩
  unfold RecordedAction.addNodeAction RecordedAction.addOne
  rw [WorkflowAdapter.addNode_of_registered registered]
  dsimp only
  split
  · next loop => simp only [WorkflowAdapter.addNode, alone loop]
  · rfl

theorem Pasting.Copies.nextId {start : WorkflowAdapter} {nodes : List CopiedNode}
    {commands : List Command} (copies : pasting.Copies registry start nodes commands) :
    pasting.store.adapter.editor.nextId =
      numberedId (start.editor.idCounter + 1 + nodes.length) := by
  change numberedId (pasting.store.adapter.editor.idCounter + 1) = _
  rw [copies.placed.adds.counter]
  congr 1
  omega

theorem Pasting.Copies.fresh {start : WorkflowAdapter} {nodes : List CopiedNode}
    {commands : List Command} (copies : pasting.Copies registry start nodes commands)
    (fresh : start.editor.FreshId (numberedId (start.editor.idCounter + 1 + nodes.length))) :
    pasting.store.adapter.editor.FreshId pasting.store.adapter.editor.nextId := by
  rw [copies.nextId]
  refine ⟨?_, by rw [copies.connections]; exact fresh.2⟩
  rw [copies.placed.adds.others, fresh.1]
  intro member
  obtain ⟨index, inside, same⟩ := mem_nextIds.mp member
  have numbers := numberedId_injective same
  omega

theorem mapId_get? (idMap : OrderedMap String String) (id newId other : String) :
    (Pasting.mapId idMap id newId).get? other =
      if other = id ∧ id ≠ "__proto__" then some newId else idMap.get? other := by
  unfold Pasting.mapId
  by_cases inherited : id = "__proto__"
  · simp only [inherited, ↓reduceIte, ne_eq, not_true_eq_false, and_false]
  · simp only [inherited, ↓reduceIte, ne_eq, not_false_eq_true, and_true, OrderedMap.get?_set]

theorem Pasting.Copies.addNode {start : WorkflowAdapter} {nodes : List CopiedNode}
    {commands : List Command} (copies : pasting.Copies registry start nodes commands)
    (registered : registry node.type = some nodeClass)
    (quiet : (nodeClass.new node.type).setConfigThrows node.config = false)
    (alone : node.type = "loop" → registry "noop" = none)
    (distinct : node.id ∉ nodes.map CopiedNode.id) :
    ∃ command, (pasting.addNode registry node).Copies registry start (nodes ++ [node])
      (commands ++ [command]) := by
  obtain ⟨command, single, adds, leads⟩ := addNodeAction_alone pasting.store.adapter registered alone
    (pastePosition node.position)
  have found := addNodeAction_found pasting.store.adapter registered (pastePosition node.position)
  have batch := congrArg HistoryManager.currentBatch
    (HistoryManager.pushAll_batch [command] commands _ copies.placed.batch)
  have length : (nodes ++ [node]).length = nodes.length + 1 := List.length_append
  rw [single] at found
  have changed : Changed pasting.store.adapter.editor.nextId (fun added => added.setConfig node.config)
      (pasting.store.adapter.addNode registry node.type (pastePosition node.position)).1
      ((pasting.store.adapter.addNode registry node.type
        (pastePosition node.position)).1.setNodeConfig pasting.store.adapter.editor.nextId
          node.config) := .of_found
  rw [Pasting.addNode_eq copies.placed.running registered quiet]
  simp only [Store.perform, RecordedAction.run, single]
  refine ⟨command, ⟨rfl, batch, ?_⟩, ?_, ?_, ?_, ?_⟩
  · have own : pasting.store.adapter.editor.nextId ∈
        nextIds start.editor.idCounter (nodes.length + 1) :=
      mem_nextIds.mpr ⟨nodes.length, Nat.lt_succ_self _, copies.nextId⟩
    have configured := (copies.placed.adds.trans adds).modified own fun added =>
      added.setConfig node.config
    rw [length]
    simp only [WorkflowAdapter.setNodeConfig, found]
    exact configured
  · rw [changed.connections, WorkflowAdapter.addNode_of_registered registered]
    exact copies.connections
  · intro index other listed
    rw [changed.nodes, found]
    by_cases last : index = nodes.length
    · rw [last, List.getElem?_concat_length, Option.some.injEq] at listed
      rw [last, ← copies.nextId, if_pos rfl, ← listed]
      exact ⟨nodeClass, registered, rfl⟩
    · have earlier : nodes[index]? = some other := by
        have inside := (List.getElem?_eq_some_iff.mp listed).1
        rw [length] at inside
        rwa [List.getElem?_append_left (by omega)] at listed
      obtain ⟨otherClass, known, copied⟩ := copies.copied index other earlier
      have different : numberedId (start.editor.idCounter + 1 + index) ≠
          pasting.store.adapter.editor.nextId := by
        rw [copies.nextId]
        intro same
        have numbers := numberedId_injective same
        omega
      refine ⟨otherClass, known, ?_⟩
      rw [if_neg different, WorkflowAdapter.addNode_of_registered registered]
      exact (OrderedMap.get?_set_of_ne _ _ different).trans copied
  · intro id
    rw [mapId_get?, copies.idMap, copies.nextId, List.map_append, List.map_singleton]
    by_cases here : id = node.id
    · subst here
      rw [List.idxOf_append_of_notMem distinct, List.idxOf_cons_self, List.length_map]
      by_cases inherited : node.id = "__proto__"
      · simp [inherited]
      · simp [inherited]
    · by_cases member : id ∈ nodes.map CopiedNode.id
      · rw [List.idxOf_append_of_mem member]
        simp [here]
      · have outside : id ∉ nodes.map CopiedNode.id ++ [node.id] := fun listed =>
          (List.mem_append.mp listed).elim member fun last => here (List.mem_singleton.mp last)
        rw [if_neg fun both => here both.1, if_pos (.inr member), if_pos (.inr outside)]
  · intro fresh
    rw [length] at fresh
    have earlier := copies.rewinds fun id member => fresh id (by
      rw [nextIds_add]
      exact List.mem_append_left _ member)
    have unused := copies.fresh (fresh _ (mem_nextIds.mpr ⟨nodes.length, Nat.lt_succ_self _, rfl⟩))
    have rewinds := earlier.performed (undo_nearness registry) (.single (leads unused))
    rw [List.reverse_append]
    refine rewinds.relocate (undo_nearness registry) (changed.near (fun _ => rfl) (.inl ?_))
    have named : pasting.store.adapter.editor.nextId ∈ [command].filterMap Command.added := by
      rw [adds.added]
      exact mem_nextIds.mpr ⟨0, Nat.one_pos, rfl⟩
    rw [List.filterMap_append]
    exact List.mem_append_left _ named

theorem copies_addAll {start : WorkflowAdapter} (nodes : List CopiedNode)
    (buildable : ∀ node ∈ nodes, node.Buildable registry)
    (alone : ∀ node ∈ nodes, node.type = "loop" → registry "noop" = none)
    (distinct : (nodes.map CopiedNode.id).Nodup) (opened : pasting.Copies registry start [] []) :
    ∃ commands, (nodes.foldl (Pasting.addNode registry) pasting).Copies registry start nodes
      commands := by
  induction nodes using List.reverseRecOn with
  | nil => exact ⟨[], opened⟩
  | append_singleton nodes node ih =>
      rw [List.map_append, List.map_singleton, List.nodup_append] at distinct
      obtain ⟨commands, copies⟩ := ih
        (fun other member => buildable other (List.mem_append_left _ member))
        (fun other member => alone other (List.mem_append_left _ member)) distinct.1
      have last : node ∈ nodes ++ [node] := List.mem_append_right _ (List.mem_singleton_self node)
      obtain ⟨nodeClass, registered, quiet⟩ := buildable node last
      obtain ⟨command, further⟩ := copies.addNode registered quiet (alone node last) fun member =>
        distinct.2.2 node.id member node.id (List.mem_singleton_self _) rfl
      rw [List.foldl_append]
      exact ⟨commands ++ [command], further⟩

/-!
### Connections
-/

/-- The end points of a pasted connection, when both nodes have been copied. -/
def Pasting.endsOf (idMap : OrderedMap String String) (conn : UiConnection) : Option Endpoints :=
  match idMap.get? conn.source, idMap.get? conn.target with
  | some source, some target => some ⟨source, conn.sourceHandle, target, conn.targetHandle⟩
  | _, _ => none

def Store.connect (registry : Registry) (store : Store) (ends : Endpoints) : Store :=
  store.perform registry
    (.addConnection ends.source ends.sourceHandle ends.target ends.targetHandle)

theorem addConnections_eq (conns : List UiConnection) :
    conns.foldl (Pasting.addConnection registry) pasting = { pasting with
      store := (conns.filterMap (Pasting.endsOf pasting.idMap)).foldl (Store.connect registry)
        pasting.store } := by
  induction conns generalizing pasting with
  | nil => rfl
  | cons conn rest ih =>
      rw [List.foldl_cons, ih, List.filterMap_cons]
      unfold Pasting.addConnection Pasting.endsOf
      cases pasting.idMap.get? conn.source with
      | none => rfl
      | some source =>
          cases pasting.idMap.get? conn.target with
          | none => rfl
          | some target => rfl

def Endpoints.connection (ends : Endpoints) : Connection :=
  .new ends.source ends.sourceHandle ends.target ends.targetHandle

def WorkflowEditor.Joins (registry : Registry) (editor : WorkflowEditor) (ends : Endpoints) :
    Prop :=
  ends.source ≠ ends.target ∧ ∃ source target, editor.nodes.get? ends.source = some source ∧
    editor.nodes.get? ends.target = some target ∧
    WorkflowEditor.socketsMatch registry source target ends.sourceHandle ends.targetHandle = true

/-- Each of the connections can be added after the ones before it. -/
structure WorkflowEditor.Connectable (registry : Registry) (editor : WorkflowEditor)
    (ends : List Endpoints) : Prop where
  joined : ∀ one ∈ ends, editor.Joins registry one
  identified : (ends.map Endpoints.generateId).Nodup
  untaken : ∀ one ∈ ends, ∀ conn ∈ editor.connections, conn.id ≠ one.generateId

/-- What connecting has done inside the open batch. -/
structure Drawn (registry : Registry) (before : Store) (ends : List Endpoints)
    (after : Store) (batch commands : List Command) (added : List Endpoints) : Prop where
  batch : after.history.currentBatch = some (batch ++ commands)
  adds : AddsNodes before.adapter.editor commands after.adapter.editor 0
  performed : Performed (Command.undo registry) before.adapter commands after.adapter
  nodes : after.adapter.editor.nodes = before.adapter.editor.nodes
  connections : after.adapter.editor.connections =
    before.adapter.editor.connections ++ added.map Endpoints.connection
  fewer : added.length ≤ ends.length
  all : before.adapter.editor.Connectable registry ends → added = ends
  only : added.length = ends.length → before.adapter.editor.Connectable registry ends

theorem canConnect_joins {editor : WorkflowEditor} {ends : Endpoints} :
    editor.canConnect registry ends.source ends.sourceHandle ends.target ends.targetHandle = true ↔
      editor.Joins registry ends ∧ ∀ conn ∈ editor.connections, conn.id ≠ ends.generateId := by
  rw [canConnect_iff]
  constructor
  · rintro ⟨joined, untaken, distinct⟩
    exact ⟨⟨distinct, joined⟩, untaken⟩
  · rintro ⟨⟨distinct, joined⟩, untaken⟩
    exact ⟨joined, untaken, distinct⟩

theorem WorkflowEditor.Connectable.accepts {editor : WorkflowEditor} {ends : Endpoints}
    {rest : List Endpoints} (connectable : editor.Connectable registry (ends :: rest)) :
    editor.canConnect registry ends.source ends.sourceHandle ends.target ends.targetHandle = true :=
  canConnect_joins.mpr ⟨connectable.joined ends List.mem_cons_self,
    connectable.untaken ends List.mem_cons_self⟩

theorem joins_congr {editor other : WorkflowEditor} (nodes : other.nodes = editor.nodes)
    (ends : Endpoints) : other.Joins registry ends ↔ editor.Joins registry ends := by
  unfold WorkflowEditor.Joins
  rw [nodes]

theorem connectable_cons {before after : WorkflowEditor} {ends : Endpoints} {rest : List Endpoints}
    (accepted : before.canConnect registry ends.source ends.sourceHandle ends.target
      ends.targetHandle = true)
    (nodes : after.nodes = before.nodes)
    (connections : after.connections = before.connections ++ [ends.connection]) :
    before.Connectable registry (ends :: rest) ↔ after.Connectable registry rest := by
  obtain ⟨joined, untaken⟩ := canConnect_joins.mp accepted
  constructor
  · intro connectable
    have split := connectable.identified
    rw [List.map_cons, List.nodup_cons] at split
    refine ⟨fun one member => ?_, split.2, fun one member conn listed => ?_⟩
    · exact (joins_congr nodes one).mpr (connectable.joined one (List.mem_cons_of_mem _ member))
    · rw [connections] at listed
      rcases List.mem_append.mp listed with old | new
      · exact connectable.untaken one (List.mem_cons_of_mem _ member) conn old
      · rw [List.mem_singleton.mp new]
        intro same
        exact split.1 (List.mem_map.mpr ⟨one, member, same.symm⟩)
  · intro connectable
    refine ⟨fun one member => ?_, ?_, fun one member conn listed => ?_⟩
    · rcases List.mem_cons.mp member with rfl | further
      · exact joined
      · exact (joins_congr nodes one).mp (connectable.joined one further)
    · rw [List.map_cons, List.nodup_cons]
      refine ⟨fun member => ?_, connectable.identified⟩
      obtain ⟨one, further, same⟩ := List.mem_map.mp member
      refine connectable.untaken one further ends.connection ?_ same.symm
      rw [connections]
      exact List.mem_append_right _ (List.mem_singleton_self _)
    · rcases List.mem_cons.mp member with rfl | further
      · exact untaken conn listed
      · refine connectable.untaken one further conn ?_
        rw [connections]
        exact List.mem_append_left _ listed

variable (registry) in
theorem drawn_all {store : Store} {batch : List Command}
    (opened : store.history.currentBatch = some batch) (ends : List Endpoints) :
    ∃ commands added, Drawn registry store ends (ends.foldl (Store.connect registry) store)
      batch commands added := by
  induction ends generalizing store batch with
  | nil =>
      have nothing : store.adapter.editor.Connectable registry [] :=
        ⟨fun _ member => absurd member List.not_mem_nil, List.nodup_nil,
          fun _ member => absurd member List.not_mem_nil⟩
      exact ⟨[], [], by rw [List.append_nil]; exact opened, .refl _, .nil, rfl,
        (List.append_nil _).symm, le_rfl, fun _ => rfl, fun _ => nothing⟩
  | cons one rest ih =>
      have history : (store.connect registry one).history.currentBatch =
          some (batch ++ (RecordedAction.connectOne registry store.adapter one.source
            one.sourceHandle one.target one.targetHandle).2) :=
        congrArg HistoryManager.currentBatch (HistoryManager.pushAll_batch _ batch _ opened)
      have adds : AddsNodes store.adapter.editor _ (store.connect registry one).adapter.editor 0 :=
        addsNodes_connectOne registry store.adapter one.source one.sourceHandle one.target
          one.targetHandle
      have performed : Performed (Command.undo registry) store.adapter _
          (store.connect registry one).adapter :=
        connectOne_performed one.source one.sourceHandle one.target one.targetHandle
      have adapter : (store.connect registry one).adapter = (store.adapter.addConnection registry
          one.source one.sourceHandle one.target one.targetHandle).1 := by
        change (RecordedAction.connectOne registry store.adapter _ _ _ _).1 = _
        rw [connectOne_eq]
      have nodes :
          (store.connect registry one).adapter.editor.nodes = store.adapter.editor.nodes := by
        rw [adapter, WorkflowAdapter.addConnection_nodes]
      have connections : (store.connect registry one).adapter.editor.connections =
          if store.adapter.editor.canConnect registry one.source one.sourceHandle one.target
            one.targetHandle then store.adapter.editor.connections ++ [one.connection]
          else store.adapter.editor.connections := by
        rw [adapter, WorkflowAdapter.addConnection_connections]
        rfl
      obtain ⟨further, added, later⟩ := ih history
      rw [List.foldl_cons]
      by_cases accepted : store.adapter.editor.canConnect registry one.source one.sourceHandle
        one.target one.targetHandle = true
      · rw [if_pos accepted] at connections
        have next : _ ↔ (store.connect registry one).adapter.editor.Connectable registry rest :=
          connectable_cons accepted nodes connections
        refine ⟨_, one :: added, ?_, adds.trans later.adds, performed.append later.performed,
          later.nodes.trans nodes, ?_, ?_, fun connectable => ?_, fun length => ?_⟩
        · rw [later.batch, List.append_assoc]
        · rw [later.connections, connections, List.append_assoc]
          rfl
        · exact Nat.succ_le_succ later.fewer
        · rw [later.all (next.mp connectable)]
        · exact next.mpr (later.only (Nat.succ.inj length))
      · rw [if_neg accepted] at connections
        refine ⟨_, added, ?_, adds.trans later.adds, performed.append later.performed,
          later.nodes.trans nodes, ?_, ?_, fun connectable => ?_, fun length => ?_⟩
        · rw [later.batch, List.append_assoc]
        · rw [later.connections, connections]
        · exact later.fewer.trans (Nat.le_succ _)
        · exact absurd connectable.accepts accepted
        · have fewer := later.fewer
          rw [List.length_cons] at length
          omega

end Pasting

end WorkflowStudio.Editor
