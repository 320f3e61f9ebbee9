import Mathlib.Data.List.Induction
import WorkflowStudio.Editor.WellFormedProperties

/-! Undo takes back what a recorded action has done to the graph, when the
action destroys nothing that its command does not capture. A command captures
the type, the position, the identifier and the configuration of a node and the
end points of a connection, so labels, metadata and loaded identifiers are
lost where they differ from what the editor makes anew. -/

set_option autoImplicit false

namespace WorkflowStudio.Editor

open Lib Reversal

/-!
## When an action can be taken back
-/

def WorkflowEditor.FreshId (editor : WorkflowEditor) (nodeId : String) : Prop :=
  editor.nodes.get? nodeId = none ∧ ∀ conn ∈ editor.connections, conn.involvesNode nodeId = false

/-- The node has an identifier, and the label and metadata of a new node of
its class. -/
def Node.Plain (registry : Registry) (node : Node) : Prop :=
  node.id ≠ "" ∧ node.metaFields = defaultNodeMeta ∧
    ∀ nodeClass, registry node.type = some nodeClass → node.label = nodeClass.label

/-- The connection is the one that `addConnection` makes for its end points,
`addConnection` would accept them, and no other connection has its identifier. -/
structure Connection.Plain (registry : Registry) (editor : WorkflowEditor) (conn : Connection) :
    Prop where
  generated : conn = Connection.new conn.source conn.sourceHandle conn.target conn.targetHandle
  distinct : conn.source ≠ conn.target
  connects : ∃ source target, editor.nodes.get? conn.source = some source ∧
    editor.nodes.get? conn.target = some target ∧
    WorkflowEditor.socketsMatch registry source target conn.sourceHandle conn.targetHandle = true
  alone : editor.connections.countP (fun other => other.id == conn.id) = 1

/-- An action destroys nothing that its commands do not capture. -/
def RecordedAction.Undoable (registry : Registry) (editor : WorkflowEditor) :
    RecordedAction → Prop
  | .addNode type _ => editor.FreshId editor.nextId ∧
      (type = "loop" → registry "noop" ≠ none →
        editor.FreshId ("n_" ++ toString (editor.idCounter + 2)))
  | .removeNode nodeId => ∀ node, editor.nodes.get? nodeId = some node → node.Plain registry ∧
      ∀ conn ∈ editor.connections, conn.involvesNode nodeId = true → conn.Plain registry editor
  | .removeConnection connectionId => ∀ conn,
      editor.connections.find? (fun other => other.id == connectionId) = some conn →
        conn.Plain registry editor
  | .addConnection _ _ _ _ | .moveNode _ _ | .moveNodes _ => True

/-- The action pushes one entry: it is not the addition of a loop node that
brings its placeholder with it. -/
def RecordedAction.Single (registry : Registry) : RecordedAction → Prop
  | .addNode type _ => type = "loop" → registry "noop" = none
  | _ => True

variable {registry : Registry} {adapter : WorkflowAdapter}

/-!
## Additions
-/

variable (registry) in
theorem addNode_takenBack {nodeId : String} (type : String) (position : Position)
    (config : Config) {after : WorkflowAdapter} {node : Node} (fresh : adapter.editor.FreshId nodeId)
    (nodes : after.editor.nodes = adapter.editor.nodes.set nodeId node)
    (connections : after.editor.connections = adapter.editor.connections) :
    Leads (Command.undo registry) (.addNode nodeId type position config) after adapter := by
  intro reached same
  have present : reached.editor.nodes.get? nodeId = some node := by
    rw [same.nodes, nodes, OrderedMap.get?_set_self]
  constructor
  · intro other
    rw [Command.undo, WorkflowAdapter.removeNode_nodes]
    split
    · next equal => rw [equal, fresh.1]
    · next different =>
        rw [same.nodes, nodes, OrderedMap.get?_set_of_ne _ _ different]
  · rw [Command.undo, WorkflowAdapter.removeNode_connections present]
    have filtered := same.connections.filter fun conn => !conn.involvesNode nodeId
    rw [connections, filter_untouched fresh.2] at filtered
    exact filtered

theorem canConnect_iff {editor : WorkflowEditor} {source sourceHandle target targetHandle : String} :
    editor.canConnect registry source sourceHandle target targetHandle = true ↔
      (∃ sourceNode targetNode, editor.nodes.get? source = some sourceNode ∧
        editor.nodes.get? target = some targetNode ∧
        WorkflowEditor.socketsMatch registry sourceNode targetNode sourceHandle targetHandle =
          true) ∧
      (∀ conn ∈ editor.connections,
        conn.id ≠ Connection.generateId source sourceHandle target targetHandle) ∧
      source ≠ target := by
  unfold WorkflowEditor.canConnect
  cases sourceFound : editor.nodes.get? source with
  | none => simp
  | some sourceNode =>
      cases targetFound : editor.nodes.get? target with
      | none => simp
      | some targetNode => simp [and_assoc]

/-- An accepted connection is removed by its identifier, wherever it stands. -/
theorem addConnection_takenBack {source sourceHandle target targetHandle : String}
    (accepted : adapter.editor.canConnect registry source sourceHandle target targetHandle = true) :
    Leads (Command.undo registry) (.addConnection source sourceHandle target targetHandle)
      (adapter.addConnection registry source sourceHandle target targetHandle).1 adapter := by
  intro reached same
  obtain ⟨_, absent, _⟩ := canConnect_iff.mp accepted
  have added : reached.editor.connections.Perm (adapter.editor.connections ++
      [Connection.new source sourceHandle target targetHandle]) := by
    have connections := same.connections
    rw [WorkflowAdapter.addConnection_connections, if_pos accepted] at connections
    exact connections
  constructor
  · intro nodeId
    rw [Command.undo, WorkflowAdapter.removeConnection_nodes, same.nodes,
      WorkflowAdapter.addConnection_nodes]
  · have identified : IdentifiedBy reached.editor.connections
        (Connection.new source sourceHandle target targetHandle) := by
      intro other member equal
      rcases List.mem_append.mp (added.mem_iff.mp member) with old | new
      · exact absurd equal (absent other old)
      · exact List.mem_singleton.mp new
    have unlisted : Connection.new source sourceHandle target targetHandle ∉
        adapter.editor.connections := fun member => absent _ member rfl
    have erased := eraseP_eq_erase identified
    rw [Command.undo, WorkflowAdapter.removeConnection_connections]
    change (reached.editor.connections.eraseP fun other =>
      other.id == (Connection.new source sourceHandle target targetHandle).id).Perm _
    rw [erased]
    have result := added.erase (Connection.new source sourceHandle target targetHandle)
    rw [List.erase_append_right _ unlisted, List.erase_cons_head, List.append_nil] at result
    exact result

/-!
## Removals
-/

theorem restored_eq {node : Node} {nodeClass : NodeClass}
    (registered : registry node.type = some nodeClass) (fits : node.Shaped registry)
    (plain : node.Plain registry) :
    Node.restored nodeClass node.type node.position node.id node.getConfig = node := by
  obtain ⟨controls, hidden⟩ := fits.config registered
  obtain ⟨_, metaFields, label⟩ := plain
  simp only [Node.restored, Node.setConfig, NodeClass.new, controls, hidden,
    ← label nodeClass registered, ← metaFields]

theorem getNode_spec (formed : adapter.WellFormed registry) {nodeId : String} {shown : UiNode}
    (found : adapter.getNode nodeId = some shown) :
    adapter.ui = adapter.editor.mirror ∧
      ∃ node, adapter.editor.nodes.get? nodeId = some node ∧ node.id = nodeId ∧
        shown = node.toUi := by
  have listed := List.mem_of_find?_eq_some found
  have named : shown.id = nodeId := by simpa using List.find?_some found
  rcases formed.mirrored with mirrored | blank
  · refine ⟨mirrored, ?_⟩
    rw [mirrored] at listed
    obtain ⟨node, member, rfl⟩ := List.mem_map.mp listed
    obtain ⟨entry, stored, rfl⟩ := List.mem_map.mp member
    have present : adapter.editor.nodes.get? entry.1 = some entry.2 :=
      OrderedMap.get?_eq_some_iff.mpr stored
    have own := (formed.shaped entry.1 entry.2 present).1
    have key : entry.1 = nodeId := own.symm.trans named
    exact ⟨entry.2, key ▸ present, named, rfl⟩
  · rw [blank] at listed
    cases listed

theorem reconnect_plain {before : WorkflowEditor} {start : WorkflowAdapter} {conn : Connection}
    (nodes : ∀ nodeId, start.editor.nodes.get? nodeId = before.nodes.get? nodeId)
    (plain : conn.Plain registry before)
    (apart : ∀ other ∈ start.editor.connections, other.id ≠ conn.id) :
    (start.reconnect registry conn.toUi).editor.connections =
      start.editor.connections ++ [conn] := by
  have identifier : Connection.generateId conn.source conn.sourceHandle conn.target
      conn.targetHandle = conn.id := congrArg Connection.id plain.generated.symm
  have accepted : start.editor.canConnect registry conn.source conn.sourceHandle conn.target
      conn.targetHandle = true := by
    rw [canConnect_iff]
    refine ⟨?_, ?_, plain.distinct⟩
    · rw [nodes, nodes]
      exact plain.connects
    · rw [identifier]
      exact apart
  refine WorkflowAdapter.addConnection_connections.trans ?_
  change (if start.editor.canConnect registry conn.source conn.sourceHandle conn.target
    conn.targetHandle then start.editor.connections ++ [Connection.new conn.source
      conn.sourceHandle conn.target conn.targetHandle] else start.editor.connections) = _
  rw [if_pos accepted, ← plain.generated]

theorem reconnect_all (before : WorkflowEditor) (conns : List Connection)
    {start : WorkflowAdapter}
    (nodes : ∀ nodeId, start.editor.nodes.get? nodeId = before.nodes.get? nodeId)
    (plain : ∀ conn ∈ conns, conn.Plain registry before)
    (apart : ∀ conn ∈ conns, ∀ other ∈ start.editor.connections, other.id ≠ conn.id)
    (alone : ∀ conn ∈ conns, conns.countP (fun other => other.id == conn.id) = 1) :
    (∀ nodeId, ((conns.map Connection.toUi).foldl (WorkflowAdapter.reconnect registry)
        start).editor.nodes.get? nodeId = before.nodes.get? nodeId) ∧
      ((conns.map Connection.toUi).foldl (WorkflowAdapter.reconnect registry)
        start).editor.connections = start.editor.connections ++ conns := by
  induction conns generalizing start with
  | nil => exact ⟨nodes, (List.append_nil _).symm⟩
  | cons conn rest ih =>
      have later : ∀ other ∈ rest, other.id ≠ conn.id := by
        intro other member equal
        have counted := alone conn List.mem_cons_self
        rw [List.countP_cons_of_pos (by simp)] at counted
        have positive : 0 < rest.countP fun other => other.id == conn.id :=
          List.countP_pos_iff.mpr ⟨other, member, by simpa using equal⟩
        omega
      have connections := reconnect_plain nodes (plain conn List.mem_cons_self)
        (apart conn List.mem_cons_self)
      have nextNodes : ∀ nodeId, (start.reconnect registry conn.toUi).editor.nodes.get? nodeId =
          before.nodes.get? nodeId := by
        intro nodeId
        rw [← nodes nodeId]
        exact congrArg (OrderedMap.get? · nodeId) WorkflowAdapter.addConnection_nodes
      have nextApart : ∀ other ∈ rest,
          ∀ old ∈ (start.reconnect registry conn.toUi).editor.connections, old.id ≠ other.id := by
        intro other member old listed
        rw [connections] at listed
        rcases List.mem_append.mp listed with stays | new
        · exact apart other (List.mem_cons_of_mem _ member) old stays
        · rw [List.mem_singleton.mp new]
          exact (later other member).symm
      have nextAlone : ∀ other ∈ rest, rest.countP (fun found => found.id == other.id) = 1 := by
        intro other member
        have counted := alone other (List.mem_cons_of_mem _ member)
        have skipped : ¬ (conn.id == other.id) = true := by
          simpa using (later other member).symm
        rwa [List.countP_cons_of_neg (p := fun found : Connection => found.id == other.id)
          skipped] at counted
      obtain ⟨finalNodes, finalConnections⟩ := ih nextNodes
        (fun other member => plain other (List.mem_cons_of_mem _ member)) nextApart nextAlone
      refine ⟨finalNodes, ?_⟩
      rw [List.map_cons, List.foldl_cons, finalConnections, connections, List.append_assoc,
        List.singleton_append]

/-- A plain connection of a node is alone among the connections of the node, and
no other connection has its identifier. -/
theorem Connection.Plain.alone_touching {editor : WorkflowEditor} {conn : Connection}
    (plain : conn.Plain registry editor) {nodeId : String}
    (member : conn ∈ editor.connections.filter fun conn => conn.involvesNode nodeId) :
    (editor.connections.filter fun conn => conn.involvesNode nodeId).countP
        (fun other => other.id == conn.id) = 1 ∧
      (editor.connections.filter fun conn => !conn.involvesNode nodeId).countP
        (fun other => other.id == conn.id) = 0 := by
  have counted := plain.alone
  rw [List.countP_eq_countP_filter_add _ _ fun conn => conn.involvesNode nodeId] at counted
  have positive : 0 < (editor.connections.filter fun conn =>
      conn.involvesNode nodeId).countP fun other => other.id == conn.id :=
    List.countP_pos_iff.mpr ⟨conn, member, by simp⟩
  omega

theorem removeNode_takenBack (formed : adapter.WellFormed registry) {node : Node}
    (found : adapter.editor.nodes.get? node.id = some node)
    (plain : node.Plain registry)
    (plainConnections : ∀ conn ∈ adapter.editor.connections, conn.involvesNode node.id = true →
      conn.Plain registry adapter.editor)
    {relatedConnections : List UiConnection}
    (captured : relatedConnections = (adapter.editor.connections.filter fun conn =>
      conn.involvesNode node.id).map Connection.toUi)
    (related : ∀ conn ∈ relatedConnections, conn.involvesNode node.id = true) :
    Leads (Command.undo registry)
      (.removeNode node.id node.type node.position node.getConfig relatedConnections related)
      (adapter.removeNode node.id) adapter := by
  intro reached same
  have fits := (formed.shaped node.id node found).2
  have ⟨nodeClass, registered, _⟩ := fits
  have restored := restored_eq registered fits plain
  -- the node is back, the connections that touch it are still missing
  have readded : ∀ other, (reached.addNodeWithId registry node.type node.position node.id
      node.getConfig).editor.nodes.get? other = adapter.editor.nodes.get? other := by
    intro other
    rw [WorkflowAdapter.addNodeWithId_nodes registered plain.1, restored]
    split
    · next equal => rw [equal, found]
    · next different => rw [same.nodes, WorkflowAdapter.removeNode_nodes, if_neg different]
  have others : reached.editor.connections.Perm (adapter.editor.connections.filter fun conn =>
      !conn.involvesNode node.id) := by
    have connections := same.connections
    rw [WorkflowAdapter.removeNode_connections found] at connections
    exact connections
  have touching : ∀ conn ∈ adapter.editor.connections.filter
      (fun conn => conn.involvesNode node.id), conn.Plain registry adapter.editor := by
    intro conn member
    exact plainConnections conn (List.mem_filter.mp member).1 (List.mem_filter.mp member).2
  obtain ⟨nodes, connections⟩ := reconnect_all adapter.editor
    (adapter.editor.connections.filter fun conn => conn.involvesNode node.id) readded touching
    (by
      intro conn member other listed equal
      rw [WorkflowAdapter.addNodeWithId_connections] at listed
      have none := ((touching conn member).alone_touching member).2
      rw [List.countP_eq_zero] at none
      exact none other (others.mem_iff.mp listed) (by simpa using equal))
    (fun conn member => ((touching conn member).alone_touching member).1)
  subst captured
  refine ⟨nodes, ?_⟩
  rw [Command.undo, connections, WorkflowAdapter.addNodeWithId_connections]
  refine ((others.append_right _).trans List.perm_append_comm).trans ?_
  exact List.filter_append_perm _ _

theorem Connection.Plain.identified {editor : WorkflowEditor} {conn : Connection}
    (plain : conn.Plain registry editor) (listed : conn ∈ editor.connections) :
    IdentifiedBy editor.connections conn := by
  intro other member equal
  have counted := plain.alone
  rw [List.countP_eq_length_filter, List.length_eq_one_iff] at counted
  obtain ⟨only, filtered⟩ := counted
  have isOnly : ∀ found ∈ editor.connections, found.id = conn.id → found = only := by
    intro found present same
    have kept : found ∈ editor.connections.filter fun other => other.id == conn.id :=
      List.mem_filter.mpr ⟨present, by simpa using same⟩
    rw [filtered] at kept
    exact List.mem_singleton.mp kept
  rw [isOnly other member equal, isOnly conn listed rfl]

theorem removeConnection_takenBack {conn : Connection}
    (listed : conn ∈ adapter.editor.connections)
    (plain : conn.Plain registry adapter.editor) :
    Leads (Command.undo registry) (.removeConnection conn.toUi)
      (adapter.removeConnection conn.id) adapter := by
  intro reached same
  have remaining : reached.editor.connections.Perm (adapter.editor.connections.erase conn) := by
    have connections := same.connections
    rw [WorkflowAdapter.removeConnection_connections,
      eraseP_eq_erase (plain.identified listed)] at connections
    exact connections
  have nodes : ∀ nodeId, reached.editor.nodes.get? nodeId = adapter.editor.nodes.get? nodeId := by
    intro nodeId
    rw [same.nodes, WorkflowAdapter.removeConnection_nodes]
  have identifier : Connection.generateId conn.source conn.sourceHandle conn.target
      conn.targetHandle = conn.id := congrArg Connection.id plain.generated.symm
  have absent : ∀ other ∈ reached.editor.connections, other.id ≠ conn.id := by
    intro other member equal
    have counted := plain.alone
    rw [(List.perm_cons_erase listed).countP_eq, List.countP_cons_of_pos (by simp)] at counted
    have positive : 0 < (adapter.editor.connections.erase conn).countP fun other =>
        other.id == conn.id :=
      List.countP_pos_iff.mpr ⟨other, remaining.mem_iff.mp member, by simpa using equal⟩
    omega
  have accepted : reached.editor.canConnect registry conn.source conn.sourceHandle conn.target
      conn.targetHandle = true := by
    rw [canConnect_iff, identifier, nodes, nodes]
    exact ⟨plain.connects, absent, plain.distinct⟩
  constructor
  · intro nodeId
    rw [← nodes nodeId]
    exact congrArg (OrderedMap.get? · nodeId) WorkflowAdapter.addConnection_nodes
  · refine (List.Perm.of_eq WorkflowAdapter.addConnection_connections).trans ?_
    change (if reached.editor.canConnect registry conn.source conn.sourceHandle conn.target
      conn.targetHandle then reached.editor.connections ++ [Connection.new conn.source
        conn.sourceHandle conn.target conn.targetHandle] else reached.editor.connections).Perm _
    rw [if_pos accepted, ← plain.generated]
    refine (remaining.append_right _).trans (List.perm_append_comm.trans ?_)
    exact (List.perm_cons_erase listed).symm

/-!
## Moves
-/

theorem moveNode_takenBack {node : Node} {nodeId : String} (position : Position)
    (found : adapter.editor.nodes.get? nodeId = some node) :
    Leads (Command.undo registry) (.moveNode nodeId node.position position)
      (adapter.updatePosition nodeId position) adapter := by
  intro reached same
  constructor
  · intro other
    rw [Command.undo, WorkflowAdapter.updatePosition_nodes, same.nodes, same.nodes,
      WorkflowAdapter.updatePosition_nodes, WorkflowAdapter.updatePosition_nodes, found]
    split
    · next equal => rw [equal, found, if_pos rfl]; rfl
    · rfl
  · rw [Command.undo, WorkflowAdapter.updatePosition_connections]
    have connections := same.connections
    rwa [WorkflowAdapter.updatePosition_connections] at connections

/-- The position to which the last of the moves of a node leads. -/
def lastPosition (pick : NodeMove → Position) (nodeMoves : List NodeMove) (nodeId : String) :
    Option Position :=
  nodeMoves.foldl (fun found move => if move.nodeId = nodeId then some (pick move) else found) none

theorem lastPosition_concat (pick : NodeMove → Position) (nodeMoves : List NodeMove)
    (move : NodeMove) (nodeId : String) :
    lastPosition pick (nodeMoves ++ [move]) nodeId =
      if move.nodeId = nodeId then some (pick move) else lastPosition pick nodeMoves nodeId := by
  simp only [lastPosition, List.foldl_append, List.foldl_cons, List.foldl_nil]

theorem lastPosition_cases (pick : NodeMove → Position) (nodeMoves : List NodeMove)
    (nodeId : String) :
    (lastPosition pick nodeMoves nodeId = none ∧ ∀ move ∈ nodeMoves, move.nodeId ≠ nodeId) ∨
      ∃ move ∈ nodeMoves, move.nodeId = nodeId ∧
        lastPosition pick nodeMoves nodeId = some (pick move) := by
  induction nodeMoves using List.reverseRecOn with
  | nil => exact .inl ⟨rfl, fun _ member => nomatch member⟩
  | append_singleton earlier move ih =>
      rw [lastPosition_concat]
      by_cases here : move.nodeId = nodeId
      · exact .inr ⟨move, by simp, here, if_pos here⟩
      · rw [if_neg here]
        rcases ih with ⟨none, absent⟩ | ⟨found, member, same, last⟩
        · refine .inl ⟨none, fun other listed => ?_⟩
          rcases List.mem_append.mp listed with old | new
          · exact absent other old
          · rw [List.mem_singleton.mp new]
            exact here
        · exact .inr ⟨found, List.mem_append_left _ member, same, last⟩

section Moves

variable (pick : NodeMove → Position) (nodeMoves : List NodeMove)

def WorkflowAdapter.moveAll (adapter : WorkflowAdapter) : WorkflowAdapter :=
  nodeMoves.foldl (fun moved move => moved.updatePosition move.nodeId (pick move)) adapter

theorem moveAll_connections :
    (adapter.moveAll pick nodeMoves).editor.connections = adapter.editor.connections := by
  induction nodeMoves using List.reverseRecOn with
  | nil => rfl
  | append_singleton earlier move ih =>
      simp only [WorkflowAdapter.moveAll, List.foldl_append, List.foldl_cons, List.foldl_nil]
      rw [WorkflowAdapter.updatePosition_connections]
      exact ih

theorem moveAll_nodes (nodeId : String) :
    (adapter.moveAll pick nodeMoves).editor.nodes.get? nodeId =
      match lastPosition pick nodeMoves nodeId with
      | none => adapter.editor.nodes.get? nodeId
      | some position =>
          (adapter.editor.nodes.get? nodeId).map fun node => { node with position := position } := by
  induction nodeMoves using List.reverseRecOn with
  | nil => rfl
  | append_singleton earlier move ih =>
      have moved : adapter.moveAll pick (earlier ++ [move]) =
          (adapter.moveAll pick earlier).updatePosition move.nodeId (pick move) := by
        simp only [WorkflowAdapter.moveAll, List.foldl_append, List.foldl_cons, List.foldl_nil]
      rw [moved, WorkflowAdapter.updatePosition_nodes, lastPosition_concat]
      by_cases here : move.nodeId = nodeId
      · subst nodeId
        rw [if_pos rfl, if_pos rfl, ih]
        cases lastPosition pick earlier move.nodeId with
        | none => rfl
        | some position =>
            simp only [Option.map_map]
            rfl
      · rw [if_neg fun equal => here equal.symm, if_neg here, ih]

end Moves

theorem collectMoves_spec (formed : adapter.WellFormed registry)
    (updates : List (String × Position)) (distinct : (updates.map Prod.fst).Nodup) :
    (RecordedAction.collectMoves updates adapter).1 =
        adapter.moveAll NodeMove.newPosition (RecordedAction.collectMoves updates adapter).2 ∧
      ∀ move ∈ (RecordedAction.collectMoves updates adapter).2,
        move.nodeId ∈ updates.map Prod.fst ∧
          ∃ node, adapter.editor.nodes.get? move.nodeId = some node ∧
            node.position = move.oldPosition := by
  induction updates generalizing adapter with
  | nil => exact ⟨rfl, fun _ member => nomatch member⟩
  | cons update rest ih =>
      obtain ⟨nodeId, position⟩ := update
      rw [List.map_cons, List.nodup_cons] at distinct
      unfold RecordedAction.collectMoves
      cases found : adapter.getNode nodeId with
      | none =>
          obtain ⟨after, recorded⟩ := ih formed distinct.2
          refine ⟨after, fun move member => ?_⟩
          obtain ⟨listed, known⟩ := recorded move member
          exact ⟨List.mem_cons_of_mem _ listed, known⟩
      | some shown =>
          dsimp only
          by_cases stays : shown.position = position
          · rw [if_pos stays]
            obtain ⟨after, recorded⟩ := ih formed distinct.2
            refine ⟨after, fun move member => ?_⟩
            obtain ⟨listed, known⟩ := recorded move member
            exact ⟨List.mem_cons_of_mem _ listed, known⟩
          · rw [if_neg stays]
            obtain ⟨_, node, present, _, rfl⟩ := getNode_spec formed found
            obtain ⟨after, recorded⟩ := ih (formed.updatePosition nodeId position) distinct.2
            refine ⟨after, fun move member => ?_⟩
            rcases List.mem_cons.mp member with first | later
            · rw [first]
              exact ⟨List.mem_cons_self, node, present, rfl⟩
            · obtain ⟨listed, other, known, position⟩ := recorded move later
              have different : move.nodeId ≠ nodeId := fun equal => distinct.1 (equal ▸ listed)
              rw [WorkflowAdapter.updatePosition_nodes, if_neg different] at known
              exact ⟨List.mem_cons_of_mem _ listed, other, known, position⟩

/-- Moves that recorded the positions they left are taken back, in any order. -/
theorem moveNodes_takenBack {nodeMoves : List NodeMove}
    (recorded : ∀ move ∈ nodeMoves, ∃ node,
      adapter.editor.nodes.get? move.nodeId = some node ∧ node.position = move.oldPosition) :
    Leads (Command.undo registry) (.moveNodes nodeMoves)
      (adapter.moveAll NodeMove.newPosition nodeMoves) adapter := by
  intro reached same
  constructor
  · intro nodeId
    change (reached.moveAll NodeMove.oldPosition nodeMoves).editor.nodes.get? nodeId = _
    rw [moveAll_nodes, same.nodes, moveAll_nodes]
    rcases lastPosition_cases NodeMove.oldPosition nodeMoves nodeId with
      ⟨none, absent⟩ | ⟨move, member, here, last⟩
    · rcases lastPosition_cases NodeMove.newPosition nodeMoves nodeId with
        ⟨newNone, _⟩ | ⟨move, member, here, _⟩
      · rw [none, newNone]
      · exact absurd here (absent move member)
    · obtain ⟨node, present, old⟩ := recorded move member
      rw [last, ← here, present]
      cases lastPosition NodeMove.newPosition nodeMoves move.nodeId with
      | none =>
          simp only [Option.map_some, ← old]
      | some position =>
          simp only [Option.map_some, ← old]
  · change (reached.moveAll NodeMove.oldPosition nodeMoves).editor.connections.Perm _
    rw [moveAll_connections]
    have connections := same.connections
    rwa [moveAll_connections] at connections

/-!
## Recorded actions
-/

variable (adapter) in
theorem addOne_of_registered {type : String} {nodeClass : NodeClass}
    (registered : registry type = some nodeClass) (position : Position) :
    ∃ after node config, RecordedAction.addOne registry adapter type position =
        (after, some (adapter.editor.nextId,
          .addNode adapter.editor.nextId type position config)) ∧
      after.editor.nodes = adapter.editor.nodes.set adapter.editor.nextId node ∧
      after.editor.connections = adapter.editor.connections ∧
      after.editor.idCounter = adapter.editor.idCounter + 1 := by
  unfold RecordedAction.addOne
  rw [WorkflowAdapter.addNode_of_registered registered]
  exact ⟨_, _, _, rfl, rfl, rfl, rfl⟩

theorem connectOne_eq (source sourceHandle target targetHandle : String) :
    RecordedAction.connectOne registry adapter source sourceHandle target targetHandle =
      ((adapter.addConnection registry source sourceHandle target targetHandle).1,
        if adapter.editor.canConnect registry source sourceHandle target targetHandle then
          [.addConnection source sourceHandle target targetHandle] else []) := by
  unfold RecordedAction.connectOne WorkflowAdapter.addConnection WorkflowEditor.addConnection
  by_cases accepted : adapter.editor.canConnect registry source sourceHandle target targetHandle
  · simp only [accepted, ↓reduceIte]
  · simp only [accepted, Bool.false_eq_true, ↓reduceIte]

theorem connectOne_performed (source sourceHandle target targetHandle : String) :
    Performed (Command.undo registry) adapter
      (RecordedAction.connectOne registry adapter source sourceHandle target targetHandle).2
      (RecordedAction.connectOne registry adapter source sourceHandle target targetHandle).1 := by
  rw [connectOne_eq]
  by_cases accepted : adapter.editor.canConnect registry source sourceHandle target targetHandle
  · rw [if_pos accepted]
    exact .single (addConnection_takenBack accepted)
  · rw [if_neg accepted]
    have rejected : (adapter.addConnection registry source sourceHandle target targetHandle).1 =
        adapter := by
      simp only [WorkflowAdapter.addConnection, WorkflowEditor.addConnection, accepted,
        Bool.false_eq_true, ↓reduceIte]
    rw [rejected]
    exact .nil

theorem second_ne_nextId (editor : WorkflowEditor) :
    "n_" ++ toString (editor.idCounter + 2) ≠ editor.nextId := by
  intro same
  have digits : (editor.idCounter + 2).repr = (editor.idCounter + 1).repr :=
    (String.append_right_inj "n_").mp same
  have read := congrArg (fun text : String => Nat.ofDigitChars 10 text.toList 0) digits
  simp only [Nat.toList_repr, Nat.ofDigitChars_ten_toDigits] at read
  omega

theorem addNodeAction_performed {type : String} {position : Position}
    (fresh : adapter.editor.FreshId adapter.editor.nextId)
    (freshNoop : type = "loop" → registry "noop" ≠ none →
      adapter.editor.FreshId ("n_" ++ toString (adapter.editor.idCounter + 2))) :
    Performed (Command.undo registry) adapter
      (RecordedAction.addNodeAction registry adapter type position).2
      (RecordedAction.addNodeAction registry adapter type position).1 := by
  unfold RecordedAction.addNodeAction
  cases registered : registry type with
  | none =>
      simp only [RecordedAction.addOne, WorkflowAdapter.addNode, registered]
      exact .nil
  | some nodeClass =>
      obtain ⟨after, node, config, added, nodes, connections, counter⟩ :=
        addOne_of_registered adapter registered position
      have first := addNode_takenBack registry type position config fresh nodes connections
      rw [added]
      dsimp only
      split
      · next isLoop =>
          cases noopRegistered : registry "noop" with
          | none =>
              simp only [RecordedAction.addOne, WorkflowAdapter.addNode, noopRegistered]
              exact .single first
          | some noopClass =>
              obtain ⟨further, noop, noopConfig, noopAdded, noopNodes, noopConnections, _⟩ :=
                addOne_of_registered after noopRegistered ⟨position.x + 80, position.y + 160⟩
              have noopFresh : after.editor.FreshId after.editor.nextId := by
                have before := freshNoop isLoop (by rw [noopRegistered]; exact Option.some_ne_none _)
                rw [WorkflowEditor.nextId, counter]
                refine ⟨?_, by rw [connections]; exact before.2⟩
                rw [nodes, OrderedMap.get?_set_of_ne _ _ (second_ne_nextId _)]
                exact before.1
              have second := addNode_takenBack registry "noop"
                ⟨position.x + 80, position.y + 160⟩ noopConfig noopFresh noopNodes noopConnections
              rw [noopAdded]
              dsimp only
              exact ((Performed.cons first (.single second)).append
                (connectOne_performed _ _ _ _)).append (connectOne_performed _ _ _ _)
      · exact .single first

theorem run_performed (formed : adapter.WellFormed registry) {action : RecordedAction}
    (undoable : action.Undoable registry adapter.editor)
    (recorded : (action.run registry adapter).2 ≠ []) :
    Performed (Command.undo registry) adapter (action.run registry adapter).2
      (action.run registry adapter).1 := by
  cases action with
  | addNode type position => exact addNodeAction_performed undoable.1 undoable.2
  | addConnection source sourceHandle target targetHandle => exact connectOne_performed _ _ _ _
  | removeNode nodeId =>
      simp only [RecordedAction.run, RecordedAction.removeNodeAction] at recorded ⊢
      cases found : adapter.getNode nodeId with
      | none => exact .nil
      | some shown =>
          obtain ⟨mirrored, node, present, rfl, rfl⟩ := getNode_spec formed found
          obtain ⟨plain, plainConnections⟩ := undoable node present
          have config : adapter.getNodeConfig node.id = node.getConfig := by
            simp only [WorkflowAdapter.getNodeConfig, present]
          dsimp only
          refine .single ?_
          rw [config]
          refine removeNode_takenBack formed present plain plainConnections ?_ _
          rw [mirrored, WorkflowEditor.mirror, List.filter_map]
          rfl
  | removeConnection connectionId =>
      simp only [RecordedAction.run, RecordedAction.removeConnectionAction] at recorded ⊢
      cases found : adapter.getConnection connectionId with
      | none => exact .nil
      | some shown =>
          rcases formed.mirrored with mirrored | blank
          · rw [WorkflowAdapter.getConnection, mirrored, WorkflowEditor.mirror, List.find?_map,
              Option.map_eq_some_iff] at found
            obtain ⟨conn, first, rfl⟩ := found
            have named : conn.toUi.id = connectionId := by simpa using List.find?_some first
            subst connectionId
            refine .single (removeConnection_takenBack (List.mem_of_find?_eq_some first) ?_)
            exact undoable conn first
          · rw [WorkflowAdapter.getConnection, blank] at found
            cases found
  | moveNode nodeId position =>
      simp only [RecordedAction.run, RecordedAction.moveNodeAction] at recorded ⊢
      cases found : adapter.getNode nodeId with
      | none =>
          rw [found] at recorded
          exact absurd rfl recorded
      | some shown =>
          obtain ⟨_, node, present, _, rfl⟩ := getNode_spec formed found
          dsimp only
          split
          · exact .nil
          · exact .single (moveNode_takenBack position present)
  | moveNodes updates =>
      obtain ⟨after, moves⟩ := collectMoves_spec formed updates.entries updates.distinct
      simp only [RecordedAction.run, RecordedAction.moveNodesAction] at recorded ⊢
      cases collected : RecordedAction.collectMoves updates.entries adapter with
      | mk moved nodeMoves =>
          rw [collected] at after moves recorded
          cases nodeMoves with
          | nil => exact absurd rfl recorded
          | cons move rest =>
              dsimp only at after moves ⊢
              rw [after]
              exact .single (moveNodes_takenBack fun listed member => (moves listed member).2)

/-!
## Undo of a recorded action and of a batch
-/

theorem HistoryManager.pushEntry_top (history : HistoryManager) (entry : HistoryEntry) :
    ∃ rest, (history.pushEntry entry).undoStack = entry :: rest := by
  unfold HistoryManager.pushEntry
  dsimp only
  split
  · next large =>
      cases stack : history.undoStack with
      | nil =>
          rw [stack] at large
          simp [HistoryManager.maxSize] at large
      | cons top below => exact ⟨_, rfl⟩
  · exact ⟨_, rfl⟩

theorem HistoryManager.pushAll_batch (commands batch : List Command) (history : HistoryManager)
    (opened : history.currentBatch = some batch) :
    commands.foldl HistoryManager.push history =
      { history with currentBatch := some (batch ++ commands) } := by
  induction commands generalizing history batch with
  | nil =>
      rw [List.append_nil, ← opened]
      rfl
  | cons command rest ih =>
      have pushed : history.push command =
          { history with currentBatch := some (batch ++ [command]) } := by
        simp only [HistoryManager.push, opened]
      rw [List.foldl_cons, pushed, ih (batch ++ [command]) _ rfl, List.append_assoc,
        List.singleton_append]

theorem Store.undo_adapter {store : Store} {entry : HistoryEntry} {rest : List HistoryEntry}
    (top : store.history.undoStack = entry :: rest) :
    (store.undo registry).adapter =
      undoAll (Command.undo registry) entry.commands store.adapter := by
  simp only [Store.undo, top]

theorem run_single {action : RecordedAction} (single : action.Single registry)
    (recorded : (action.run registry adapter).2 ≠ []) :
    ∃ command, (action.run registry adapter).2 = [command] := by
  cases action with
  | addNode type position =>
      simp only [RecordedAction.run, RecordedAction.addNodeAction] at recorded ⊢
      cases registered : registry type with
      | none =>
          simp only [RecordedAction.addOne, WorkflowAdapter.addNode, registered] at recorded
          exact absurd rfl recorded
      | some nodeClass =>
          obtain ⟨after, node, config, added, _⟩ :=
            addOne_of_registered adapter registered position
          rw [added]
          dsimp only
          split
          · next isLoop =>
              simp only [RecordedAction.addOne, WorkflowAdapter.addNode, single isLoop]
              exact ⟨_, rfl⟩
          · exact ⟨_, rfl⟩
  | removeNode nodeId =>
      simp only [RecordedAction.run, RecordedAction.removeNodeAction] at recorded ⊢
      split at recorded
      · exact absurd rfl recorded
      · exact ⟨_, rfl⟩
  | addConnection source sourceHandle target targetHandle =>
      simp only [RecordedAction.run, connectOne_eq] at recorded ⊢
      split at recorded
      · next accepted => exact ⟨_, if_pos accepted⟩
      · exact absurd rfl recorded
  | removeConnection connectionId =>
      simp only [RecordedAction.run, RecordedAction.removeConnectionAction] at recorded ⊢
      split at recorded
      · exact absurd rfl recorded
      · exact ⟨_, rfl⟩
  | moveNode nodeId position =>
      simp only [RecordedAction.run, RecordedAction.moveNodeAction] at recorded ⊢
      split at recorded
      · exact absurd rfl recorded
      · split at recorded
        · exact absurd rfl recorded
        · next moves => exact ⟨_, by rw [if_neg moves]⟩
  | moveNodes updates =>
      simp only [RecordedAction.run, RecordedAction.moveNodesAction] at recorded ⊢
      split at recorded
      · exact absurd rfl recorded
      · exact ⟨_, rfl⟩

/-- Each action of a batch records something and destroys nothing, in the
state that the actions before it leave. -/
inductive BatchUndoable (registry : Registry) : WorkflowAdapter → List RecordedAction → Prop where
  | nil {before : WorkflowAdapter} : BatchUndoable registry before []
  | cons {before : WorkflowAdapter} {action : RecordedAction} {rest : List RecordedAction} :
      action.Undoable registry before.editor → (action.run registry before).2 ≠ [] →
      BatchUndoable registry (action.run registry before).1 rest →
      BatchUndoable registry before (action :: rest)

def Store.performBatch (registry : Registry) (store : Store) (actions : List RecordedAction)
    (description : String) : Store :=
  let performed := actions.foldl (Store.perform registry)
    { store with history := store.history.startBatch }
  { performed with history := performed.history.commitBatch description }

theorem performAll_batch (store : Store) {batch : List Command} (actions : List RecordedAction)
    (formed : store.adapter.WellFormed registry)
    (opened : store.history.currentBatch = some batch)
    (undoable : BatchUndoable registry store.adapter actions) :
    ∃ commands, (actions.foldl (Store.perform registry) store).history.currentBatch =
        some (batch ++ commands) ∧
      (actions ≠ [] → commands ≠ []) ∧
      Performed (Command.undo registry) store.adapter commands
        (actions.foldl (Store.perform registry) store).adapter := by
  induction actions generalizing store batch with
  | nil => exact ⟨[], by rw [List.append_nil]; exact opened, fun empty => absurd rfl empty, .nil⟩
  | cons action rest ih =>
      cases undoable with
      | cons first recorded later =>
          have history : (store.perform registry action).history.currentBatch =
              some (batch ++ (action.run registry store.adapter).2) := by
            simp only [Store.perform]
            rw [HistoryManager.pushAll_batch _ batch _ opened]
          obtain ⟨commands, collected, _, performed⟩ :=
            ih (store.perform registry action) (formed.performed action) history later
          refine ⟨(action.run registry store.adapter).2 ++ commands, ?_, ?_, ?_⟩
          · rw [List.foldl_cons, collected, List.append_assoc]
          · intro _ empty
            exact recorded (List.append_eq_nil_iff.mp empty).1
          · exact (run_performed formed first recorded).append performed

theorem undo_perform {store : Store} (formed : store.adapter.WellFormed registry)
    {action : RecordedAction} (idle : store.history.currentBatch = none)
    (recorded : (action.run registry store.adapter).2 ≠ [])
    (single : action.Single registry) (undoable : action.Undoable registry store.adapter.editor) :
    ((store.perform registry action).undo registry).adapter ≈ store.adapter := by
  obtain ⟨command, commands⟩ := run_single single recorded
  have performed := run_performed formed undoable recorded
  rw [commands] at performed
  have history : (store.perform registry action).history =
      store.history.pushEntry { description := command.description, commands := [command] } := by
    simp only [Store.perform, commands, List.foldl_cons, List.foldl_nil, HistoryManager.push, idle]
  obtain ⟨rest, top⟩ := store.history.pushEntry_top
    { description := command.description, commands := [command] }
  rw [Store.undo_adapter (by rw [history]; exact top)]
  exact performed.takenBack _ (Setoid.refl _)

theorem undo_performBatch {store : Store} (formed : store.adapter.WellFormed registry)
    {actions : List RecordedAction} (description : String) (some : actions ≠ [])
    (undoable : BatchUndoable registry store.adapter actions) :
    ((store.performBatch registry actions description).undo registry).adapter ≈
      store.adapter := by
  obtain ⟨commands, collected, nonempty, performed⟩ := performAll_batch
    { store with history := store.history.startBatch } actions formed rfl undoable
  rw [List.nil_append] at collected
  have history : ∃ manager : HistoryManager,
      (store.performBatch registry actions description).history =
        manager.pushEntry { description := description, commands := commands } := by
    cases commands with
    | nil => exact absurd rfl (nonempty some)
    | cons first rest =>
        simp only [Store.performBatch, HistoryManager.commitBatch, collected]
        exact ⟨_, rfl⟩
  obtain ⟨manager, history⟩ := history
  obtain ⟨rest, top⟩ := manager.pushEntry_top { description := description, commands := commands }
  rw [Store.undo_adapter (by rw [history]; exact top)]
  exact performed.takenBack _ (Setoid.refl _)

/-- In every store that operations reach, undo restores the graph after each
recorded action, and after each batch of them, that destroys nothing its
commands do not capture. -/
theorem undo_restores (registry : Registry) (operations : List Operation) :
    (∀ action : RecordedAction,
      (Store.run registry operations).history.currentBatch = none →
      (action.run registry (Store.run registry operations).adapter).2 ≠ [] →
      action.Single registry →
      action.Undoable registry (Store.run registry operations).adapter.editor →
      (((Store.run registry operations).perform registry action).undo
          registry).adapter.toJSON.SameUpToOrder (Store.run registry operations).adapter.toJSON) ∧
    ∀ (actions : List RecordedAction) (description : String), actions ≠ [] →
      BatchUndoable registry (Store.run registry operations).adapter actions →
      (((Store.run registry operations).performBatch registry actions description).undo
          registry).adapter.toJSON.SameUpToOrder (Store.run registry operations).adapter.toJSON := by
  have formed := Store.run_formed registry operations
  constructor
  · intro action idle recorded single undoable
    exact WorkflowEditor.Same.toJSON (undo_perform formed idle recorded single undoable)
  · intro actions description nonempty undoable
    exact WorkflowEditor.Same.toJSON (undo_performBatch formed description nonempty undoable)

/-!
## A plain removal, and a renamed node
-/

def noopClass : NodeClass where
  label := "No Operation"
  inputs := [("data", dataSocket)]
  outputs := [("result", dataSocket)]
  controls := OrderedMap.empty
  hiddenDefaults := OrderedMap.empty
  separate := fun _ member => nomatch member
  ownHidden := fun _ member => nomatch member

def noopRegistry : Registry := fun type => if type = "noop" then some noopClass else none

def connectedNodes : List Operation := [
  .perform (.addNode "noop" ⟨0, 0⟩),
  .perform (.addNode "noop" ⟨200, 0⟩),
  .perform (.addConnection "n_1" "result" "n_2" "data")]

theorem undo_restores_connectedNodes :
    (((Store.run noopRegistry connectedNodes).perform noopRegistry (.removeNode "n_1")).undo
        noopRegistry).adapter.toJSON.SameUpToOrder
      (Store.run noopRegistry connectedNodes).adapter.toJSON := by
  refine (undo_restores noopRegistry connectedNodes).1 (.removeNode "n_1") rfl
    (List.ne_nil_of_length_pos (by decide)) trivial ?_
  intro node found
  have first : node = { noopClass.new "noop" with id := "n_1" } :=
    Option.some.inj (found.symm.trans (by decide))
  subst first
  refine ⟨⟨by decide, rfl, fun nodeClass registered => ?_⟩, fun conn member _ => ?_⟩
  · cases registered
    rfl
  · have listed : (Store.run noopRegistry connectedNodes).adapter.editor.connections =
        [Connection.new "n_1" "result" "n_2" "data"] := by decide
    rw [listed, List.mem_singleton] at member
    subst member
    exact ⟨rfl, by decide, ⟨_, _, rfl, rfl, by decide⟩, by decide⟩

/-- A removed node that was renamed comes back with the label of its class. -/
theorem undo_loses_label :
    (Store.run noopRegistry [.perform (.addNode "noop" ⟨0, 0⟩),
      .renameNode "n_1" "Approve"]).history.currentBatch = none ∧
    ((RecordedAction.removeNode "n_1").run noopRegistry (Store.run noopRegistry
      [.perform (.addNode "noop" ⟨0, 0⟩), .renameNode "n_1" "Approve"]).adapter).2 ≠ [] ∧
    ¬ (((Store.run noopRegistry [.perform (.addNode "noop" ⟨0, 0⟩),
        .renameNode "n_1" "Approve"]).perform noopRegistry (.removeNode "n_1")).undo
        noopRegistry).adapter.toJSON.SameUpToOrder
      (Store.run noopRegistry [.perform (.addNode "noop" ⟨0, 0⟩),
        .renameNode "n_1" "Approve"]).adapter.toJSON := by
  refine ⟨rfl, List.ne_nil_of_length_pos (by decide), fun same => ?_⟩
  have labels := same.nodes.map NodeData.label
  have lost : [some "No Operation"].Perm [some "Approve"] := labels
  exact absurd (List.perm_singleton.mp lost) (by decide)

end WorkflowStudio.Editor
