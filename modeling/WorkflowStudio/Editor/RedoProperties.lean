import WorkflowStudio.Editor.UndoProperties

/-! Redo replays the command that undo has taken back. It leads back to the
graph before the undo when that graph is what the command makes: nothing that
the command does not know of was edited since it was recorded. -/

set_option autoImplicit false

namespace WorkflowStudio.Editor

open Lib Reversal

/-- The graph is one to which the command leads from the graph its undo leaves. -/
def Command.Redoable (registry : Registry) (editor : WorkflowEditor) : Command → Prop
  | .addNode id type position config => id ≠ "" ∧
      (∃ nodeClass, registry type = some nodeClass ∧
        editor.nodes.get? id = some (Node.restored nodeClass type position id config)) ∧
      ∀ conn ∈ editor.connections, conn.involvesNode id = false
  | .removeNode id type _ _ _ _ => id ≠ "" ∧ registry type ≠ none ∧ editor.FreshId id
  | .moveNode nodeId _ newPosition => ∀ node, editor.nodes.get? nodeId = some node →
      node.position = newPosition
  | .moveNodes nodeMoves => ∀ nodeId node position, editor.nodes.get? nodeId = some node →
      lastPosition NodeMove.newPosition nodeMoves nodeId = some position →
        node.position = position
  | .addConnection source sourceHandle target targetHandle =>
      (Connection.new source sourceHandle target targetHandle ∈ editor.connections ∧
        (Connection.new source sourceHandle target targetHandle).Plain registry editor) ∨
      ((∀ conn ∈ editor.connections,
          conn.id ≠ Connection.generateId source sourceHandle target targetHandle) ∧
        editor.canConnect registry source sourceHandle target targetHandle = false)
  | .removeConnection captured =>
      (editor.canConnect registry captured.source captured.sourceHandle captured.target
          captured.targetHandle = true ∧
        captured.id = Connection.generateId captured.source captured.sourceHandle captured.target
          captured.targetHandle) ∨
      (editor.canConnect registry captured.source captured.sourceHandle captured.target
          captured.targetHandle = false ∧
        ∀ conn ∈ editor.connections, conn.id ≠ captured.id)

/-- Each command of an entry is redoable in the state in which it is undone,
the last one first. -/
inductive EntryRedoable (registry : Registry) : List Command → WorkflowAdapter → Prop where
  | nil {adapter : WorkflowAdapter} : EntryRedoable registry [] adapter
  | concat {commands : List Command} {command : Command} {adapter : WorkflowAdapter} :
      command.Redoable registry adapter.editor →
      EntryRedoable registry commands (command.undo registry adapter) →
      EntryRedoable registry (commands ++ [command]) adapter

variable {registry : Registry} {adapter : WorkflowAdapter}

/-!
## Nodes
-/

theorem addNode_redone {id type : String} {position : Position} {config : Config}
    {nodeClass : NodeClass} (named : id ≠ "") (registered : registry type = some nodeClass)
    (found : adapter.editor.nodes.get? id =
      some (Node.restored nodeClass type position id config))
    (apart : ∀ conn ∈ adapter.editor.connections, conn.involvesNode id = false) :
    Leads (Command.redo registry) (.addNode id type position config)
      (adapter.removeNode id) adapter := by
  intro reached same
  constructor
  · intro other
    rw [Command.redo, WorkflowAdapter.addNodeWithId_nodes registered named]
    split
    · next equal => rw [equal, found]
    · next different => rw [same.nodes, WorkflowAdapter.removeNode_nodes, if_neg different]
  · have connections := same.connections
    rw [WorkflowAdapter.removeNode_connections found, filter_untouched apart] at connections
    rw [Command.redo, WorkflowAdapter.addNodeWithId_connections]
    exact connections

variable (registry) in
theorem reconnect_filter {nodeId : String} (relatedConnections : List UiConnection)
    (related : ∀ conn ∈ relatedConnections, conn.involvesNode nodeId = true)
    (start : WorkflowAdapter) :
    (relatedConnections.foldl (WorkflowAdapter.reconnect registry) start).editor.nodes =
        start.editor.nodes ∧
      ((relatedConnections.foldl (WorkflowAdapter.reconnect registry)
        start).editor.connections.filter fun conn => !conn.involvesNode nodeId) =
        start.editor.connections.filter fun conn => !conn.involvesNode nodeId := by
  induction relatedConnections generalizing start with
  | nil => exact ⟨rfl, rfl⟩
  | cons captured rest ih =>
      have later := ih (fun conn member => related conn (List.mem_cons_of_mem _ member))
        (start.reconnect registry captured)
      rw [List.foldl_cons, later.1, later.2]
      refine ⟨WorkflowAdapter.addConnection_nodes, ?_⟩
      have touches : (Connection.new captured.source captured.sourceHandle captured.target
          captured.targetHandle).involvesNode nodeId = true := related captured List.mem_cons_self
      rw [WorkflowAdapter.reconnect, WorkflowAdapter.addConnection_connections]
      split
      · rw [List.filter_append, List.filter_cons_of_neg (by simpa using touches), List.filter_nil,
          List.append_nil]
      · rfl

theorem removeNode_redone {id type : String} {position : Position} {config : Config}
    {relatedConnections : List UiConnection} {nodeClass : NodeClass} (named : id ≠ "")
    (registered : registry type = some nodeClass) (fresh : adapter.editor.FreshId id)
    (related : ∀ conn ∈ relatedConnections, conn.involvesNode id = true) :
    Leads (Command.redo registry) (.removeNode id type position config relatedConnections related)
      (Command.undo registry
        (.removeNode id type position config relatedConnections related) adapter) adapter := by
  intro reached same
  obtain ⟨nodes, filtered⟩ := reconnect_filter registry relatedConnections related
    (adapter.addNodeWithId registry type position id config)
  have lookup : ∀ other, reached.editor.nodes.get? other = if other = id then
      some (Node.restored nodeClass type position id config)
      else adapter.editor.nodes.get? other := by
    intro other
    rw [same.nodes, Command.undo, nodes, WorkflowAdapter.addNodeWithId_nodes registered named]
  constructor
  · intro other
    rw [Command.redo, WorkflowAdapter.removeNode_nodes, lookup]
    split
    · next equal => rw [equal, fresh.1]
    · rfl
  · rw [Command.redo, WorkflowAdapter.removeNode_connections ((lookup id).trans (if_pos rfl))]
    have connections := same.connections.filter fun conn => !conn.involvesNode id
    rw [Command.undo, filtered, WorkflowAdapter.addNodeWithId_connections,
      filter_untouched fresh.2] at connections
    exact connections

theorem moveNodes_redone {nodeMoves : List NodeMove}
    (stays : ∀ nodeId node position, adapter.editor.nodes.get? nodeId = some node →
      lastPosition NodeMove.newPosition nodeMoves nodeId = some position →
        node.position = position) :
    Leads (Command.redo registry) (.moveNodes nodeMoves)
      (adapter.moveAll NodeMove.oldPosition nodeMoves) adapter := by
  intro reached same
  constructor
  · intro nodeId
    change (reached.moveAll NodeMove.newPosition nodeMoves).editor.nodes.get? nodeId = _
    rw [moveAll_nodes, same.nodes, moveAll_nodes]
    cases found : adapter.editor.nodes.get? nodeId with
    | none =>
        cases lastPosition NodeMove.newPosition nodeMoves nodeId <;>
          cases lastPosition NodeMove.oldPosition nodeMoves nodeId <;> rfl
    | some node =>
        rcases lastPosition_cases NodeMove.newPosition nodeMoves nodeId with
          ⟨none, absent⟩ | ⟨move, member, here, last⟩
        · rcases lastPosition_cases NodeMove.oldPosition nodeMoves nodeId with
            ⟨oldNone, _⟩ | ⟨move, member, here, _⟩
          · rw [none, oldNone]
          · exact absurd here (absent move member)
        · have position := stays nodeId node _ found last
          rw [last]
          cases lastPosition NodeMove.oldPosition nodeMoves nodeId with
          | none => simp only [Option.map_some, ← position]
          | some old => simp only [Option.map_some, ← position]
  · change (reached.moveAll NodeMove.newPosition nodeMoves).editor.connections.Perm _
    rw [moveAll_connections]
    have connections := same.connections
    rwa [moveAll_connections] at connections

/-!
## Connections
-/

theorem removeConnection_of_absent {connectionId : String}
    (absent : ∀ conn ∈ adapter.editor.connections, conn.id ≠ connectionId) :
    adapter.removeConnection connectionId = adapter := by
  unfold WorkflowAdapter.removeConnection
  rw [if_neg]
  intro present
  obtain ⟨conn, member, same⟩ := List.any_eq_true.mp present
  exact absent conn member (by simpa using same)

theorem addConnection_of_rejected {source sourceHandle target targetHandle : String}
    (rejected :
      adapter.editor.canConnect registry source sourceHandle target targetHandle = false) :
    (adapter.addConnection registry source sourceHandle target targetHandle).1 = adapter := by
  simp only [WorkflowAdapter.addConnection, WorkflowEditor.addConnection, rejected,
    Bool.false_eq_true, ↓reduceIte]

/-!
## Entries
-/

theorem Command.Redoable.leads {command : Command}
    (redoable : command.Redoable registry adapter.editor) :
    Leads (Command.redo registry) command (command.undo registry adapter) adapter := by
  cases command with
  | addNode id type position config =>
      obtain ⟨named, ⟨nodeClass, registered, found⟩, apart⟩ := redoable
      exact addNode_redone named registered found apart
  | removeNode id type position config relatedConnections related =>
      obtain ⟨named, known, fresh⟩ := redoable
      obtain ⟨nodeClass, registered⟩ := Option.ne_none_iff_exists'.mp known
      exact removeNode_redone named registered fresh related
  | moveNode nodeId oldPosition newPosition =>
      -- one move is a list of one move
      have alike : Leads (Command.redo registry)
          (.moveNodes [⟨nodeId, oldPosition, newPosition⟩])
          (adapter.moveAll NodeMove.oldPosition [⟨nodeId, oldPosition, newPosition⟩]) adapter := by
        apply moveNodes_redone
        intro other node position found last
        simp only [lastPosition, List.foldl_cons, List.foldl_nil] at last
        split at last
        · next here =>
            cases last
            exact redoable node (here ▸ found)
        · cases last
      exact alike
  | moveNodes nodeMoves => exact moveNodes_redone redoable
  | addConnection source sourceHandle target targetHandle =>
      rcases redoable with ⟨listed, plain⟩ | ⟨absent, rejected⟩
      · exact removeConnection_takenBack listed plain
      · intro reached same
        rw [Command.undo, removeConnection_of_absent absent] at same
        rw [Command.redo, addConnection_of_rejected
          ((WorkflowAdapter.canConnect_congr same _ _ _ _).trans rejected)]
        exact same
  | removeConnection captured =>
      rcases redoable with ⟨accepted, identifier⟩ | ⟨rejected, absent⟩
      · have back := addConnection_takenBack accepted
        intro reached same
        rw [Command.redo, identifier]
        exact back reached same
      · intro reached same
        rw [Command.undo, WorkflowAdapter.reconnect, addConnection_of_rejected rejected] at same
        rw [Command.redo, removeConnection_of_absent]
        · exact same
        · intro conn member
          exact absent conn (same.connections.mem_iff.mp member)

theorem EntryRedoable.replays {commands : List Command}
    (redoable : EntryRedoable registry commands adapter) :
    Replays (Command.undo registry) (Command.redo registry) commands adapter := by
  induction redoable with
  | nil => exact .nil
  | concat here _ ih => exact .concat here.leads ih

theorem Store.redo_undo {store : Store} {entry : HistoryEntry} {rest : List HistoryEntry}
    (top : store.history.undoStack = entry :: rest)
    (redoable : EntryRedoable registry entry.commands store.adapter) :
    ((store.undo registry).redo registry).adapter ≈ store.adapter := by
  simp only [Store.redo, Store.undo, top]
  exact redoable.replays.redone

/-- In every store that operations reach, an undo that succeeds is undone by
redo when the graph is still the one that the top entry of the history makes. -/
theorem redo_restores (registry : Registry) (operations : List Operation) (entry : HistoryEntry)
    (rest : List HistoryEntry)
    (top : (Store.run registry operations).history.undoStack = entry :: rest)
    (redoable : EntryRedoable registry entry.commands (Store.run registry operations).adapter) :
    (((Store.run registry operations).undo registry).redo
      registry).adapter.toJSON.SameUpToOrder (Store.run registry operations).adapter.toJSON :=
  WorkflowEditor.Same.toJSON (Store.redo_undo top redoable)

theorem redo_restores_connectedNodes :
    (((Store.run noopRegistry connectedNodes).undo noopRegistry).redo
      noopRegistry).adapter.toJSON.SameUpToOrder
        (Store.run noopRegistry connectedNodes).adapter.toJSON := by
  have redoable : (Command.addConnection "n_1" "result" "n_2" "data").Redoable noopRegistry
      (Store.run noopRegistry connectedNodes).adapter.editor := by
    refine .inl ⟨by decide, rfl, by decide, ⟨_, _, rfl, rfl, by decide⟩, by decide⟩
  exact redo_restores noopRegistry connectedNodes
    ⟨"Add connection", [] ++ [.addConnection "n_1" "result" "n_2" "data"]⟩ _ rfl
    (.concat redoable .nil)

/-- Undo and redo of an addition lose the label that the node got since. -/
theorem redo_loses_label :
    (Store.run noopRegistry [.perform (.addNode "noop" ⟨0, 0⟩),
      .renameNode "n_1" "Approve"]).history.undoStack ≠ [] ∧
    ¬ (((Store.run noopRegistry [.perform (.addNode "noop" ⟨0, 0⟩),
        .renameNode "n_1" "Approve"]).undo noopRegistry).redo
        noopRegistry).adapter.toJSON.SameUpToOrder
      (Store.run noopRegistry [.perform (.addNode "noop" ⟨0, 0⟩),
        .renameNode "n_1" "Approve"]).adapter.toJSON := by
  refine ⟨List.ne_nil_of_length_pos (by decide), fun same => ?_⟩
  have lost : [some "No Operation"].Perm [some "Approve"] := same.nodes.map NodeData.label
  exact absurd (List.perm_singleton.mp lost) (by decide)

end WorkflowStudio.Editor
