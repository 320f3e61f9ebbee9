import WorkflowStudio.Editor.RewindProperties

/-! The commands that the history still holds, and what leads back over them:
recorded actions, redo of an entry, and edits of nodes that a pending command
has added. -/

set_option autoImplicit false

namespace WorkflowStudio.Editor

open Lib Reversal

/-!
## The pending commands
-/

namespace HistoryManager

/-- The commands of the open batch. -/
def batched (history : HistoryManager) : List Command := history.currentBatch.getD []

/-- Every command that is still recorded, the latest one first. -/
def pending (history : HistoryManager) : List Command :=
  history.batched.reverse ++ history.undoStack.flatMap fun entry => entry.commands.reverse

/-- Neither the stack nor the open batch has no place for that many entries more. -/
def Room (history : HistoryManager) (entries : Nat) : Prop :=
  history.currentBatch = none → history.undoStack.length + entries ≤ maxSize

variable {history : HistoryManager}

theorem pending_eq_nil (empty : history.undoStack = []) (unbatched : history.batched = []) :
    history.pending = [] := by
  simp only [pending, empty, unbatched, List.reverse_nil, List.flatMap_nil, List.append_nil]

theorem pushEntry_undoStack {entry : HistoryEntry} (room : history.undoStack.length < maxSize) :
    (history.pushEntry entry).undoStack = entry :: history.undoStack := by
  have fits : ¬ maxSize < (entry :: history.undoStack).length := by
    rw [List.length_cons]
    omega
  simp only [pushEntry, fits, ↓reduceIte]

theorem pending_push {command : Command} (room : history.Room 1) :
    (history.push command).pending = command :: history.pending := by
  unfold push
  cases opened : history.currentBatch with
  | some batch =>
      simp only [pending, batched, opened, Option.getD_some, List.reverse_append,
        List.reverse_cons, List.reverse_nil, List.nil_append, List.cons_append]
  | none =>
      have batch : (history.pushEntry
          { description := command.description, commands := [command] }).batched = [] := by
        simp only [pushEntry, batched, opened, Option.getD_none]
      have before : history.batched = [] := by simp only [batched, opened, Option.getD_none]
      dsimp only
      rw [pending, batch, pushEntry_undoStack (room opened), pending, before]
      rfl

theorem pending_pushAll {commands : List Command} (room : history.Room commands.length) :
    (commands.foldl push history).pending = commands.reverse ++ history.pending := by
  induction commands generalizing history with
  | nil => rfl
  | cons command rest ih =>
      have here : history.Room 1 := by
        intro closed
        have total := room closed
        rw [List.length_cons] at total
        omega
      have later : (history.push command).Room rest.length := by
        intro closed
        cases opened : history.currentBatch with
        | some batch =>
            simp only [push, opened] at closed
            cases closed
        | none =>
            have total := room opened
            rw [List.length_cons] at total
            simp only [push, opened]
            rw [pushEntry_undoStack (here opened), List.length_cons]
            omega
      rw [List.foldl_cons, ih later, pending_push here, List.reverse_cons, List.append_assoc,
        List.singleton_append]

theorem pushAll_closed (commands : List Command) (closed : history.currentBatch = none) :
    (commands.foldl push history).currentBatch = none := by
  induction commands generalizing history with
  | nil => exact closed
  | cons command rest ih =>
      refine ih ?_
      simp only [push, closed, pushEntry]

theorem commitBatch_empty {description : String}
    (empty : (history.commitBatch description).undoStack = []) :
    history.undoStack = [] ∧ (history.commitBatch description).batched = [] := by
  unfold commitBatch at empty ⊢
  cases opened : history.currentBatch with
  | none =>
      rw [opened] at empty
      exact ⟨empty, rfl⟩
  | some batch =>
      rw [opened] at empty
      cases batch with
      | nil => exact ⟨empty, rfl⟩
      | cons first rest =>
          obtain ⟨below, top⟩ := ({ history with currentBatch := none } : HistoryManager).pushEntry_top
            { description := description, commands := first :: rest }
          dsimp only at empty
          rw [top] at empty
          cases empty

theorem pending_commitBatch {description : String}
    (room : history.batched ≠ [] → history.undoStack.length < maxSize) :
    (history.commitBatch description).pending = history.pending := by
  unfold commitBatch
  cases opened : history.currentBatch with
  | none => simp only [pending, batched, opened, Option.getD_none]
  | some batch =>
      cases batch with
      | nil => simp only [pending, batched, opened, Option.getD_none, Option.getD_some]
      | cons first rest =>
          have filled : history.batched = first :: rest := by
            simp only [batched, opened, Option.getD_some]
          have fits : history.undoStack.length < maxSize :=
            room (by rw [filled]; exact List.cons_ne_nil _ _)
          let idle : HistoryManager := { history with currentBatch := none }
          have stack : (idle.pushEntry
              { description := description, commands := first :: rest }).undoStack =
              { description := description, commands := first :: rest } :: history.undoStack :=
            pushEntry_undoStack fits
          change (idle.pushEntry _).pending = _
          rw [pending, stack, pending, filled]
          rfl

end HistoryManager

/-!
## Redo that undo takes back
-/

/-- The graph is one to which undo leads from the graph that the redo makes. -/
def Command.Retraceable (registry : Registry) (adapter : WorkflowAdapter) : Command → Prop
  | .addNode id type _ _ => id ≠ "" ∧ registry type ≠ none ∧ adapter.editor.FreshId id
  | .removeNode id type position config relatedConnections _ => ∃ node : Node,
      adapter.editor.nodes.get? id = some node ∧
      (node.id = id ∧ node.type = type ∧ node.position = position ∧ node.getConfig = config) ∧
      node.Plain registry ∧
      (∀ conn ∈ adapter.editor.connections, conn.involvesNode id = true →
        conn.Plain registry adapter.editor) ∧
      relatedConnections = (adapter.editor.connections.filter fun conn =>
        conn.involvesNode id).map Connection.toUi
  | .moveNode nodeId oldPosition _ => ∃ node, adapter.editor.nodes.get? nodeId = some node ∧
      node.position = oldPosition
  | .moveNodes nodeMoves => ∀ move ∈ nodeMoves, ∃ node,
      adapter.editor.nodes.get? move.nodeId = some node ∧ node.position = move.oldPosition
  | .addConnection source sourceHandle target targetHandle =>
      adapter.editor.canConnect registry source sourceHandle target targetHandle = true
  | .removeConnection captured => ∃ conn ∈ adapter.editor.connections, conn.toUi = captured ∧
      conn.Plain registry adapter.editor

inductive EntryRetraceable (registry : Registry) : List Command → WorkflowAdapter → Prop where
  | nil {adapter : WorkflowAdapter} : EntryRetraceable registry [] adapter
  | cons {command : Command} {commands : List Command} {adapter : WorkflowAdapter} :
      command.Retraceable registry adapter →
      EntryRetraceable registry commands (command.redo registry adapter) →
      EntryRetraceable registry (command :: commands) adapter

variable {registry : Registry} {adapter : WorkflowAdapter}

theorem Command.Retraceable.leads {command : Command} (formed : adapter.WellFormed registry)
    (retraceable : command.Retraceable registry adapter) :
    Leads (Command.undo registry) command (command.redo registry adapter) adapter := by
  cases command with
  | addNode id type position config =>
      obtain ⟨named, known, fresh⟩ := retraceable
      obtain ⟨nodeClass, registered⟩ := Option.ne_none_iff_exists'.mp known
      -- the removal that undoes the addition is a removal without connections, redone
      have unrelated : ∀ conn ∈ ([] : List UiConnection), conn.involvesNode id = true :=
        fun _ member => absurd member List.not_mem_nil
      exact removeNode_redone named registered fresh unrelated
  | removeNode id type position config relatedConnections related =>
      obtain ⟨node, found, ⟨rfl, rfl, rfl, rfl⟩, plain, connections, captured⟩ := retraceable
      exact removeNode_takenBack formed found plain connections captured related
  | moveNode nodeId oldPosition newPosition =>
      obtain ⟨node, found, rfl⟩ := retraceable
      exact moveNode_takenBack newPosition found
  | moveNodes nodeMoves => exact moveNodes_takenBack retraceable
  | addConnection source sourceHandle target targetHandle =>
      exact addConnection_takenBack retraceable
  | removeConnection captured =>
      obtain ⟨conn, listed, rfl, plain⟩ := retraceable
      exact removeConnection_takenBack listed plain

theorem EntryRetraceable.performed {commands : List Command}
    (retraceable : EntryRetraceable registry commands adapter)
    (formed : adapter.WellFormed registry) :
    Performed (Command.undo registry) adapter commands
      (redoAll (Command.redo registry) commands adapter) := by
  induction retraceable with
  | nil => exact .nil
  | cons here _ ih =>
      exact .cons (here.leads formed)
        (ih ((WorkflowAdapter.WellFormed.invariant registry).redo formed _))

/-!
## Recorded actions
-/

theorem getNode_none (mirrored : adapter.Mirrored registry) {nodeId : String}
    (hidden : adapter.getNode nodeId = none) : adapter.editor.nodes.get? nodeId = none := by
  cases found : adapter.editor.nodes.get? nodeId with
  | none => rfl
  | some node =>
      have own := (mirrored.formed.shaped nodeId node found).1
      have listed : node.toUi ∈ adapter.ui.nodes := by
        rw [mirrored.shown]
        exact List.mem_map.mpr ⟨node, List.mem_map.mpr
          ⟨(nodeId, node), OrderedMap.get?_eq_some_iff.mp found, rfl⟩, rfl⟩
      exact absurd (beq_iff_eq.mpr own) (List.find?_eq_none.mp hidden node.toUi listed)

theorem collectMoves_nothing {entries : List (String × Position)}
    (still : (RecordedAction.collectMoves entries adapter).2 = []) :
    (RecordedAction.collectMoves entries adapter).1 = adapter := by
  induction entries generalizing adapter with
  | nil => rfl
  | cons entry rest ih =>
      obtain ⟨nodeId, position⟩ := entry
      simp only [RecordedAction.collectMoves] at still ⊢
      split
      · next hidden =>
          simp only [hidden] at still
          exact ih still
      · next node found =>
          simp only [found] at still
          split
          · next same =>
              rw [if_pos same] at still
              exact ih still
          · next different =>
              rw [if_neg different] at still
              cases still

/-- With a mirror that shows the graph, an action that records nothing does nothing. -/
theorem run_nothing (mirrored : adapter.Mirrored registry) {action : RecordedAction}
    (unrecorded : (action.run registry adapter).2 = []) :
    (action.run registry adapter).1 = adapter := by
  cases action with
  | addNode type position =>
      simp only [RecordedAction.run, RecordedAction.addNodeAction] at unrecorded ⊢
      cases registered : registry type with
      | none => simp only [RecordedAction.addOne, WorkflowAdapter.addNode, registered]
      | some nodeClass =>
          obtain ⟨after, node, config, added, _⟩ :=
            addOne_of_registered adapter registered position
          rw [added] at unrecorded
          dsimp only at unrecorded
          split at unrecorded
          · split at unrecorded <;> cases unrecorded
          · cases unrecorded
  | removeNode nodeId =>
      simp only [RecordedAction.run, RecordedAction.removeNodeAction] at unrecorded ⊢
      cases found : adapter.getNode nodeId with
      | none => rfl
      | some node =>
          rw [found] at unrecorded
          cases unrecorded
  | addConnection source sourceHandle target targetHandle =>
      simp only [RecordedAction.run, connectOne_eq] at unrecorded ⊢
      split at unrecorded
      · cases unrecorded
      · next rejected => exact addConnection_of_rejected (Bool.not_eq_true _ ▸ rejected)
  | removeConnection connectionId =>
      simp only [RecordedAction.run, RecordedAction.removeConnectionAction] at unrecorded ⊢
      cases found : adapter.getConnection connectionId with
      | none => rfl
      | some conn =>
          rw [found] at unrecorded
          cases unrecorded
  | moveNode nodeId position =>
      simp only [RecordedAction.run, RecordedAction.moveNodeAction] at unrecorded ⊢
      cases found : adapter.getNode nodeId with
      | none => simp only [WorkflowAdapter.updatePosition, getNode_none mirrored found]
      | some node =>
          rw [found] at unrecorded
          dsimp only at unrecorded ⊢
          split
          · rfl
          · next moves =>
              rw [if_neg moves] at unrecorded
              cases unrecorded
  | moveNodes updates =>
      have nothing : (RecordedAction.collectMoves updates.entries adapter).2 = [] →
          (RecordedAction.collectMoves updates.entries adapter).1 = adapter :=
        collectMoves_nothing
      simp only [RecordedAction.run, RecordedAction.moveNodesAction] at unrecorded ⊢
      cases collected : RecordedAction.collectMoves updates.entries adapter with
      | mk moved nodeMoves =>
          rw [collected] at unrecorded nothing
          cases nodeMoves with
          | nil => exact nothing rfl
          | cons move rest => cases unrecorded

theorem run_taken (mirrored : adapter.Mirrored registry) {action : RecordedAction}
    (undoable : action.Undoable registry adapter.editor) :
    Performed (Command.undo registry) adapter (action.run registry adapter).2
      (action.run registry adapter).1 := by
  by_cases unrecorded : (action.run registry adapter).2 = []
  · rw [unrecorded, run_nothing mirrored unrecorded]
    exact .nil
  · exact run_performed mirrored.formed undoable unrecorded

/-!
## Edits that bypass the history
-/

section Near

variable {pending : List Command}

/-- The graph after a change of one node, whatever else the operation does. -/
structure Changed (nodeId : String) (change : Node → Node) (before after : WorkflowAdapter) :
    Prop where
  nodes : ∀ other, after.editor.nodes.get? other = if other = nodeId then
    (before.editor.nodes.get? nodeId).map change else before.editor.nodes.get? other
  connections : after.editor.connections = before.editor.connections

theorem Changed.of_modifyNode {nodeId : String} {change : Node → Node}
    {before after : WorkflowAdapter} (modified : after.editor =
      before.editor.modifyNode nodeId change) : Changed nodeId change before after := by
  refine ⟨fun other => ?_, by rw [modified, modifyNode_connections]⟩
  rw [modified, WorkflowEditor.modifyNode]
  cases found : before.editor.nodes.get? nodeId with
  | none =>
      by_cases same : other = nodeId
      · rw [if_pos same, same, Option.map_none]
        exact found
      · rw [if_neg same]
  | some node => exact OrderedMap.get?_set _ _ _ _

theorem Changed.near {nodeId : String} {change : Node → Node} {before after : WorkflowAdapter}
    (changed : Changed nodeId change before after)
    (typed : ∀ node, (change node).type = node.type)
    (passes : nodeId ∈ pending.filterMap Command.added ∨
      ∀ node, before.editor.nodes.get? nodeId = some node → change node = node) :
    NearFor pending after before := by
  rcases passes with added | same
  · refine .edited added (fun other different => ?_) ?_ changed.connections
    · rw [changed.nodes, if_neg different]
    · rw [changed.nodes, if_pos rfl, Option.map_map]
      congr 1
      exact funext typed
  · refine .of_same ⟨fun other => ?_, by rw [changed.connections]⟩
    rw [changed.nodes]
    split
    · next here =>
        subst other
        cases found : before.editor.nodes.get? nodeId with
        | none => rfl
        | some node => rw [Option.map_some, same node found]
    · rfl

/-- The operations that change a node when they find it. -/
theorem Changed.of_found {nodeId : String} {change : Node → Node} {before : WorkflowAdapter} :
    Changed nodeId change before (match before.editor.nodes.get? nodeId with
      | none => before
      | some _ => WorkflowAdapter.synced (before.editor.modifyNode nodeId change)) := by
  apply Changed.of_modifyNode
  cases found : before.editor.nodes.get? nodeId with
  | none => simp only [WorkflowEditor.modifyNode, found]
  | some node => rfl

theorem Changed.of_updatePosition (nodeId : String) (position : Position)
    (before : WorkflowAdapter) :
    Changed nodeId (fun node => { node with position := position }) before
      (before.updatePosition nodeId position) :=
  ⟨WorkflowAdapter.updatePosition_nodes position,
    WorkflowAdapter.updatePosition_connections position⟩

/-- A move, in a graph near the given one, that the given one allows. -/
theorem NearFor.moved {reached start : WorkflowAdapter} (near : NearFor pending reached start)
    {nodeId : String} {position : Position}
    (passes : nodeId ∈ pending.filterMap Command.added ∨ ∀ node,
      start.editor.nodes.get? nodeId = some node → { node with position := position } = node) :
    NearFor pending (reached.updatePosition nodeId position) start := by
  have here : NearFor pending (reached.updatePosition nodeId position) reached := by
    refine (Changed.of_updatePosition nodeId position reached).near (fun _ => rfl) ?_
    by_cases added : nodeId ∈ pending.filterMap Command.added
    · exact .inl added
    · refine .inr fun node found => ?_
      rcases passes with listed | same
      · exact absurd listed added
      · exact same node (by rw [← near.nodes nodeId added]; exact found)
  exact here.trans near

theorem moves_near {nodeMoves : List NodeMove} {reached start : WorkflowAdapter}
    (passes : ∀ move ∈ nodeMoves, move.nodeId ∈ pending.filterMap Command.added ∨ ∀ node,
      start.editor.nodes.get? move.nodeId = some node →
        { node with position := move.oldPosition } = node)
    (near : NearFor pending reached start) :
    NearFor pending ((Command.moveNodes nodeMoves).undo registry reached) start := by
  change NearFor pending (nodeMoves.foldl (fun moved move =>
    moved.updatePosition move.nodeId move.oldPosition) reached) start
  induction nodeMoves generalizing reached with
  | nil => exact near
  | cons move rest ih =>
      exact ih (fun other member => passes other (List.mem_cons_of_mem _ member))
        (near.moved (passes move List.mem_cons_self))

theorem collectMoves_near {entries : List (String × Position)} {reached start : WorkflowAdapter}
    (passes : ∀ entry ∈ entries, entry.1 ∈ pending.filterMap Command.added ∨ ∀ node,
      start.editor.nodes.get? entry.1 = some node → { node with position := entry.2 } = node)
    (near : NearFor pending reached start) :
    NearFor pending (RecordedAction.collectMoves entries reached).1 start := by
  induction entries generalizing reached with
  | nil => exact near
  | cons entry rest ih =>
      obtain ⟨nodeId, position⟩ := entry
      have later : ∀ other ∈ rest, other.1 ∈ pending.filterMap Command.added ∨ ∀ node,
          start.editor.nodes.get? other.1 = some node → { node with position := other.2 } = node :=
        fun other member => passes other (List.mem_cons_of_mem _ member)
      simp only [RecordedAction.collectMoves]
      split
      · exact ih later near
      · split
        · exact ih later near
        · exact ih later (near.moved (passes (nodeId, position) List.mem_cons_self))

end Near

end WorkflowStudio.Editor
