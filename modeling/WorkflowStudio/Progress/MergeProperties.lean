import WorkflowStudio.Progress.ExecutionProgress

/-! What one bus message does to each field of the progress that is shown. -/

set_option autoImplicit false

namespace WorkflowStudio.Progress

open Lib Executor

/-!
## Statuses
-/

/-- The node identifiers under which a status can be shown. -/
def isShown (nodeId : String) : Prop := nodeId ≠ "" ∧ nodeId ≠ "__proto__"

instance (nodeId : String) : Decidable (isShown nodeId) := inferInstanceAs (Decidable (_ ∧ _))

theorem get?_showStatus (statuses : OrderedMap String ShownStatus) (nodeId other : String)
    (status : ShownStatus) :
    (showStatus statuses nodeId status).get? other =
      if nodeId = other ∧ other ≠ "__proto__" then some status else statuses.get? other := by
  unfold showStatus
  by_cases hidden : nodeId = "__proto__"
  · have skipped : ¬ (nodeId = other ∧ other ≠ "__proto__") := by
      rintro ⟨rfl, shown⟩
      exact shown hidden
    rw [if_pos hidden, if_neg skipped]
  · rw [if_neg hidden, OrderedMap.get?_set]
    by_cases same : nodeId = other
    · subst same
      simp [hidden]
    · simp [same, Ne.symm same]

namespace ExecutionProgress

def statusOf (progress : ExecutionProgress) (nodeId : String) : Option ShownStatus :=
  progress.nodeStatuses.get? nodeId

theorem completeNode_status (progress : ExecutionProgress) (node : BusNode) (nodeId : String) :
    (progress.completeNode node).statusOf nodeId =
      if node.nodeId = nodeId ∧ isShown nodeId then some (shownOf node.status)
      else progress.statusOf nodeId := by
  unfold completeNode isShown statusOf
  by_cases empty : node.nodeId = ""
  · have skipped : ¬ (node.nodeId = nodeId ∧ nodeId ≠ "" ∧ nodeId ≠ "__proto__") := by
      rintro ⟨rfl, shown, _⟩
      exact shown empty
    rw [if_pos empty, if_neg skipped]
  · rw [if_neg empty]
    simp only [get?_showStatus]
    congr 1
    apply propext
    constructor
    · rintro ⟨rfl, shown⟩
      exact ⟨rfl, empty, shown⟩
    · rintro ⟨rfl, _, shown⟩
      exact ⟨rfl, shown⟩

theorem addConnections_eq (progress : ExecutionProgress) (events : List ConnectionEvent) :
    events.foldl addConnection progress =
      { progress with
        executedConnectionIds := progress.executedConnectionIds ++ getExecutedConnectionIds events
        executedConnections := progress.executedConnections ++ events } := by
  induction events generalizing progress with
  | nil => simp [getExecutedConnectionIds]
  | cons event rest ih =>
      rw [List.foldl_cons, ih]
      cases named : present event.connectionId <;>
        simp [addConnection, getExecutedConnectionIds, named]

theorem announce_status (progress : ExecutionProgress) (next : Option String) (nodeId : String) :
    (progress.announce next).statusOf nodeId =
      if next = some nodeId ∧ isShown nodeId then some .running else progress.statusOf nodeId := by
  unfold announce
  cases named : present next with
  | none =>
      have skipped : ¬ (next = some nodeId ∧ isShown nodeId) := by
        rintro ⟨rfl, shown, _⟩
        have kept := present_eq_some.mpr ⟨rfl, shown⟩
        rw [named] at kept
        cases kept
      rw [if_neg skipped]
  | some announced =>
      obtain ⟨rfl, nonempty⟩ := present_eq_some.mp named
      unfold statusOf
      simp only [get?_showStatus, Option.some.injEq]
      congr 1
      apply propext
      constructor
      · rintro ⟨rfl, shown⟩
        exact ⟨rfl, nonempty, shown⟩
      · rintro ⟨rfl, _, shown⟩
        exact ⟨rfl, shown⟩

theorem finish_statuses (progress : ExecutionProgress) (report : Option FinalReport) :
    (progress.finish report).nodeStatuses = progress.nodeStatuses := by
  cases report <;> rfl

theorem merge_status (progress : ExecutionProgress) (message : BusMessage) (nodeId : String) :
    (progress.merge message).statusOf nodeId =
      if message.nextRunningNodeId = some nodeId ∧ isShown nodeId then some .running
      else (message.completedNodes.foldl completeNode progress).statusOf nodeId := by
  unfold merge
  have finished := finish_statuses
    (((message.connections.foldl addConnection
      (message.completedNodes.foldl completeNode progress)).announce
        message.nextRunningNodeId)) message.report
  have announced := announce_status (message.connections.foldl addConnection
    (message.completedNodes.foldl completeNode progress)) message.nextRunningNodeId nodeId
  have routed : (message.connections.foldl addConnection
      (message.completedNodes.foldl completeNode progress)).nodeStatuses =
      (message.completedNodes.foldl completeNode progress).nodeStatuses := by
    rw [addConnections_eq]
  unfold statusOf at announced ⊢
  rw [finished, announced, routed]

/-!
## The other fields
-/

theorem completeNode_frame (progress : ExecutionProgress) (node : BusNode) :
    (progress.completeNode node).runId = progress.runId ∧
      (progress.completeNode node).executedConnections = progress.executedConnections ∧
      (progress.completeNode node).executedConnectionIds = progress.executedConnectionIds := by
  unfold completeNode
  split
  · exact ⟨rfl, rfl, rfl⟩
  · exact ⟨rfl, rfl, rfl⟩

/-- Completed nodes change the statuses and the order only. -/
theorem completeNodes_frame (progress : ExecutionProgress) (nodes : List BusNode) :
    (nodes.foldl completeNode progress).runId = progress.runId ∧
      (nodes.foldl completeNode progress).executedConnections = progress.executedConnections ∧
      (nodes.foldl completeNode progress).executedConnectionIds =
        progress.executedConnectionIds := by
  induction nodes generalizing progress with
  | nil => exact ⟨rfl, rfl, rfl⟩
  | cons node rest ih =>
      obtain ⟨run, connections, ids⟩ := ih (progress.completeNode node)
      obtain ⟨ownRun, ownConnections, ownIds⟩ := completeNode_frame progress node
      exact ⟨run.trans ownRun, connections.trans ownConnections, ids.trans ownIds⟩

theorem announce_frame (progress : ExecutionProgress) (next : Option String) :
    progress.announce next =
      { progress with nodeStatuses := (progress.announce next).nodeStatuses } := by
  unfold announce
  cases present next <;> rfl

/-- A report replaces the order and the connections. -/
theorem merge_frame (progress : ExecutionProgress) (message : BusMessage) :
    (progress.merge message).runId = progress.runId ∧
      (progress.merge message).executedOrder =
        (message.report.map FinalReport.executedOrder).getD
          (message.completedNodes.foldl completeNode progress).executedOrder ∧
      (progress.merge message).executedConnections =
        (message.report.map FinalReport.executedConnections).getD
          (progress.executedConnections ++ message.connections) ∧
      (progress.merge message).executedConnectionIds =
        (message.report.map FinalReport.executedConnectionIds).getD
          (progress.executedConnectionIds ++ getExecutedConnectionIds message.connections) := by
  obtain ⟨run, connections, ids⟩ := completeNodes_frame progress message.completedNodes
  unfold merge
  dsimp only
  rw [addConnections_eq, announce_frame]
  cases message.report with
  | none => exact ⟨run, rfl, by simp [finish, connections], by simp [finish, ids]⟩
  | some report => exact ⟨run, rfl, rfl, rfl⟩

end ExecutionProgress

end WorkflowStudio.Progress
