import WorkflowStudio.Progress.MergeProperties
import WorkflowStudio.Progress.Session

/-! When the progress that is shown for an execution holds only what the
messages and the results of its run said. An execution that starts is shown
without a run identifier until its result arrives, so that the comparison of
identifiers lets messages of other runs pass. -/

set_option autoImplicit false

namespace WorkflowStudio.Progress

open Lib Executor

/-!
## What was said about a run
-/

/-- What a message or a result says. -/
structure Content where
  statuses : List (String × ShownStatus) := []
  order : List String := []
  connections : List ConnectionEvent := []
  connectionIds : List String := []

def messageContent (message : BusMessage) : Content where
  statuses := message.completedNodes.map (fun node => (node.nodeId, shownOf node.status)) ++
    message.nextRunningNodeId.toList.map fun nodeId => (nodeId, .running)
  order := message.completedNodes.map BusNode.nodeId ++
    (message.report.map FinalReport.executedOrder).getD []
  connections := message.connections ++
    (message.report.map FinalReport.executedConnections).getD []
  connectionIds := (message.report.map FinalReport.executedConnectionIds).getD []

def resultContent (fields : ResultFields) : Content where
  statuses := fields.nodeResults.filterMap fun result =>
    (present result.nodeId).map fun nodeId =>
      (nodeId, if (present result.errorMessage).isSome then .error else .success)
  order := fields.executedOrder.getD []
  connections := fields.executedConnections.getD []
  connectionIds := fields.executedConnectionIds.getD []

/-- The run that an event is about and what it says. -/
def EditorEvent.tells : EditorEvent → Option (Nat × Content)
  | .message sent => some (sent.run, messageContent sent.message)
  | .answer given =>
      (executeWorkflowFields given.result given.details).map fun fields =>
        (given.run, resultContent fields)
  | .setExecutionResult result => some (result.run, resultContent result.fields)
  | .replaceExecutionResult result => some (result.run, resultContent result.fields)
  | .executeWorkflow _ | .clearExecution => none

/-- One of the events says something about the run that has the property. -/
def Said (traffic : List EditorEvent) (run : Nat) (holds : Content → Prop) : Prop :=
  ∃ event ∈ traffic, ∃ content, event.tells = some (run, content) ∧ holds content

/-- Every status, node and connection of the progress was said about the run. -/
structure ExecutionProgress.OnlyOf (progress : ExecutionProgress) (traffic : List EditorEvent)
    (run : Nat) : Prop where
  statuses : ∀ nodeId status, progress.nodeStatuses.get? nodeId = some status →
    Said traffic run fun content => (nodeId, status) ∈ content.statuses
  order : ∀ nodeId ∈ progress.executedOrder,
    Said traffic run fun content => nodeId ∈ content.order
  connections : ∀ event ∈ progress.executedConnections,
    Said traffic run fun content => event ∈ content.connections
  connectionIds : ∀ connectionId ∈ progress.executedConnectionIds,
    Said traffic run fun content => connectionId ∈ content.connectionIds ∨
      connectionId ∈ getExecutedConnectionIds content.connections

theorem Said.mono {traffic more : List EditorEvent} {run : Nat} {holds weaker : Content → Prop}
    (said : Said traffic run holds) (grows : traffic ⊆ more)
    (weakens : ∀ content, holds content → weaker content) : Said more run weaker := by
  obtain ⟨event, member, content, told, held⟩ := said
  exact ⟨event, grows member, content, told, weakens content held⟩

theorem ExecutionProgress.OnlyOf.mono {progress : ExecutionProgress}
    {traffic more : List EditorEvent} {run : Nat} (only : progress.OnlyOf traffic run)
    (grows : traffic ⊆ more) : progress.OnlyOf more run where
  statuses nodeId status found := (only.statuses nodeId status found).mono grows fun _ => id
  order nodeId member := (only.order nodeId member).mono grows fun _ => id
  connections event member := (only.connections event member).mono grows fun _ => id
  connectionIds connectionId member :=
    (only.connectionIds connectionId member).mono grows fun _ => id

theorem onlyOf_fresh (runId : Option Nat) (traffic : List EditorEvent) (run : Nat) :
    (createFreshProgress runId).OnlyOf traffic run where
  statuses _ _ found := nomatch found
  order _ member := nomatch member
  connections _ member := nomatch member
  connectionIds _ member := nomatch member

namespace ExecutionProgress

theorem completeNodes_statuses {progress : ExecutionProgress} {nodes : List BusNode}
    {nodeId : String} {status : ShownStatus}
    (found : (nodes.foldl completeNode progress).statusOf nodeId = some status) :
    progress.statusOf nodeId = some status ∨
      (nodeId, status) ∈ nodes.map fun node => (node.nodeId, shownOf node.status) := by
  induction nodes generalizing progress with
  | nil => exact .inl found
  | cons node rest ih =>
      rcases ih found with before | later
      · rw [completeNode_status] at before
        split at before
        · next own =>
            obtain ⟨rfl, _⟩ := own
            cases before
            exact .inr (List.mem_cons_self)
        · exact .inl before
      · exact .inr (List.mem_cons_of_mem _ later)

theorem completeNode_order {progress : ExecutionProgress} {node : BusNode} {nodeId : String}
    (member : nodeId ∈ (progress.completeNode node).executedOrder) :
    nodeId ∈ progress.executedOrder ∨ nodeId = node.nodeId := by
  unfold completeNode at member
  split at member
  · exact .inl member
  · dsimp only at member
    split at member
    · exact .inl member
    · rcases List.mem_append.mp member with old | new
      · exact .inl old
      · exact .inr (List.mem_singleton.mp new)

theorem completeNodes_order {progress : ExecutionProgress} {nodes : List BusNode}
    {nodeId : String} (member : nodeId ∈ (nodes.foldl completeNode progress).executedOrder) :
    nodeId ∈ progress.executedOrder ∨ nodeId ∈ nodes.map BusNode.nodeId := by
  induction nodes generalizing progress with
  | nil => exact .inl member
  | cons node rest ih =>
      rcases ih member with before | later
      · rcases completeNode_order before with old | rfl
        · exact .inl old
        · exact .inr List.mem_cons_self
      · exact .inr (List.mem_cons_of_mem _ later)

/-- A message of the run adds only what it says. -/
theorem OnlyOf.merge {progress : ExecutionProgress} {traffic : List EditorEvent} {run : Nat}
    (only : progress.OnlyOf traffic run) {message : BusMessage}
    (told : ∃ event ∈ traffic, event.tells = some (run, messageContent message)) :
    (progress.merge message).OnlyOf traffic run := by
  obtain ⟨event, listed, told⟩ := told
  obtain ⟨_, order, connections, connectionIds⟩ := merge_frame progress message
  constructor
  · intro nodeId status found
    have shown := merge_status progress message nodeId
    unfold statusOf at shown
    rw [found] at shown
    split at shown
    · next announced =>
        cases shown
        refine ⟨event, listed, _, told, List.mem_append_right _ ?_⟩
        rw [announced.1]
        exact List.mem_cons_self
    · rcases completeNodes_statuses shown.symm with before | completed
      · exact only.statuses nodeId status before
      · exact ⟨event, listed, _, told, List.mem_append_left _ completed⟩
  · intro nodeId member
    rw [order] at member
    cases reported : message.report with
    | some report =>
        rw [reported] at member
        refine ⟨event, listed, _, told, List.mem_append_right _ ?_⟩
        rw [reported]
        exact member
    | none =>
        rw [reported] at member
        rcases completeNodes_order member with before | completed
        · exact only.order nodeId before
        · exact ⟨event, listed, _, told, List.mem_append_left _ completed⟩
  · intro routed member
    rw [connections] at member
    cases reported : message.report with
    | some report =>
        rw [reported] at member
        refine ⟨event, listed, _, told, List.mem_append_right _ ?_⟩
        rw [reported]
        exact member
    | none =>
        rw [reported] at member
        rcases List.mem_append.mp member with before | added
        · exact only.connections routed before
        · exact ⟨event, listed, _, told, List.mem_append_left _ added⟩
  · intro connectionId member
    rw [connectionIds] at member
    cases reported : message.report with
    | some report =>
        rw [reported] at member
        refine ⟨event, listed, _, told, .inl ?_⟩
        unfold messageContent
        rw [reported]
        exact member
    | none =>
        rw [reported] at member
        rcases List.mem_append.mp member with before | added
        · exact only.connectionIds connectionId before
        · refine ⟨event, listed, _, told, .inr ?_⟩
          unfold messageContent getExecutedConnectionIds
          rw [List.filterMap_append]
          exact List.mem_append_left _ added

theorem builtStatuses {results : List NodeResult} {nodeId : String} {status : ShownStatus}
    (found : (buildNodeStatusesFromResults results).get? nodeId = some status) :
    (nodeId, status) ∈ (resultContent { nodeResults := results }).statuses := by
  have built : ∀ (results : List NodeResult) (statuses : OrderedMap String ShownStatus),
      (results.foldl showResult statuses).get? nodeId = some status →
      statuses.get? nodeId = some status ∨
        (nodeId, status) ∈ (resultContent { nodeResults := results }).statuses := by
    intro results
    induction results with
    | nil => exact fun _ found => .inl found
    | cons result rest ih =>
        intro statuses found
        unfold resultContent
        dsimp only
        rw [List.filterMap_cons]
        rcases ih _ found with before | later
        · unfold showResult at before
          cases named : present result.nodeId with
          | none =>
              rw [named] at before
              exact .inl before
          | some own =>
              simp only [named] at before
              rw [get?_showStatus] at before
              split at before
              · next same =>
                  obtain ⟨rfl, _⟩ := same
                  cases before
                  exact .inr List.mem_cons_self
              · exact .inl before
        · refine .inr ?_
          cases present result.nodeId with
          | none => exact later
          | some own => exact List.mem_cons_of_mem _ later
  rcases built results OrderedMap.empty found with absent | member
  · cases absent
  · exact member

/-- A result of the run adds only what it says. -/
theorem OnlyOf.assign {progress : ExecutionProgress} {traffic : List EditorEvent} {run : Nat}
    (only : progress.OnlyOf traffic run) {fields : ResultFields}
    (told : ∃ event ∈ traffic, event.tells = some (run, resultContent fields)) :
    (progress.assign fields).OnlyOf traffic run := by
  obtain ⟨event, listed, told⟩ := told
  constructor
  · intro nodeId status found
    unfold ExecutionProgress.assign at found
    rw [OrderedMap.get?_merge] at found
    cases built : (buildNodeStatusesFromResults fields.nodeResults).get? nodeId with
    | some own =>
        rw [built] at found
        cases found
        exact ⟨event, listed, _, told, builtStatuses built⟩
    | none =>
        rw [built] at found
        exact only.statuses nodeId status found
  · intro nodeId member
    unfold ExecutionProgress.assign at member
    cases given : fields.executedOrder with
    | none =>
        rw [given] at member
        exact only.order nodeId member
    | some order =>
        refine ⟨event, listed, _, told, ?_⟩
        unfold resultContent
        rw [given] at member ⊢
        exact member
  · intro routed member
    unfold ExecutionProgress.assign at member
    cases given : fields.executedConnections with
    | none =>
        rw [given] at member
        exact only.connections routed member
    | some connections =>
        refine ⟨event, listed, _, told, ?_⟩
        unfold resultContent
        rw [given] at member ⊢
        exact member
  · intro connectionId member
    unfold ExecutionProgress.assign at member
    cases given : fields.executedConnectionIds with
    | none =>
        rw [given] at member
        exact only.connectionIds connectionId member
    | some connectionIds =>
        refine ⟨event, listed, _, told, .inl ?_⟩
        unfold resultContent
        rw [given] at member ⊢
        exact member

theorem OnlyOf.deriveConnectionIds {progress : ExecutionProgress} {traffic : List EditorEvent}
    {run : Nat} (only : progress.OnlyOf traffic run) :
    progress.deriveConnectionIds.OnlyOf traffic run := by
  unfold ExecutionProgress.deriveConnectionIds
  split
  · refine ⟨only.statuses, only.order, only.connections, ?_⟩
    intro connectionId member
    obtain ⟨routed, shown, named⟩ := List.mem_filterMap.mp member
    exact (only.connections routed shown).mono (fun _ => id) fun content told =>
      .inr (List.mem_filterMap.mpr ⟨routed, told, named⟩)
  · exact only

theorem deriveConnectionIds_runId (progress : ExecutionProgress) :
    progress.deriveConnectionIds.runId = progress.runId := by
  unfold ExecutionProgress.deriveConnectionIds
  split <;> rfl

end ExecutionProgress

/-!
## The editor
-/

/-- The progress that is shown is that of one run and knows no other. -/
structure Editor.Isolated (editor : Editor) : Prop where
  shows : ∀ progress, editor.progress = some progress → ∃ run, editor.shown = some run ∧
    progress.OnlyOf editor.traffic run ∧
    (knownRun progress.runId = none ∨ progress.runId = some run)
  idle : editor.progress = none → editor.shown = none ∧ editor.settled = false

/-- A message that adds nothing to the order and to the connections shown. -/
def ExecutionProgress.AddsNothing (progress : ExecutionProgress) (message : BusMessage) : Prop :=
  match message.report with
  | some report => report.executedOrder = progress.executedOrder ∧
      report.executedConnections = progress.executedConnections
  | none => (∀ node ∈ message.completedNodes,
        node.nodeId = "" ∨ progress.executedOrder.getLast? = some node.nodeId) ∧
      message.connections = []

/-- Messages of other runs come while the identifier of the shown run is known,
results are those of the shown run, and once its result has been applied the
messages of that run add nothing. -/
def Editor.Allows (editor : Editor) : EditorEvent → Prop
  | .message sent => ∀ progress, editor.progress = some progress →
      if editor.shown = some sent.run then
        editor.settled = true → progress.AddsNothing sent.message
      else knownRun progress.runId ≠ none
  | .answer answer => executeWorkflowFields answer.result answer.details = none ∨
      editor.shown = none ∨ editor.shown = some answer.run
  | .setExecutionResult result => editor.shown = none ∨ editor.shown = some result.run
  | .executeWorkflow _ | .replaceExecutionResult _ | .clearExecution => True

theorem ExecutionProgress.AddsNothing.unchanged {progress : ExecutionProgress}
    {message : BusMessage} (nothing : progress.AddsNothing message) :
    (progress.merge message).executedOrder = progress.executedOrder ∧
      (progress.merge message).executedConnections = progress.executedConnections := by
  have repeated : ∀ (nodes : List BusNode) (shown : ExecutionProgress),
      (∀ node ∈ nodes, node.nodeId = "" ∨ shown.executedOrder.getLast? = some node.nodeId) →
      (nodes.foldl completeNode shown).executedOrder = shown.executedOrder := by
    intro nodes
    induction nodes with
    | nil => exact fun _ _ => rfl
    | cons node rest ih =>
        intro shown same
        have kept : (shown.completeNode node).executedOrder = shown.executedOrder := by
          unfold completeNode
          by_cases empty : node.nodeId = ""
          · rw [if_pos empty]
          · rw [if_neg empty]
            exact if_pos ((same node List.mem_cons_self).resolve_left empty)
        refine (ih (shown.completeNode node) fun later member => ?_).trans kept
        rw [kept]
        exact same later (List.mem_cons_of_mem _ member)
  obtain ⟨_, order, connections, _⟩ := merge_frame progress message
  unfold AddsNothing at nothing
  rw [order, connections]
  cases reported : message.report with
  | some report =>
      rw [reported] at nothing
      exact nothing
  | none =>
      rw [reported] at nothing
      obtain ⟨same, empty⟩ := nothing
      refine ⟨repeated _ progress same, ?_⟩
      rw [empty]
      exact List.append_nil _

theorem isOtherRun_of_known {shown : Nat} {received : RunMessage}
    (known : knownRun (some shown) ≠ none) (other : shown ≠ received.run) :
    isOtherRun (some shown) received.message.runId = true := by
  have own : knownRun (some received.run) = some received.run := by
    unfold knownRun
    have positive : received.run ≠ 0 := Nat.pos_iff_ne_zero.mp received.positive
    simp [positive]
  have stays : knownRun (some shown) = some shown := by
    unfold knownRun at known ⊢
    by_cases zero : shown = 0
    · simp [zero] at known
    · simp [zero]
  unfold isOtherRun
  rw [received.own, own, stays]
  simpa using other

theorem isOtherRun_own {runId : Option Nat} (received : RunMessage)
    (own : knownRun runId = none ∨ runId = some received.run) :
    isOtherRun runId received.message.runId = false := by
  unfold isOtherRun
  rw [received.own]
  rcases own with unknown | rfl
  · rw [unknown]
  · cases knownRun (some received.run) <;> simp

namespace Editor

variable {editor : Editor}

/-- A message of a run that is not shown is ignored. -/
theorem Isolated.foreign (isolated : editor.Isolated) {sent : RunMessage}
    (allowed : editor.Allows (.message sent)) (shown : editor.shown ≠ none)
    (other : editor.shown ≠ some sent.run) :
    (editor.step (.message sent)).progress = editor.progress := by
  cases current : editor.progress with
  | none => exact absurd (isolated.idle current).1 shown
  | some progress =>
      obtain ⟨run, showing, _, own⟩ := isolated.shows progress current
      have known : knownRun progress.runId ≠ none := by
        have guarded := allowed progress current
        rwa [if_neg other] at guarded
      have named := own.resolve_left known
      have different : run ≠ sent.run := by
        rintro rfl
        exact other showing
      have ignored := isOtherRun_of_known (named ▸ known) different
      simp only [step, onExecutionProgress, current, Option.getD_some, named, ignored, ↓reduceIte]

/-- A message of the shown run is merged. -/
theorem Isolated.merged (isolated : editor.Isolated) {sent : RunMessage}
    {progress : ExecutionProgress} (current : editor.progress = some progress)
    (shown : editor.shown = some sent.run) :
    (editor.step (.message sent)).progress = some (progress.merge sent.message) := by
  obtain ⟨run, showing, _, own⟩ := isolated.shows progress current
  rw [shown] at showing
  cases showing
  simp only [step, onExecutionProgress, current, Option.getD_some, isOtherRun_own sent own,
    Bool.false_eq_true, ↓reduceIte]

theorem Isolated.initial : Editor.initial.Isolated where
  shows _ none := nomatch none
  idle _ := ⟨rfl, rfl⟩

theorem Isolated.message (isolated : editor.Isolated) {sent : RunMessage}
    (allowed : editor.Allows (.message sent)) : (editor.step (.message sent)).Isolated := by
  have listed : EditorEvent.message sent ∈ (editor.step (.message sent)).traffic :=
    List.mem_append_right _ List.mem_cons_self
  have grows : editor.traffic ⊆ (editor.step (.message sent)).traffic :=
    List.subset_append_left _ _
  cases current : editor.progress with
  | none =>
      obtain ⟨unshown, _⟩ := isolated.idle current
      have fresh : (editor.step (.message sent)).progress =
          some ((createFreshProgress sent.message.runId).merge sent.message) := by
        have same := isOtherRun_own sent (.inr sent.own)
        simp only [step, onExecutionProgress, current, Option.getD_none, createFreshProgress, same,
          Bool.false_eq_true, ↓reduceIte]
      have showing : (editor.step (.message sent)).shown = some sent.run := by
        simp only [step, unshown, Option.none_or]
      refine ⟨fun progress found => ⟨sent.run, showing, ?_⟩, fun none => ?_⟩
      · rw [fresh] at found
        cases found
        refine ⟨(onlyOf_fresh _ _ _).merge ⟨_, listed, rfl⟩, .inr ?_⟩
        rw [(ExecutionProgress.merge_frame _ sent.message).1]
        exact sent.own
      · rw [fresh] at none
        cases none
  | some progress =>
      obtain ⟨run, showing, only, own⟩ := isolated.shows progress current
      have shown : (editor.step (.message sent)).shown = some run := by
        simp only [step, showing, Option.some_or]
      by_cases same : editor.shown = some sent.run
      · rw [showing] at same
        cases same
        have merged := isolated.merged current showing
        refine ⟨fun after found => ⟨sent.run, shown, ?_⟩, fun none => ?_⟩
        · rw [merged] at found
          cases found
          refine ⟨(only.mono grows).merge ⟨_, listed, rfl⟩, ?_⟩
          rw [(ExecutionProgress.merge_frame _ sent.message).1]
          exact own
        · rw [merged] at none
          cases none
      · have ignored := isolated.foreign allowed (by simp [showing]) same
        rw [current] at ignored
        refine ⟨fun after found => ⟨run, shown, ?_⟩, fun none => ?_⟩
        · rw [ignored] at found
          cases found
          exact ⟨only.mono grows, own⟩
        · rw [ignored] at none
          cases none

theorem Isolated.applyResult (isolated : editor.Isolated) {event : EditorEvent} {run : Nat}
    {fields : ResultFields} (told : event.tells = some (run, resultContent fields))
    (own : fields.runId = none ∨ fields.runId = some run)
    (allowed : editor.shown = none ∨ editor.shown = some run) :
    (editor.applyResult event run fields).Isolated := by
  have listed : event ∈ (editor.applyResult event run fields).traffic :=
    List.mem_append_right _ List.mem_cons_self
  have grows : editor.traffic ⊆ (editor.applyResult event run fields).traffic :=
    List.subset_append_left _ _
  have showing : (editor.applyResult event run fields).shown = some run := by
    rcases allowed with unshown | shown
    · simp only [Editor.applyResult, unshown, Option.none_or]
    · simp only [Editor.applyResult, shown, Option.some_or]
  -- what was shown before is of the same run
  have before : (editor.progress.getD (createFreshProgress none)).OnlyOf
        (editor.applyResult event run fields).traffic run ∧
      (knownRun (editor.progress.getD (createFreshProgress none)).runId = none ∨
        (editor.progress.getD (createFreshProgress none)).runId = some run) := by
    cases current : editor.progress with
    | none => exact ⟨onlyOf_fresh _ _ _, .inl rfl⟩
    | some progress =>
        obtain ⟨shown, was, only, named⟩ := isolated.shows progress current
        rw [was] at allowed
        have same : shown = run := by simpa using allowed
        subst same
        exact ⟨only.mono grows, named⟩
  refine ⟨fun progress found => ⟨run, showing, ?_⟩, fun none => nomatch none⟩
  cases found
  unfold Progress.setExecutionResult
  refine ⟨(before.1.assign ⟨event, listed, told⟩).deriveConnectionIds, ?_⟩
  rw [ExecutionProgress.deriveConnectionIds_runId]
  unfold ExecutionProgress.assign
  rcases own with absent | given
  · rw [absent]
    exact before.2
  · rw [given]
    exact .inr rfl

theorem answer_own {answer : RunAnswer} {fields : ResultFields}
    (applied : executeWorkflowFields answer.result answer.details = some fields) :
    fields.runId = none ∨ fields.runId = some answer.run := by
  have known : ∀ runId, (runId = none ∨ runId = some answer.run) →
      knownRun runId = none ∨ knownRun runId = some answer.run := by
    rintro runId (rfl | rfl)
    · exact .inl rfl
    · unfold knownRun
      have positive : answer.run ≠ 0 := Nat.pos_iff_ne_zero.mp answer.positive
      exact .inr (by simp [positive])
  unfold executeWorkflowFields at applied
  rcases known answer.result.runId answer.own with absent | started
  · rw [absent] at applied
    obtain ⟨error, _, rfl⟩ := Option.map_eq_some_iff.mp applied
    exact .inl rfl
  · rw [started] at applied
    cases read : answer.details with
    | none =>
        rw [read] at applied
        cases applied
        exact .inr rfl
    | some details =>
        rw [read] at applied
        cases applied
        obtain ⟨named, identified⟩ := answer.read details read
        refine .inr ?_
        rcases known details.runId named with absent | given
        · rcases known details.id identified with missing | present
          · rw [absent, missing]
            rfl
          · rw [absent, present]
            rfl
        · rw [given]
          rfl

theorem Isolated.step (isolated : editor.Isolated) {event : EditorEvent}
    (allowed : editor.Allows event) : (editor.step event).Isolated := by
  cases event with
  | executeWorkflow run =>
      refine ⟨fun progress found => ⟨run, rfl, ?_⟩, fun none => nomatch none⟩
      cases found
      exact ⟨onlyOf_fresh _ _ _, .inl rfl⟩
  | message sent => exact isolated.message allowed
  | answer answer =>
      cases applied : executeWorkflowFields answer.result answer.details with
      | none =>
          simp only [Editor.step, applied]
          refine ⟨fun progress found => ?_, isolated.idle⟩
          obtain ⟨run, showing, only, own⟩ := isolated.shows progress found
          exact ⟨run, showing, only.mono (List.subset_append_left _ _), own⟩
      | some fields =>
          simp only [Editor.step, applied]
          have shown := allowed.resolve_left (by simp [applied])
          refine isolated.applyResult ?_ (answer_own applied) shown
          simp only [EditorEvent.tells, applied, Option.map_some]
  | setExecutionResult result => exact isolated.applyResult rfl result.own allowed
  | replaceExecutionResult result =>
      -- the result is applied to a fresh progress of the run
      let fresh : Editor := {
        progress := some (createFreshProgress (knownRun result.fields.runId))
        shown := some result.run
        settled := true
        traffic := editor.traffic }
      have started : fresh.Isolated := by
        refine ⟨fun progress found => ⟨result.run, rfl, ?_⟩, fun none => nomatch none⟩
        cases found
        refine ⟨onlyOf_fresh _ _ _, ?_⟩
        unfold createFreshProgress
        rcases result.own with absent | given
        · rw [absent]
          exact .inl rfl
        · rw [given]
          by_cases zero : result.run = 0
          · exact .inl (by simp [knownRun, zero])
          · exact .inr (by simp [knownRun, zero])
      exact started.applyResult rfl result.own (.inr rfl)
  | clearExecution =>
      exact ⟨fun _ none => (nomatch none), fun _ => ⟨rfl, rfl⟩⟩

theorem step_traffic (editor : Editor) (event : EditorEvent) :
    (editor.step event).traffic = editor.traffic ++ [event] := by
  cases event with
  | answer answer =>
      cases applied : executeWorkflowFields answer.result answer.details with
      | none => simp only [Editor.step, applied]
      | some fields => simp only [Editor.step, applied, Editor.applyResult]
  | executeWorkflow _ | message _ | setExecutionResult _ | replaceExecutionResult _
  | clearExecution => rfl

theorem run_traffic (editor : Editor) (events : List EditorEvent) :
    (GuardedRun.run Editor.step editor events).traffic = editor.traffic ++ events := by
  induction events generalizing editor with
  | nil => exact (List.append_nil _).symm
  | cons event rest ih =>
      refine (ih (editor.step event)).trans ?_
      rw [step_traffic, List.append_assoc]
      rfl

end Editor

/-- In every session whose events are allowed, what is shown is of one run
after every event, a message of a run that is not shown is ignored, and a
message of the shown run leaves its order and its connections unchanged once
its result has been applied. -/
theorem progress_isolated (events : List EditorEvent)
    (allowed : GuardedRun.Meets Editor.step Editor.Allows Editor.initial events)
    (before : List EditorEvent) (event : EditorEvent) (leading : before ++ [event] <+: events) :
    (∀ progress, (GuardedRun.run Editor.step Editor.initial (before ++ [event])).progress =
        some progress →
      ∃ run, (GuardedRun.run Editor.step Editor.initial (before ++ [event])).shown = some run ∧
        progress.OnlyOf (before ++ [event]) run) ∧
    (∀ sent run, event = .message sent →
      (GuardedRun.run Editor.step Editor.initial before).shown = some run → run ≠ sent.run →
      (GuardedRun.run Editor.step Editor.initial (before ++ [event])).progress =
        (GuardedRun.run Editor.step Editor.initial before).progress) ∧
    ∀ sent progress, event = .message sent →
      (GuardedRun.run Editor.step Editor.initial before).shown = some sent.run →
      (GuardedRun.run Editor.step Editor.initial before).settled = true →
      (GuardedRun.run Editor.step Editor.initial before).progress = some progress →
      ∃ after, (GuardedRun.run Editor.step Editor.initial (before ++ [event])).progress =
          some after ∧
        after.executedOrder = progress.executedOrder ∧
        after.executedConnections = progress.executedConnections := by
  obtain ⟨earlier, guarded⟩ := allowed.of_prefix leading
  have isolated : (GuardedRun.run Editor.step Editor.initial before).Isolated :=
    GuardedRun.guarded_invariant Editor.Isolated
      (fun _ _ held allows => held.step allows) Editor.Isolated.initial earlier
  have next := isolated.step guarded
  have stepped : GuardedRun.run Editor.step Editor.initial (before ++ [event]) =
      (GuardedRun.run Editor.step Editor.initial before).step event :=
    GuardedRun.run_append _ _ _
  have traffic := Editor.run_traffic Editor.initial (before ++ [event])
  rw [stepped] at traffic ⊢
  refine ⟨fun progress found => ?_, ?_, ?_⟩
  · obtain ⟨run, shown, only, _⟩ := next.shows progress found
    rw [traffic] at only
    exact ⟨run, shown, only⟩
  · rintro sent run rfl shown other
    refine isolated.foreign guarded (by simp [shown]) fun same => other ?_
    rw [shown] at same
    exact Option.some.inj same
  · rintro sent progress rfl shown settled found
    have allows := guarded progress found
    rw [if_pos shown] at allows
    exact ⟨_, isolated.merged found shown, (allows settled).unchanged⟩

/-- A batch of run 1 with one completed node. -/
def lateMessage : RunMessage where
  run := 1
  message := {
    runId := some 1
    completedNodes := [⟨"n_1", .success, some "noop", ""⟩]
    connections := []
    nextRunningNodeId := none
    report := none }
  positive := by decide
  own := rfl

def secondAnswer : RunAnswer where
  run := 2
  result := ⟨some 2, some .completed, none, some ["n_2"], some [], some []⟩
  details := none
  positive := by decide
  own := .inr rfl
  read := fun _ none => nomatch none

theorem progress_isolated_late :
    (GuardedRun.run Editor.step Editor.initial
        [.executeWorkflow 2, .answer secondAnswer, .message lateMessage]).progress =
      (GuardedRun.run Editor.step Editor.initial
        [.executeWorkflow 2, .answer secondAnswer]).progress := by
  refine (progress_isolated
    [.executeWorkflow 2, .answer secondAnswer, .message lateMessage] ?_
    [.executeWorkflow 2, .answer secondAnswer] (.message lateMessage) (List.prefix_refl _)).2.1
    lateMessage 2 rfl rfl (by decide)
  refine ⟨trivial, .inr (.inr rfl), ?_, trivial⟩
  intro progress found
  cases found
  rw [if_neg (by decide)]
  decide

/-- A message of run 1 that is late is shown for the execution of run 2, about
which nothing was said. -/
theorem late_message_is_merged :
    ∃ progress, (GuardedRun.run Editor.step Editor.initial
          [.executeWorkflow 1, .executeWorkflow 2, .message lateMessage]).progress =
        some progress ∧
      (GuardedRun.run Editor.step Editor.initial
          [.executeWorkflow 1, .executeWorkflow 2, .message lateMessage]).shown = some 2 ∧
      progress.executedOrder = ["n_1"] ∧
      ¬ progress.OnlyOf [.executeWorkflow 1, .executeWorkflow 2, .message lateMessage] 2 := by
  refine ⟨_, rfl, rfl, rfl, fun only => ?_⟩
  obtain ⟨event, listed, content, told, _⟩ := only.order "n_1" List.mem_cons_self
  simp only [List.mem_cons, List.not_mem_nil, or_false] at listed
  rcases listed with rfl | rfl | rfl
  · cases told
  · cases told
  · cases told

end WorkflowStudio.Progress
