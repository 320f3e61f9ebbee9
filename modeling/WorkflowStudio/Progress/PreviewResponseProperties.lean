import WorkflowStudio.Executor.PreviewProperties
import WorkflowStudio.Lib.Attempts
import WorkflowStudio.Progress.PreviewResponse

/-! What arrives of a preview: the last result of each node does, in the order of
the last executions; the connections do not, since `execute_preview` leaves them out. -/

set_option autoImplicit false

namespace WorkflowStudio.Progress

open Lib Executor

variable {World : Type} {executor : WorkflowExecutor} {runtime : Runtime World}
  {targetNodeId : String}

/-!
## Results
-/

/-- The result that an execution stores. -/
def storedResult (execution : Execution) : NodeOutput :=
  match execution.outcome with
  | .ok result => result
  | .error error => failedResult error

/-- `node_outputs` is what the executions have stored. -/
def Stored (state : State World) : Prop :=
  state.nodeOutputs = OrderedMap.ofList (state.executions.map fun execution =>
    (execution.entry.nodeId, storedResult execution))

theorem Stored.record {state : State World} (stored : Stored state) (side : Side World)
    (entry : StackEntry) (outcome : Except String NodeOutput) :
    Stored (state.record side entry outcome) := by
  unfold Stored State.record
  rw [stored]
  dsimp only
  rw [List.map_append]
  exact (OrderedMap.ofList_concat (state.executions.map fun execution =>
    (execution.entry.nodeId, storedResult execution))
    (entry.nodeId, storedResult ⟨entry, outcome⟩)).symm

variable (executor runtime targetNodeId) in
theorem untilBody_stored {state : State World} (entry : StackEntry) (rest : List StackEntry)
    (stored : Stored state) :
    Stored (untilBody executor runtime targetNodeId state entry rest).1 := by
  have popped : Stored (state.popped rest) := stored
  unfold untilBody
  dsimp only
  split
  · exact stored
  · split
    · exact popped.record _ entry _
    · next side result _ =>
        have recorded := popped.record side entry (.ok result)
        split
        · exact recorded
        · exact recorded

variable (executor runtime targetNodeId) in
theorem untilLoop_stored (allowed : Nat) {state : State World} (stored : Stored state) :
    Stored (untilLoop executor runtime targetNodeId allowed state).1 := by
  refine untilLoop_invariant executor runtime targetNodeId Stored ?_ allowed stored
  intro state entry rest stored
  exact untilBody_stored executor runtime targetNodeId entry rest stored

/-- The last execution of each node, in order. -/
def lastExecutions : List Execution → List Execution
  | [] => []
  | execution :: rest =>
      if execution.entry.nodeId ∈ rest.map fun later => later.entry.nodeId then
        lastExecutions rest
      else execution :: lastExecutions rest

theorem mem_foldl_unique (nodeIds unique : List String) (nodeId : String) :
    nodeId ∈ nodeIds.foldl (fun unique nodeId =>
      if nodeId ∈ unique then unique else unique ++ [nodeId]) unique ↔
        nodeId ∈ unique ∨ nodeId ∈ nodeIds := by
  induction nodeIds generalizing unique with
  | nil => simp
  | cons first rest ih =>
      rw [List.foldl_cons, ih]
      split
      · next seen =>
          constructor
          · rintro (old | later)
            · exact .inl old
            · exact .inr (List.mem_cons_of_mem _ later)
          · rintro (old | listed)
            · exact .inl old
            · rcases List.mem_cons.mp listed with rfl | later
              · exact .inl seen
              · exact .inr later
      · rw [List.mem_append, List.mem_singleton, List.mem_cons, or_assoc]

theorem keepLastOccurrences_cons (nodeId : String) (rest : List String) :
    keepLastOccurrences (nodeId :: rest) =
      if nodeId ∈ rest then keepLastOccurrences rest else nodeId :: keepLastOccurrences rest := by
  have seen := mem_foldl_unique rest.reverse [] nodeId
  simp only [List.not_mem_nil, false_or, List.mem_reverse] at seen
  unfold keepLastOccurrences
  rw [List.reverse_cons, List.foldl_append, List.foldl_cons, List.foldl_nil]
  by_cases listed : nodeId ∈ rest
  · rw [if_pos (seen.mpr listed), if_pos listed]
  · rw [if_neg (mt seen.mp listed), if_neg listed, List.reverse_append]
    rfl

theorem mem_keepLastOccurrences {nodeIds : List String} {nodeId : String} :
    nodeId ∈ keepLastOccurrences nodeIds ↔ nodeId ∈ nodeIds := by
  unfold keepLastOccurrences
  rw [List.mem_reverse, mem_foldl_unique]
  simp

theorem keepLastOccurrences_again (nodeIds : List String) :
    keepLastOccurrences (keepLastOccurrences nodeIds) = keepLastOccurrences nodeIds := by
  induction nodeIds with
  | nil => rfl
  | cons nodeId rest ih =>
      rw [keepLastOccurrences_cons]
      split
      · exact ih
      · next fresh =>
          rw [keepLastOccurrences_cons, if_neg (mt mem_keepLastOccurrences.mp fresh), ih]

theorem keepLastOccurrences_executions (executions : List Execution) :
    keepLastOccurrences (executions.map fun execution => execution.entry.nodeId) =
      (lastExecutions executions).map fun execution => execution.entry.nodeId := by
  induction executions with
  | nil => rfl
  | cons execution rest ih =>
      rw [List.map_cons, keepLastOccurrences_cons, lastExecutions]
      split
      · exact ih
      · rw [List.map_cons, ih]

theorem lastExecutions_split {executions : List Execution} {execution : Execution}
    (member : execution ∈ lastExecutions executions) :
    ∃ before after, executions = before ++ execution :: after ∧
      execution.entry.nodeId ∉ after.map fun later => later.entry.nodeId := by
  induction executions with
  | nil => cases member
  | cons first rest ih =>
      have later : execution ∈ lastExecutions rest → ∃ before after,
          first :: rest = before ++ execution :: after ∧
            execution.entry.nodeId ∉ after.map fun later => later.entry.nodeId := by
        intro among
        obtain ⟨before, after, rfl, last⟩ := ih among
        exact ⟨first :: before, after, rfl, last⟩
      unfold lastExecutions at member
      split at member
      · exact later member
      · next last =>
          rcases List.mem_cons.mp member with rfl | among
          · exact ⟨[], rest, rfl, last⟩
          · exact later among

theorem Stored.last {state : State World} (stored : Stored state) {execution : Execution}
    (member : execution ∈ lastExecutions state.executions) :
    state.nodeOutputs.get? execution.entry.nodeId = some (storedResult execution) := by
  obtain ⟨before, after, split, last⟩ := lastExecutions_split member
  rw [stored, split, List.map_append, List.map_cons]
  refine OrderedMap.get?_ofList_last _ ?_
  rw [List.map_map]
  exact last

section Shown

variable (redact mask : Value → Except String Value)

/-- The result that a preview shows of an execution: its value as the user may
see it. The title is added on the way. -/
def shownResult (execution : Execution) : Except String StoreResult :=
  (redact ((storedResult execution).json.getD .none)).map fun display =>
    { nodeId := execution.entry.nodeId
      outputData := display
      errorMessage := present (storedResult execution).error
      title := none
      metaFields := (storedResult execution).metaFields.filter Value.scriptTruthy }

def StoreResult.untitled (result : StoreResult) : StoreResult := { result with title := none }

/-- What an execution stores can be shown. -/
def Showable (execution : Execution) : Prop :=
  (∃ display, redact ((storedResult execution).json.getD .none) = .ok display) ∧
    ∃ outputs, maskOutputs mask (storedResult execution).outputs = .ok outputs

variable {redact mask}

theorem enrichOutput_ok_iff {title : Option String} {output : NodeOutput}
    {shown : PreviewOutput} :
    enrichOutput redact mask title output = .ok shown ↔
      redact (output.json.getD .none) = .ok shown.json ∧
        maskOutputs mask output.outputs = .ok shown.outputs ∧ shown.error = output.error ∧
        shown.metaFields = output.metaFields ∧ shown.title = title := by
  unfold enrichOutput
  cases redact (output.json.getD .none) with
  | error error => simp [Except.bind]
  | ok display =>
      cases maskOutputs mask output.outputs with
      | error error => simp [Except.bind, Except.map]
      | ok outputs =>
          cases shown
          simp [Except.bind, Except.map]
          tauto

theorem showable_iff {execution : Execution} (title : Option String) :
    Showable redact mask execution ↔
      ∃ shown, enrichOutput redact mask title (storedResult execution) = .ok shown := by
  simp only [enrichOutput_ok_iff]
  constructor
  · rintro ⟨⟨display, redacted⟩, outputs, masked⟩
    exact ⟨⟨outputs, display, _, _, title⟩, redacted, masked, rfl, rfl, rfl⟩
  · rintro ⟨shown, redacted, masked, _⟩
    exact ⟨⟨_, redacted⟩, _, masked⟩

end Shown

/-- Where nodes were executed, the store takes their order from the response. -/
theorem buildNodeResultsFromOutputs_order (outputs : OrderedMap String PreviewOutput)
    {executedOrder : List String} (executed : executedOrder ≠ []) :
    buildNodeResultsFromOutputs (some outputs) (some (keepLastOccurrences executedOrder)) =
      (keepLastOccurrences executedOrder).map fun nodeId =>
        { nodeId := nodeId
          outputData := ((outputs.get? nodeId).map PreviewOutput.json).getD .none
          errorMessage := present ((outputs.get? nodeId).bind PreviewOutput.error)
          title := (outputs.get? nodeId).bind PreviewOutput.title
          metaFields :=
            ((outputs.get? nodeId).bind PreviewOutput.metaFields).filter Value.scriptTruthy } := by
  have kept : keepLastOccurrences executedOrder ≠ [] := by
    obtain ⟨nodeId, member⟩ := List.exists_mem_of_ne_nil executedOrder executed
    exact List.ne_nil_of_mem (mem_keepLastOccurrences.mpr member)
  unfold buildNodeResultsFromOutputs
  simp only [Option.getD_some, if_pos kept, keepLastOccurrences_again]

section Outputs

variable {redact mask : Value → Except String Value} {snapshot : Snapshot} {state : State World}

theorem exists_lastExecution {executions : List Execution} {execution : Execution}
    (member : execution ∈ executions) :
    ∃ last ∈ lastExecutions executions, last.entry.nodeId = execution.entry.nodeId := by
  have listed : execution.entry.nodeId ∈
      (lastExecutions executions).map fun execution => execution.entry.nodeId := by
    rw [← keepLastOccurrences_executions, mem_keepLastOccurrences]
    exact List.mem_map_of_mem member
  exact List.mem_map.mp listed

/-- What a node has last stored is the output of its last execution. -/
theorem Stored.mem_entries_iff (stored : Stored state) {entry : String × NodeOutput} :
    entry ∈ state.nodeOutputs.entries ↔
      ∃ execution ∈ lastExecutions state.executions,
        (execution.entry.nodeId, storedResult execution) = entry := by
  rw [← OrderedMap.get?_eq_some_iff]
  constructor
  · intro found
    have among := found
    rw [stored] at among
    obtain ⟨execution, member, same⟩ := List.mem_map.mp (OrderedMap.mem_of_get?_ofList among)
    obtain ⟨last, lastMember, sameNode⟩ := exists_lastExecution member
    refine ⟨last, lastMember, ?_⟩
    have kept := stored.last lastMember
    have named : last.entry.nodeId = entry.1 := sameNode.trans (congrArg Prod.fst same)
    rw [named, found] at kept
    exact Prod.ext named (Option.some.inj kept).symm
  · rintro ⟨execution, member, rfl⟩
    exact stored.last member

theorem enrichOutputs_ok_iff {nodeOutputs : OrderedMap String NodeOutput}
    {outputs : List (String × PreviewOutput)} :
    enrichOutputs redact mask snapshot nodeOutputs = .ok outputs ↔
      List.Forall₂ (fun entry output => output.1 = entry.1 ∧
        enrichOutput redact mask ((labelsById snapshot).get? entry.1) entry.2 = .ok output.2)
        nodeOutputs.entries outputs := by
  unfold enrichOutputs
  rw [mapM_ok_iff]
  refine ⟨List.Forall₂.imp ?_, List.Forall₂.imp ?_⟩
  · intro entry output mapped
    obtain ⟨shown, enriched, rfl⟩ := map_eq_ok mapped
    exact ⟨rfl, enriched⟩
  · rintro entry ⟨nodeId, shown⟩ ⟨sameId, enriched⟩
    change nodeId = entry.1 at sameId
    rw [enriched, sameId]
    rfl

variable (redact mask snapshot) in
/-- The outputs of a preview can be shown exactly if those of the last executions can. -/
theorem Stored.enrichOutputs_ok_iff (stored : Stored state) :
    (∃ outputs, enrichOutputs redact mask snapshot state.nodeOutputs = .ok outputs) ↔
      ∀ execution ∈ lastExecutions state.executions, Showable redact mask execution := by
  let attempt (entry : String × NodeOutput) : Except String (String × PreviewOutput) :=
    (enrichOutput redact mask ((labelsById snapshot).get? entry.1) entry.2).map fun output =>
      (entry.1, output)
  have each : (∃ outputs, state.nodeOutputs.entries.mapM attempt = .ok outputs ∧
      ∀ output ∈ outputs, True) ↔
      ∀ entry ∈ state.nodeOutputs.entries, ∃ output, attempt entry = .ok output ∧ True :=
    exists_mapM_ok_iff
  simp only [implies_true, and_true] at each
  refine Iff.trans each ?_
  constructor
  · intro all execution member
    obtain ⟨output, mapped⟩ := all _ (stored.mem_entries_iff.mpr ⟨execution, member, rfl⟩)
    obtain ⟨shown, enriched, _⟩ := map_eq_ok mapped
    exact (showable_iff _).mpr ⟨shown, enriched⟩
  · intro all entry member
    obtain ⟨execution, lastMember, rfl⟩ := stored.mem_entries_iff.mp member
    obtain ⟨shown, enriched⟩ :=
      (showable_iff ((labelsById snapshot).get? execution.entry.nodeId)).mp
        (all execution lastMember)
    refine ⟨(execution.entry.nodeId, shown), ?_⟩
    dsimp only [attempt]
    rw [enriched]
    rfl

/-- What the response has of the last execution of a node. -/
theorem Stored.get?_enriched (stored : Stored state) {outputs : List (String × PreviewOutput)}
    (enriched : enrichOutputs redact mask snapshot state.nodeOutputs = .ok outputs)
    {execution : Execution} (member : execution ∈ lastExecutions state.executions) :
    ∃ title shown, (OrderedMap.ofList outputs).get? execution.entry.nodeId = some shown ∧
      enrichOutput redact mask title (storedResult execution) = .ok shown := by
  have pairs := Progress.enrichOutputs_ok_iff.mp enriched
  have keys : outputs.map Prod.fst = state.nodeOutputs.entries.map Prod.fst := by
    rw [← List.forall₂_eq_eq_eq, List.forall₂_map_left_iff, List.forall₂_map_right_iff]
    exact pairs.flip.imp fun _ _ paired => paired.1
  have distinct : (outputs.map Prod.fst).Nodup := keys ▸ state.nodeOutputs.distinct
  obtain ⟨⟨nodeId, shown⟩, listed, sameId, converted⟩ := exists_related_of_mem pairs
    (stored.mem_entries_iff.mpr ⟨execution, member, rfl⟩)
  change nodeId = execution.entry.nodeId at sameId
  subst sameId
  exact ⟨_, shown, (OrderedMap.get?_ofList_iff distinct).mpr listed, converted⟩

/-- The results that the store holds after a preview whose outputs can be shown. -/
theorem previewResults_eq (stored : Stored state) (recorded : state.Recorded executor runtime)
    {outputs : List (String × PreviewOutput)}
    (enriched : enrichOutputs redact mask snapshot state.nodeOutputs = .ok outputs) :
    (lastExecutions state.executions).mapM (shownResult redact) =
      .ok ((buildNodeResultsFromOutputs (some (OrderedMap.ofList outputs))
        (some (keepLastOccurrences state.executedOrder))).map StoreResult.untitled) := by
  have order : state.executedOrder = state.executions.map fun execution => execution.entry.nodeId :=
    recorded.order
  by_cases executed : state.executions = []
  · have nothing : outputs = [] := by
      have empty : state.nodeOutputs = OrderedMap.empty := by
        rw [stored, executed]
        rfl
      rw [empty] at enriched
      exact (Except.ok.inj enriched).symm
    rw [order, executed, nothing]
    rfl
  · have some_executed : state.executedOrder ≠ [] := by
      rw [order]
      exact mt List.map_eq_nil_iff.mp executed
    rw [buildNodeResultsFromOutputs_order _ some_executed, order,
      keepLastOccurrences_executions, List.map_map, List.map_map, mapM_ok_iff,
      List.forall₂_map_right_iff, List.forall₂_same]
    intro execution member
    obtain ⟨title, shown, found, converted⟩ := stored.get?_enriched enriched member
    obtain ⟨redacted, _, error, metaFields, _⟩ := enrichOutput_ok_iff.mp converted
    unfold shownResult
    rw [redacted]
    simp only [Function.comp_apply, found, StoreResult.untitled, Option.map_some, Option.getD_some,
      Option.bind_some, error, metaFields]
    rfl

end Outputs

/-!
## Connections
-/

/-- The nodes that are executed from the stack before one fails or is the target
send nothing along a connection. -/
def RoutesNothing (executor : WorkflowExecutor) (runtime : Runtime World) (targetNodeId : String) :
    Side World → Nat → List StackEntry → Prop
  | _, _, [] => True
  | side, sequence, entry :: rest =>
      if executor.snapshot.isNodeDisabled entry.nodeId then
        RoutesNothing executor runtime targetNodeId side sequence rest
      else
        match executeNode executor runtime side sequence entry.nodeId entry.inputData false with
        | (_, .error _) => True
        | (side, .ok result) =>
            entry.nodeId = targetNodeId ∨ (routedEntries executor entry result = [] ∧
              RoutesNothing executor runtime targetNodeId side (sequence + 1) rest)

/-- The executions of the nodes of the stack alone, until one fails or is the target. -/
def stackExecutions (executor : WorkflowExecutor) (runtime : Runtime World)
    (targetNodeId : String) : Side World → Nat → List StackEntry → List Execution
  | _, _, [] => []
  | side, sequence, entry :: rest =>
      if executor.snapshot.isNodeDisabled entry.nodeId then
        stackExecutions executor runtime targetNodeId side sequence rest
      else
        match executeNode executor runtime side sequence entry.nodeId entry.inputData false with
        | (_, .error error) => [⟨entry, .error error⟩]
        | (side, .ok result) =>
            ⟨entry, .ok result⟩ ::
              if entry.nodeId = targetNodeId then []
              else stackExecutions executor runtime targetNodeId side (sequence + 1) rest

/-- An event is added for each entry that is pushed. -/
theorem routeConnections_extends (sockets : List String) (entry : StackEntry)
    (outputs : List (List Value)) (conns : List Connection) (routing : Routing) :
    let after := conns.foldl (routeConnection sockets entry outputs) routing
    ∃ pushed events, after.stack = pushed ++ routing.stack ∧
      after.executedConnections = routing.executedConnections ++ events ∧
      events.length = pushed.length := by
  induction conns generalizing routing with
  | nil => exact ⟨[], [], rfl, (List.append_nil _).symm, rfl⟩
  | cons conn conns ih =>
      obtain ⟨pushed, events, stack, connections, many⟩ :=
        ih (routeConnection sockets entry outputs routing conn)
      rcases routeConnection_cases sockets entry outputs routing conn with
        unchanged | ⟨event, first, routed, _⟩
      · rw [unchanged] at stack connections
        exact ⟨pushed, events, by rw [List.foldl_cons, unchanged, stack],
          by rw [List.foldl_cons, unchanged, connections], many⟩
      · rw [routed] at stack connections
        refine ⟨pushed ++ [first], event :: events, ?_, ?_, ?_⟩
        · rw [List.foldl_cons, routed, stack, List.append_assoc]
          rfl
        · rw [List.foldl_cons, routed, connections, List.append_assoc]
          rfl
        · rw [List.length_cons, List.length_append, many]
          rfl

theorem routeOutputs_connections (executor : WorkflowExecutor) (entry : StackEntry)
    (result : NodeOutput) (stack : List StackEntry) (executedConnections : List ConnectionEvent) :
    ∃ events, (routeOutputs executor entry result stack executedConnections).executedConnections =
        executedConnections ++ events ∧
      (events = [] ↔ routedEntries executor entry result = []) := by
  let after := routeOutputs executor entry result stack executedConnections
  have extended : ∃ pushed events, after.stack = pushed ++ stack ∧
      after.executedConnections = executedConnections ++ events ∧ events.length = pushed.length :=
    routeConnections_extends _ _ _ _ _
  obtain ⟨pushed, events, grown, added, many⟩ := extended
  have same : pushed = routedEntries executor entry result :=
    List.append_cancel_right
      (grown.symm.trans (routeOutputs_stack executor entry result stack executedConnections))
  refine ⟨events, added, ?_⟩
  rw [← same, ← List.length_eq_zero_iff, many, List.length_eq_zero_iff]

variable (executor runtime targetNodeId) in
theorem untilBody_connections (state : State World) (entry : StackEntry)
    (rest : List StackEntry) :
    state.executedConnections <+:
      (untilBody executor runtime targetNodeId state entry rest).1.executedConnections := by
  unfold untilBody
  dsimp only
  split
  · exact List.prefix_rfl
  · split
    · exact List.prefix_rfl
    · next side result _ =>
        split
        · exact List.prefix_rfl
        · obtain ⟨events, added, _⟩ := routeOutputs_connections executor entry result rest
            state.executedConnections
          exact ⟨events, added.symm⟩

variable (executor runtime targetNodeId) in
theorem untilLoop_connections (allowed : Nat) (state : State World) :
    state.executedConnections <+:
      (untilLoop executor runtime targetNodeId allowed state).1.executedConnections := by
  let Extends (later : State World) : Prop :=
    state.executedConnections <+: later.executedConnections
  refine untilLoop_invariant executor runtime targetNodeId Extends ?_ allowed List.prefix_rfl
  intro before entry rest kept
  exact kept.trans (untilBody_connections executor runtime targetNodeId before entry rest)

/-- The state after a node that is not the target has sent its outputs on. -/
def routedState (executor : WorkflowExecutor) (state : State World) (entry : StackEntry)
    (rest : List StackEntry) (side : Side World) (result : NodeOutput) : State World :=
  ((state.popped rest).record side entry (.ok result)).applyRouting
    (routeOutputs executor entry result rest state.executedConnections)

theorem routedState_of_nothing (state : State World) {entry : StackEntry} (rest : List StackEntry)
    (side : Side World) {result : NodeOutput} (nothing : routedEntries executor entry result = []) :
    (routedState executor state entry rest side result).executedConnections =
        state.executedConnections ∧
      (routedState executor state entry rest side result).stack = rest := by
  obtain ⟨events, added, sent⟩ := routeOutputs_connections executor entry result rest
    state.executedConnections
  constructor
  · change (routeOutputs executor entry result rest state.executedConnections).executedConnections = _
    rw [added, sent.mpr nothing, List.append_nil]
  · change (routeOutputs executor entry result rest state.executedConnections).stack = rest
    rw [routeOutputs_stack, nothing]
    rfl

theorem routedState_of_something (state : State World) {entry : StackEntry}
    (rest : List StackEntry) (side : Side World) {result : NodeOutput}
    (something : routedEntries executor entry result ≠ []) :
    (routedState executor state entry rest side result).executedConnections ≠ [] := by
  obtain ⟨events, added, sent⟩ := routeOutputs_connections executor entry result rest
    state.executedConnections
  change (routeOutputs executor entry result rest state.executedConnections).executedConnections ≠ []
  rw [added]
  exact List.append_ne_nil_of_right_ne_nil _ (mt sent.mp something)

variable (executor runtime targetNodeId) in
/-- A preview that ends within its iterations has no connections exactly if the
nodes on its stack route nothing. -/
theorem untilLoop_routes_nothing_iff (allowed : Nat) (state : State World)
    (empty : state.executedConnections = [])
    (within : (untilLoop executor runtime targetNodeId allowed state).1.iteration <
      state.iteration + allowed) :
    (untilLoop executor runtime targetNodeId allowed state).1.executedConnections = [] ↔
      RoutesNothing executor runtime targetNodeId state.side state.executedOrder.length
        state.stack := by
  induction allowed generalizing state with
  | zero => exact absurd within (lt_irrefl _)
  | succ allowed ih =>
      have shorter : state.iteration + (allowed + 1) = state.iteration + 1 + allowed := by omega
      rw [shorter] at within
      cases top : state.stack with
      | nil =>
          rw [untilLoop_of_empty top, RoutesNothing]
          exact ⟨fun _ => trivial, fun _ => empty⟩
      | cons entry rest =>
          unfold RoutesNothing
          by_cases disabled : executor.snapshot.isNodeDisabled entry.nodeId = true
          · rw [if_pos disabled]
            rw [untilLoop_skip top disabled] at within ⊢
            exact ih _ empty within
          · rw [if_neg disabled]
            have enabled := Bool.eq_false_iff.mpr disabled
            cases ran : executeNode executor runtime state.side state.executedOrder.length
                entry.nodeId entry.inputData false with
            | mk side outcome =>
                cases outcome with
                | error error =>
                    rw [untilLoop_failed top enabled ran]
                    exact ⟨fun _ => trivial, fun _ => empty⟩
                | ok result =>
                    by_cases atTarget : entry.nodeId = targetNodeId
                    · rw [untilLoop_reached top enabled atTarget ran]
                      exact ⟨fun _ => .inl atTarget, fun _ => empty⟩
                    · rw [untilLoop_routed top enabled atTarget ran] at within ⊢
                      dsimp only
                      rw [or_iff_right atTarget]
                      change (untilLoop executor runtime targetNodeId allowed
                        (routedState executor state entry rest side result)).1.iteration <
                          (routedState executor state entry rest side result).iteration + allowed
                        at within
                      by_cases nothing : routedEntries executor entry result = []
                      · obtain ⟨kept, stack⟩ := routedState_of_nothing state rest side nothing
                        have later := ih _ (kept.trans empty) within
                        have sequence : (routedState executor state entry rest side
                            result).executedOrder.length = state.executedOrder.length + 1 :=
                          List.length_append
                        rw [stack, sequence] at later
                        rw [and_iff_right nothing]
                        exact later
                      · have sent := routedState_of_something state rest side nothing
                        have kept := untilLoop_connections executor runtime targetNodeId allowed
                          (routedState executor state entry rest side result)
                        constructor
                        · intro none
                          exact absurd (List.prefix_nil.mp (none ▸ kept)) sent
                        · rintro ⟨routed, _⟩
                          exact absurd routed nothing

variable (executor runtime targetNodeId) in
/-- A preview that routes nothing executes the nodes on its stack alone. -/
theorem untilLoop_executions_of_nothing (allowed : Nat) (state : State World)
    (within : (untilLoop executor runtime targetNodeId allowed state).1.iteration <
      state.iteration + allowed)
    (nothing : RoutesNothing executor runtime targetNodeId state.side state.executedOrder.length
      state.stack) :
    (untilLoop executor runtime targetNodeId allowed state).1.executions =
      state.executions ++ stackExecutions executor runtime targetNodeId state.side
        state.executedOrder.length state.stack := by
  induction allowed generalizing state with
  | zero => exact absurd within (lt_irrefl _)
  | succ allowed ih =>
      have shorter : state.iteration + (allowed + 1) = state.iteration + 1 + allowed := by omega
      rw [shorter] at within
      cases top : state.stack with
      | nil =>
          rw [untilLoop_of_empty top, stackExecutions, List.append_nil]
      | cons entry rest =>
          rw [top] at nothing
          unfold RoutesNothing at nothing
          unfold stackExecutions
          by_cases disabled : executor.snapshot.isNodeDisabled entry.nodeId = true
          · rw [if_pos disabled] at nothing ⊢
            rw [untilLoop_skip top disabled] at within ⊢
            exact ih _ within nothing
          · rw [if_neg disabled] at nothing ⊢
            have enabled := Bool.eq_false_iff.mpr disabled
            cases ran : executeNode executor runtime state.side state.executedOrder.length
                entry.nodeId entry.inputData false with
            | mk side outcome =>
                rw [ran] at nothing
                cases outcome with
                | error error =>
                    rw [untilLoop_failed top enabled ran]
                    rfl
                | ok result =>
                    dsimp only at nothing ⊢
                    by_cases atTarget : entry.nodeId = targetNodeId
                    · rw [untilLoop_reached top enabled atTarget ran, if_pos atTarget]
                      rfl
                    · rw [untilLoop_routed top enabled atTarget ran] at within ⊢
                      obtain ⟨unrouted, later⟩ := nothing.resolve_left atTarget
                      obtain ⟨_, stack⟩ := routedState_of_nothing state rest side unrouted
                      have sequence : (routedState executor state entry rest side
                          result).executedOrder.length = state.executedOrder.length + 1 :=
                        List.length_append
                      have continued := ih (routedState executor state entry rest side result)
                        within (by rwa [stack, sequence])
                      rw [stack, sequence] at continued
                      rw [if_neg atTarget]
                      refine continued.trans ?_
                      change state.executions ++ [⟨entry, .ok result⟩] ++ _ = _
                      rw [List.append_assoc]
                      rfl

/-!
## The preview
-/

/-- The nodes that a preview executes before one fails or is the target, while
it takes its start nodes from the last to the first, send nothing along a
connection, and what each of them stores last can be shown. -/
def PreviewSurvivable (executor : WorkflowExecutor) (runtime : Runtime World)
    (redact mask : Value → Except String Value) (world : World) (targetNodeId : String)
    (inputData : Value) : Prop :=
  ∀ startNodes, executor.snapshot.findStartNodesForTarget targetNodeId = .ok startNodes →
    RoutesNothing executor runtime targetNodeId ⟨world, []⟩ 0
      (State.launched world startNodes inputData).stack ∧
    ∀ execution ∈ lastExecutions (stackExecutions executor runtime targetNodeId ⟨world, []⟩ 0
      (State.launched world startNodes inputData).stack), Showable redact mask execution

theorem executeUntil_ok {world : World} {inputData : Value} {state : State World}
    {status : PreviewStatus}
    (previewed : executeUntil executor runtime world targetNodeId inputData = (state, .ok status)) :
    targetNodeId ≠ "" ∧ ∃ startNodes,
      executor.snapshot.findStartNodesForTarget targetNodeId = .ok startNodes ∧
      (untilLoop executor runtime targetNodeId maxIterations
        (State.launched world startNodes inputData)).1 = state ∧
      state.iteration < maxIterations := by
  unfold executeUntil at previewed
  split at previewed
  · cases previewed
  · next named =>
      refine ⟨named, ?_⟩
      cases found : executor.snapshot.findStartNodesForTarget targetNodeId with
      | error error =>
          rw [found] at previewed
          cases previewed
      | ok startNodes =>
          rw [found] at previewed
          dsimp only at previewed
          split at previewed
          · cases previewed
          · next within =>
              have same : (untilRun executor runtime world targetNodeId inputData maxIterations
                  startNodes).1 = state := by
                split at previewed
                · split at previewed
                  · cases previewed
                  · exact congrArg Prod.fst previewed
                · exact congrArg Prod.fst previewed
                · cases previewed
              refine ⟨startNodes, rfl, same, ?_⟩
              rw [← same]
              exact Nat.lt_of_not_le within

/-- What the store holds after a preview is what the executor returned: the
connections and their identifiers in order, and the last result of each node in
the order of the last executions, as the user may see it. -/
structure Survives (redact : Value → Except String Value) (state : State World)
    (progress : PreviewProgress) : Prop where
  connectionIds :
    progress.executedConnectionIds = getExecutedConnectionIds state.executedConnections
  connections : progress.executedConnections = state.executedConnections
  results : (lastExecutions state.executions).mapM (shownResult redact) =
    .ok (progress.nodeResults.map StoreResult.untitled)

section Survival

variable {redact mask : Value → Except String Value}

theorem previewProgress_eq {sockets : String → List String} {world : World}
    {draft : Option Snapshot} {request : PreviewRequest} {snapshot : Snapshot}
    {state : State World} {status : PreviewStatus}
    (prepared : workingSnapshot draft request = .ok snapshot)
    (previewed : executeUntil (previewExecutor sockets snapshot) runtime world
      request.targetNodeId (request.inputData.orElse (.dict [])) = (state, .ok status)) :
    previewProgress runtime redact mask sockets world draft request =
      executeUntilNode request.inputData (executeUntilEndpoint request.targetNodeId
        (previewData redact mask snapshot (untilResult request.targetNodeId state status))) := by
  unfold previewProgress executePreview
  rw [prepared]
  dsimp only
  rw [previewed]

theorem previewData_connections {snapshot : Snapshot} {result : UntilResult} {data : PreviewData}
    (made : previewData redact mask snapshot result = .ok data) :
    data.executedConnections = none ∧ data.executedConnectionIds = none := by
  obtain ⟨outputs, _, rfl⟩ := map_eq_ok made
  exact ⟨rfl, rfl⟩

variable (redact mask) in
/-- No connection arrives, whether the outputs can be shown or not. -/
theorem preview_connections_nil (snapshot : Snapshot) (result : UntilResult) (inputData : Value)
    (named : targetNodeId ≠ "") :
    let progress := executeUntilNode inputData (executeUntilEndpoint targetNodeId
      (previewData redact mask snapshot result))
    progress.executedConnections = [] ∧ progress.executedConnectionIds = [] := by
  unfold executeUntilEndpoint
  rw [if_neg named]
  cases made : previewData redact mask snapshot result with
  | error error => exact ⟨rfl, rfl⟩
  | ok data =>
      obtain ⟨connections, ids⟩ := previewData_connections made
      dsimp only [executeUntilNode, setExecutionResult]
      rw [connections, ids]
      exact ⟨rfl, rfl⟩

variable (redact mask) in
/-- The results of a preview arrive exactly if what each node stores last can be shown. -/
theorem preview_results_iff (snapshot : Snapshot) {state : State World} (status : PreviewStatus)
    (stored : Stored state) (recorded : state.Recorded executor runtime) (inputData : Value)
    (named : targetNodeId ≠ "") :
    (lastExecutions state.executions).mapM (shownResult redact) =
        .ok ((executeUntilNode inputData (executeUntilEndpoint targetNodeId
          (previewData redact mask snapshot (untilResult targetNodeId state
            status)))).nodeResults.map StoreResult.untitled) ↔
      ∀ execution ∈ lastExecutions state.executions, Showable redact mask execution := by
  rw [← stored.enrichOutputs_ok_iff redact mask snapshot]
  cases enriched : enrichOutputs redact mask snapshot state.nodeOutputs with
  | error error =>
      have failed : previewData redact mask snapshot (untilResult targetNodeId state status) =
          .error error := by
        change (enrichOutputs redact mask snapshot state.nodeOutputs).map _ = _
        rw [enriched]
        rfl
      rw [failed]
      unfold executeUntilEndpoint
      rw [if_neg named]
      refine iff_of_false ?_ (by rintro ⟨outputs, made⟩; cases made)
      intro arrived
      -- The response of an error has no results, and a stored output that cannot be shown is one.
      have none_last : lastExecutions state.executions = [] :=
        List.forall₂_nil_right_iff.mp (mapM_ok_iff.mp arrived)
      have shown := (stored.enrichOutputs_ok_iff redact mask snapshot).mpr (by rw [none_last]; exact List.forall_mem_nil _)
      obtain ⟨outputs, made⟩ := shown
      rw [enriched] at made
      cases made
  | ok outputs =>
      obtain ⟨data, made, shown, order⟩ : ∃ data,
          previewData redact mask snapshot (untilResult targetNodeId state status) = .ok data ∧
            data.nodeOutputs = OrderedMap.ofList outputs ∧
            data.executedOrder = state.executedOrder := by
        unfold previewData
        change ∃ data, (enrichOutputs redact mask snapshot state.nodeOutputs).map _ = _ ∧ _
        rw [enriched]
        exact ⟨_, rfl, rfl, rfl⟩
      have arrived := previewResults_eq stored recorded enriched
      rw [← shown, ← order] at arrived
      rw [made]
      unfold executeUntilEndpoint
      rw [if_neg named]
      exact iff_of_true arrived ⟨outputs, rfl⟩

end Survival

/-- The preview of a node that no connection leads to. -/
def singleRequest : PreviewRequest where
  targetNodeId := "n_1"
  inputData := .int 7
  configOverrides := .none
  snapshot := some {
    nodes := [⟨"n_1", "noop", none, [], []⟩]
    connections := [] }

/-- The preview of the second of two connected nodes. -/
def chainRequest : PreviewRequest where
  targetNodeId := "n_2"
  inputData := .int 7
  configOverrides := .none
  snapshot := some {
    nodes := ["n_1", "n_2"].map fun nodeId => ⟨nodeId, "noop", none, [], []⟩
    connections := [⟨some "c_1", some "n_1", none, some "n_2", none⟩] }

end WorkflowStudio.Progress
