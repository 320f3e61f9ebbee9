import WorkflowStudio.Progress.NodeResults

/-! The latest result of some nodes is the last one in a list where a result
stands at the place of the last run of its node. In the list of a run it stands at
the place of the first one, with the content of the last one. -/

set_option autoImplicit false

namespace WorkflowStudio.Progress

open Lib Executor

theorem idxOf?_concat {nodeIds : List String} {nodeId : String} (absent : nodeId ∉ nodeIds)
    (other : String) : (nodeIds ++ [nodeId]).idxOf? other =
      if other = nodeId then some nodeIds.length else nodeIds.idxOf? other := by
  rw [List.idxOf?, List.findIdx?_append]
  by_cases same : other = nodeId
  · subst same
    have missing : nodeIds.findIdx? (· == other) = none := List.idxOf?_eq_none_iff.mpr absent
    rw [if_pos rfl, missing]
    simp
  · have unlike : (nodeId == other) = false := beq_eq_false_iff_ne.mpr (Ne.symm same)
    rw [if_neg same]
    simp [unlike]

theorem find?_reverse_eq_some {Item : Type} {items : List Item} {wanted : Item → Bool}
    {item : Item} : items.reverse.find? wanted = some item ↔
      wanted item = true ∧ ∃ before after, items = before ++ item :: after ∧
        ∀ other ∈ after, wanted other = false := by
  rw [List.find?_eq_some_iff_append]
  refine and_congr_right fun _ => ?_
  constructor
  · intro split
    obtain ⟨after, before, same, unwanted⟩ := split
    refine ⟨before.reverse, after.reverse, ?_, fun other member => ?_⟩
    · rw [← items.reverse_reverse, same]
      simp
    · simpa using unwanted other (List.mem_reverse.mp member)
  · intro split
    obtain ⟨before, after, rfl, unwanted⟩ := split
    refine ⟨after.reverse, before.reverse, by simp, fun other member => ?_⟩
    simpa using unwanted other (List.mem_reverse.mp member)

/-!
## Results of a run
-/

/-- The results by their node, each at the place of its first run. -/
def resultsById (nodeRuns : List NodeRun) : OrderedMap String NodeResultSchema :=
  OrderedMap.ofList (nodeRuns.map fun nodeRun => (nodeRun.nodeId, buildNodeResultSchema nodeRun))

structure Collected.Holds (collected : Collected) (nodeRuns : List NodeRun) : Prop where
  results : collected.nodeResults = (resultsById nodeRuns).values
  places : ∀ nodeId, collected.nodeIndexById.get? nodeId = (resultsById nodeRuns).keys.idxOf? nodeId

theorem resultsById_concat (nodeRuns : List NodeRun) (nodeRun : NodeRun) :
    resultsById (nodeRuns ++ [nodeRun]) =
      (resultsById nodeRuns).set nodeRun.nodeId (buildNodeResultSchema nodeRun) := by
  unfold resultsById
  rw [List.map_append]
  exact OrderedMap.ofList_concat _ _

theorem Collected.Holds.add {collected : Collected} {nodeRuns : List NodeRun}
    (holds : collected.Holds nodeRuns) (nodeRun : NodeRun) :
    (collected.add nodeRun).Holds (nodeRuns ++ [nodeRun]) := by
  obtain ⟨results, places⟩ := holds
  unfold Collected.add
  dsimp only
  cases found : collected.nodeIndexById.get? nodeRun.nodeId with
  | some index =>
      have place := (places nodeRun.nodeId).symm.trans found
      have listed : nodeRun.nodeId ∈ (resultsById nodeRuns).keys := by
        by_contra absent
        rw [List.idxOf?_eq_none_iff.mpr absent] at place
        cases place
      constructor
      · rw [resultsById_concat, OrderedMap.values_set_of_idxOf? place, results]
      · intro nodeId
        rw [resultsById_concat, OrderedMap.keys_set_of_get?
          (Option.isSome_iff_exists.mpr (OrderedMap.mem_keys_iff.mp listed))]
        exact places nodeId
  | none =>
      have absent := List.idxOf?_eq_none_iff.mp ((places nodeRun.nodeId).symm.trans found)
      have counted : collected.nodeResults.length = (resultsById nodeRuns).keys.length := by
        rw [results, OrderedMap.values, OrderedMap.keys, List.length_map, List.length_map]
      have grown : (resultsById (nodeRuns ++ [nodeRun])).keys =
          (resultsById nodeRuns).keys ++ [nodeRun.nodeId] := by
        rw [resultsById_concat, OrderedMap.keys, OrderedMap.keys_set_of_absent absent,
          List.map_append]
        rfl
      constructor
      · rw [resultsById_concat, OrderedMap.values_set_of_absent absent, results]
      · intro nodeId
        dsimp only
        rw [grown, OrderedMap.get?_set, places nodeId, counted, idxOf?_concat absent]

theorem collectRunNodeResults_holds (nodeRuns : List NodeRun) :
    (collectRunNodeResults nodeRuns).Holds (sortedRuns nodeRuns) := by
  unfold collectRunNodeResults
  generalize sortedRuns nodeRuns = trace
  induction trace using List.reverseRecOn with
  | nil => exact ⟨rfl, fun _ => rfl⟩
  | append_singleton before nodeRun ih =>
      rw [List.foldl_append]
      exact ih.add nodeRun

theorem resultsById_own {nodeRuns : List NodeRun} {nodeId : String} {result : NodeResultSchema}
    (found : (resultsById nodeRuns).get? nodeId = some result) : result.nodeId = nodeId := by
  obtain ⟨nodeRun, _, same⟩ := List.mem_map.mp (OrderedMap.mem_of_get?_ofList found)
  cases same
  rfl

/-!
## The latest result
-/

/-- The last run of one of the nodes. -/
def lastRun (nodeRuns : List NodeRun) (nodeIds : List String) : Option NodeRun :=
  nodeRuns.reverse.find? fun nodeRun => decide (nodeRun.nodeId ∈ nodeIds)

/-- None of the nodes runs for the first time after the first run of the node
that runs last. -/
def LastStartsLast (nodeRuns : List NodeRun) (nodeIds : List String) : Prop :=
  ∀ last, lastRun nodeRuns nodeIds = some last →
    ∀ nodeRun ∈ nodeRuns, nodeRun.nodeId ∈ nodeIds →
      (nodeRuns.map NodeRun.nodeId).idxOf nodeRun.nodeId ≤
        (nodeRuns.map NodeRun.nodeId).idxOf last.nodeId

theorem getLatestNodeResultForNodeIds_eq (nodeResults : List NodeResultSchema)
    (nodeIds : List String) : getLatestNodeResultForNodeIds nodeResults nodeIds =
      nodeResults.reverse.find? fun result => decide (result.nodeId ∈ nodeIds) := by
  unfold getLatestNodeResultForNodeIds
  split
  · next none =>
      rcases none with rfl | rfl
      · rfl
      · symm
        rw [List.find?_eq_none]
        simp
  · rfl

section Latest

variable {nodeRuns : List NodeRun} {nodeIds : List String}

theorem lastRun_mem {last : NodeRun} (found : lastRun nodeRuns nodeIds = some last) :
    last ∈ nodeRuns ∧ last.nodeId ∈ nodeIds :=
  ⟨List.mem_reverse.mp (List.mem_of_find?_eq_some found),
    of_decide_eq_true (List.find?_eq_some_iff_append.mp found).1⟩

/-- What is stored by node has the content of the last run. -/
theorem get?_lastRun {Content : Type} (content : NodeRun → Content) {last : NodeRun}
    (found : lastRun nodeRuns nodeIds = some last) :
    (OrderedMap.ofList (nodeRuns.map fun nodeRun =>
      (nodeRun.nodeId, content nodeRun))).get? last.nodeId = some (content last) := by
  obtain ⟨wanted, before, after, rfl, unwanted⟩ := find?_reverse_eq_some.mp found
  rw [List.map_append, List.map_cons]
  refine OrderedMap.get?_ofList_last _ fun later => ?_
  rw [List.map_map] at later
  obtain ⟨other, member, same⟩ := List.mem_map.mp later
  have off := unwanted other member
  rw [Function.comp_apply] at same
  dsimp only at same
  rw [same] at off
  exact absurd (off.symm.trans wanted) (by decide)

/-- In the list of the run, the latest result is the one of the node that first
runs last. -/
theorem latest_collected_eq_some {result : NodeResultSchema}
    (latest : getLatestNodeResultForNodeIds (resultsById nodeRuns).values nodeIds = some result) :
    result.nodeId ∈ nodeIds ∧ (resultsById nodeRuns).get? result.nodeId = some result ∧
      ∀ nodeRun ∈ nodeRuns, nodeRun.nodeId ∈ nodeIds → nodeRun.nodeId ≠ result.nodeId →
        (nodeRuns.map NodeRun.nodeId).idxOf nodeRun.nodeId <
          (nodeRuns.map NodeRun.nodeId).idxOf result.nodeId := by
  rw [getLatestNodeResultForNodeIds_eq] at latest
  obtain ⟨wanted, before, after, split, unwanted⟩ := find?_reverse_eq_some.mp latest
  obtain ⟨earlier, rest, entries, _, listed⟩ := List.map_eq_append_iff.mp split
  obtain ⟨entry, later, rfl, here, following⟩ := List.map_eq_cons_iff.mp listed
  have stored : (resultsById nodeRuns).get? entry.1 = some entry.2 := by
    rw [OrderedMap.get?_eq_some_iff, entries]
    exact List.mem_append_right _ List.mem_cons_self
  have own := resultsById_own stored
  rw [here] at own stored
  rw [own]
  refine ⟨own ▸ of_decide_eq_true wanted, stored, fun nodeRun ran member different => ?_⟩
  have ordered := OrderedMap.pairwise_keys_ofList (nodeRuns.map fun nodeRun =>
    (nodeRun.nodeId, buildNodeResultSchema nodeRun))
  have keys : (resultsById nodeRuns).keys =
      earlier.map Prod.fst ++ entry.1 :: later.map Prod.fst := by
    rw [OrderedMap.keys, entries, List.map_append, List.map_cons]
  have shown : (OrderedMap.ofList (nodeRuns.map fun nodeRun =>
      (nodeRun.nodeId, buildNodeResultSchema nodeRun))).keys = _ := keys
  have order : (nodeRuns.map fun nodeRun =>
      (nodeRun.nodeId, buildNodeResultSchema nodeRun)).map Prod.fst =
        nodeRuns.map NodeRun.nodeId := by
    rw [List.map_map]
    rfl
  rw [shown, order, List.pairwise_append] at ordered
  have known : nodeRun.nodeId ∈ (resultsById nodeRuns).keys := by
    refine OrderedMap.mem_keys_ofList.mpr ?_
    rw [order]
    exact List.mem_map_of_mem ran
  rw [keys, List.mem_append, List.mem_cons] at known
  rcases known with first | same | late
  · exact ordered.2.2 _ first _ List.mem_cons_self
  · exact absurd same different
  · obtain ⟨other, among, same⟩ := List.mem_map.mp late
    have placed : (resultsById nodeRuns).get? other.1 = some other.2 := by
      rw [OrderedMap.get?_eq_some_iff, entries]
      exact List.mem_append_right _ (List.mem_cons_of_mem _ among)
    have off := unwanted other.2 (following ▸ List.mem_map_of_mem among)
    rw [resultsById_own placed, same] at off
    exact absurd member (of_decide_eq_false off)

theorem lastRun_of_ran {nodeRun : NodeRun} (ran : nodeRun ∈ nodeRuns)
    (member : nodeRun.nodeId ∈ nodeIds) : ∃ last, lastRun nodeRuns nodeIds = some last := by
  rw [← Option.isSome_iff_exists, lastRun, List.find?_isSome]
  exact ⟨nodeRun, List.mem_reverse.mpr ran, decide_eq_true member⟩

theorem ran_of_resultsById {nodeId : String} {result : NodeResultSchema}
    (found : (resultsById nodeRuns).get? nodeId = some result) :
    ∃ nodeRun ∈ nodeRuns, nodeRun.nodeId = nodeId := by
  obtain ⟨nodeRun, ran, same⟩ := List.mem_map.mp (OrderedMap.mem_of_get?_ofList found)
  cases same
  exact ⟨nodeRun, ran, rfl⟩

theorem latest_collected_iff :
    getLatestNodeResultForNodeIds (resultsById nodeRuns).values nodeIds =
        (lastRun nodeRuns nodeIds).map buildNodeResultSchema ↔
      LastStartsLast nodeRuns nodeIds := by
  constructor
  · intro latest last found nodeRun ran member
    rw [found, Option.map_some] at latest
    obtain ⟨_, _, first⟩ := latest_collected_eq_some latest
    by_cases same : nodeRun.nodeId = last.nodeId
    · rw [same]
    · exact (first nodeRun ran member same).le
  · intro starts
    cases latest : getLatestNodeResultForNodeIds (resultsById nodeRuns).values nodeIds with
    | none =>
        cases found : lastRun nodeRuns nodeIds with
        | none => rfl
        | some last =>
            rw [getLatestNodeResultForNodeIds_eq, List.find?_eq_none] at latest
            have stored := OrderedMap.get?_eq_some_iff.mp (get?_lastRun buildNodeResultSchema found)
            have listed : buildNodeResultSchema last ∈ (resultsById nodeRuns).values :=
              List.mem_map_of_mem stored
            exact absurd (decide_eq_true (lastRun_mem found).2)
              (latest _ (List.mem_reverse.mpr listed))
    | some result =>
        obtain ⟨member, stored, first⟩ := latest_collected_eq_some latest
        obtain ⟨nodeRun, ran, same⟩ := ran_of_resultsById stored
        obtain ⟨last, found⟩ := lastRun_of_ran ran (same ▸ member)
        have here : last.nodeId = result.nodeId := by
          by_contra different
          obtain ⟨among, wanted⟩ := lastRun_mem found
          have before := first last among wanted different
          have after := starts last found nodeRun ran (same ▸ member)
          rw [same] at after
          omega
        have content :
            (resultsById nodeRuns).get? last.nodeId = some (buildNodeResultSchema last) :=
          get?_lastRun buildNodeResultSchema found
        rw [here, stored] at content
        rw [found, Option.map_some]
        exact content

/-!
## Previews
-/

/-- What a preview stores for the same node runs. -/
def previewOutputs (nodeRuns : List NodeRun) : OrderedMap String PreviewOutput :=
  OrderedMap.ofList (nodeRuns.map fun nodeRun => (nodeRun.nodeId, {
    outputs := none
    json := nodeRun.outputData
    error := nodeRun.errorMessage
    metaFields := none
    title := nodeRun.nodeLabel }))

theorem find?_foldl_unique (wanted : String → Bool) (nodeIds unique : List String) :
    (nodeIds.foldl (fun unique nodeId =>
      if nodeId ∈ unique then unique else unique ++ [nodeId]) unique).find? wanted =
        (unique ++ nodeIds).find? wanted := by
  induction nodeIds generalizing unique with
  | nil => rw [List.foldl_nil, List.append_nil]
  | cons nodeId rest ih =>
      rw [List.foldl_cons, ih]
      split
      · next seen =>
          rw [List.find?_append, List.find?_append, List.find?_cons]
          cases found : unique.find? wanted with
          | some first => rfl
          | none =>
              have unwanted := List.find?_eq_none.mp found nodeId seen
              rw [Option.none_or, Option.none_or]
              simp [unwanted]
      · rw [List.append_assoc]
        rfl

/-- Dropping the earlier occurrences of a node does not change which one is last. -/
theorem find?_keepLastOccurrences (wanted : String → Bool) (nodeIds : List String) :
    (keepLastOccurrences nodeIds).reverse.find? wanted = nodeIds.reverse.find? wanted := by
  unfold keepLastOccurrences
  rw [List.reverse_reverse, find?_foldl_unique, List.nil_append]

theorem latest_preview (nodeOutputs : OrderedMap String PreviewOutput)
    (executedOrder nodeIds : List String) :
    getLatestNodeResultForNodeIds (previewNodeResults nodeOutputs executedOrder) nodeIds =
      (executedOrder.reverse.find? fun nodeId => decide (nodeId ∈ nodeIds)).map fun nodeId =>
        buildPreviewResult nodeId (nodeOutputs.get? nodeId) := by
  rw [getLatestNodeResultForNodeIds_eq, previewNodeResults, ← List.map_reverse, List.find?_map]
  exact congrArg (Option.map _) (find?_keepLastOccurrences _ executedOrder)

/-- What a result tells, whichever list it is from. -/
def NodeResultSchema.told (result : NodeResultSchema) : String × Value × Option String :=
  (result.nodeId, result.outputData, result.errorMessage)

theorem latest_preview_told :
    (getLatestNodeResultForNodeIds
        (previewNodeResults (previewOutputs nodeRuns) (nodeRuns.map NodeRun.nodeId))
        nodeIds).map NodeResultSchema.told =
      (lastRun nodeRuns nodeIds).map fun last => (buildNodeResultSchema last).told := by
  rw [latest_preview, ← List.map_reverse, List.find?_map, Option.map_map, Option.map_map]
  cases found : lastRun nodeRuns nodeIds with
  | none =>
      rw [Option.map_none, Option.map_eq_none_iff]
      exact found
  | some last =>
      have stored : (previewOutputs nodeRuns).get? last.nodeId = some _ :=
        get?_lastRun _ found
      have shown : nodeRuns.reverse.find? ((fun nodeId => decide (nodeId ∈ nodeIds)) ∘
          NodeRun.nodeId) = some last := found
      rw [shown, Option.map_some, Option.map_some, Function.comp_apply, Function.comp_apply, stored]
      rfl

end Latest

/-- On the results of a run, the lookup returns the result of the last run of one
of the nodes, as it does on the results of a preview with the same node runs, just
when none of the nodes first runs after the node that runs last. -/
theorem latest_result_iff (nodeRuns : List NodeRun) (nodeIds : List String) :
    (getLatestNodeResultForNodeIds (collectRunNodeResults nodeRuns).nodeResults nodeIds =
        (lastRun (sortedRuns nodeRuns) nodeIds).map buildNodeResultSchema ∧
      (getLatestNodeResultForNodeIds (collectRunNodeResults nodeRuns).nodeResults nodeIds).map
          NodeResultSchema.told =
        (getLatestNodeResultForNodeIds (previewNodeResults (previewOutputs (sortedRuns nodeRuns))
          ((sortedRuns nodeRuns).map NodeRun.nodeId)) nodeIds).map NodeResultSchema.told) ↔
    LastStartsLast (sortedRuns nodeRuns) nodeIds := by
  rw [(collectRunNodeResults_holds nodeRuns).results, ← latest_collected_iff, latest_preview_told]
  constructor
  · exact fun both => both.1
  · intro latest
    refine ⟨latest, ?_⟩
    rw [latest, Option.map_map]
    rfl

def nodeRunOf (sequence : Nat) (nodeId : String) : NodeRun where
  id := sequence
  nodeId := nodeId
  nodeType := none
  nodeLabel := none
  sequence := sequence
  iteration := 0
  status := "completed"
  inputData := .none
  outputData := .int sequence
  outputSocket := none
  errorMessage := none

/-- A loop node that runs, its body, and the loop node again. -/
def loopRuns : List NodeRun := [nodeRunOf 0 "n_1", nodeRunOf 1 "n_2", nodeRunOf 2 "n_1"]

/-- The loop node ran last, but the result of its body is taken for the latest. -/
theorem loop_node_is_not_latest :
    (getLatestNodeResultForNodeIds (collectRunNodeResults loopRuns).nodeResults
        ["n_1", "n_2"]).map NodeResultSchema.nodeId = some "n_2" ∧
      (lastRun (sortedRuns loopRuns) ["n_1", "n_2"]).map NodeRun.nodeId = some "n_1" := by
  have sorted : sortedRuns loopRuns = loopRuns := List.mergeSort_of_pairwise (by decide)
  unfold collectRunNodeResults
  rw [sorted]
  constructor
  · decide
  · decide

end WorkflowStudio.Progress
