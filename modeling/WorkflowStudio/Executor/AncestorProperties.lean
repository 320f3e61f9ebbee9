import WorkflowStudio.Executor.Graph

/-! The ancestor search ends and finds exactly the nodes with a path to the target. The
start nodes of a preview are exactly those start nodes that are the target or have a path
to it, if there are any; an empty target stands for all start nodes. -/

set_option autoImplicit false

namespace WorkflowStudio.Executor.Snapshot

open Lib

/-!
## Start nodes
-/

/-- An enabled node without incoming connections. -/
structure IsStart (snapshot : Snapshot) (nodeId : String) : Prop where
  listed : nodeId ∈ snapshot.nodesById.keys
  noIncoming : snapshot.hasIncoming nodeId = false
  enabled : snapshot.isNodeDisabled nodeId = false

/-- The start nodes are found in node order, if there is one. -/
theorem findStartNodes_of_isStart {snapshot : Snapshot} {startNodeId : String}
    (isStart : snapshot.IsStart startNodeId) :
    ∃ startNodes, snapshot.findStartNodes = .ok startNodes ∧
      startNodes.Sublist snapshot.nodesById.keys ∧
      ∀ nodeId, nodeId ∈ startNodes ↔ snapshot.IsStart nodeId := by
  have member_iff : ∀ nodeId, nodeId ∈ (snapshot.nodesById.keys.filter fun nodeId =>
      !snapshot.hasIncoming nodeId).filter (fun nodeId => !snapshot.isNodeDisabled nodeId) ↔
      snapshot.IsStart nodeId := by
    intro nodeId
    rw [List.mem_filter, List.mem_filter, Bool.not_eq_true', Bool.not_eq_true']
    constructor
    · rintro ⟨⟨listed, noIncoming⟩, enabled⟩
      exact ⟨listed, noIncoming, enabled⟩
    · intro start
      exact ⟨⟨start.listed, start.noIncoming⟩, start.enabled⟩
  refine ⟨_, ?_, List.filter_sublist.trans List.filter_sublist, member_iff⟩
  have member := (member_iff startNodeId).mpr isStart
  simp only [findStartNodes]
  split
  · next none =>
      rw [none] at member
      cases member
  · rfl

open Classical in
theorem findStartNodesForTarget_of_reaches {snapshot : Snapshot} {startNodes : List String}
    {startNodeId targetNodeId : String} (named : targetNodeId ≠ "")
    (found : snapshot.findStartNodes = .ok startNodes) (starts : startNodeId ∈ startNodes)
    (reaches : snapshot.Reaches startNodeId targetNodeId) :
    snapshot.findStartNodesForTarget targetNodeId = .ok (startNodes.filter fun nodeId =>
      decide (snapshot.Reaches nodeId targetNodeId)) := by
  have same : (startNodes.filter fun nodeId => decide (nodeId ∈ targetNodeId ::
      snapshot.getNodeAncestors targetNodeId)) = startNodes.filter fun nodeId =>
      decide (snapshot.Reaches nodeId targetNodeId) := by
    refine List.filter_congr fun nodeId _ => ?_
    exact decide_eq_decide.mpr mem_ancestors_iff_reaches
  have kept : startNodeId ∈ startNodes.filter fun nodeId =>
      decide (snapshot.Reaches nodeId targetNodeId) :=
    List.mem_filter.mpr ⟨starts, decide_eq_true reaches⟩
  simp only [findStartNodesForTarget, found, if_neg named, same]
  cases filtered : startNodes.filter fun nodeId =>
      decide (snapshot.Reaches nodeId targetNodeId) with
  | nil =>
      rw [filtered] at kept
      cases kept
  | cons first others => rfl

/-!
## The search
-/

/-- No connection leads to the empty id. -/
theorem eq_of_reaches_empty {snapshot : Snapshot} {nodeId : String}
    (reaches : snapshot.Reaches nodeId "") : nodeId = "" := by
  rcases Relation.ReflTransGen.cases_tail reaches with same | ⟨_, _, connects⟩
  · exact same.symm
  · obtain ⟨conn, _, _, toTarget⟩ := connects
    exact absurd rfl (present_eq_some.mp toTarget).2

/-- The search ends, with exactly the nodes that have a non-empty path to the target. -/
structure AncestorsExact (snapshot : Snapshot) (targetNodeId : String) : Prop where
  terminates : ∃ rounds, Search.search snapshot.reverseAdj rounds [targetNodeId] [] =
    some (snapshot.getNodeAncestors targetNodeId)
  exact : ∀ nodeId, nodeId ∈ snapshot.getNodeAncestors targetNodeId ↔
    Relation.TransGen snapshot.Connects nodeId targetNodeId

/-- If a start node is the target or has a path to it, then exactly those start nodes are
returned, in node order. -/
def StartsExact (snapshot : Snapshot) (targetNodeId : String) : Prop :=
  (∃ nodeId, snapshot.IsStart nodeId ∧ snapshot.Reaches nodeId targetNodeId) →
    ∃ startNodes, snapshot.findStartNodesForTarget targetNodeId = .ok startNodes ∧
      startNodes.Sublist snapshot.nodesById.keys ∧
      ∀ nodeId, nodeId ∈ startNodes ↔
        snapshot.IsStart nodeId ∧ snapshot.Reaches nodeId targetNodeId

theorem ancestorsExact (snapshot : Snapshot) (targetNodeId : String) :
    snapshot.AncestorsExact targetNodeId := by
  refine ⟨?_, fun _ => mem_getNodeAncestors_iff⟩
  obtain ⟨result, finished⟩ := search_finishes snapshot targetNodeId
  refine ⟨snapshot.connections.length + 1, ?_⟩
  rw [getNodeAncestors, finished, Option.getD_some]

open Classical in
theorem startsExact {snapshot : Snapshot} {targetNodeId : String} (named : targetNodeId ≠ "") :
    snapshot.StartsExact targetNodeId := by
  rintro ⟨startNodeId, isStart, reaches⟩
  obtain ⟨startNodes, found, ordered, starts⟩ := findStartNodes_of_isStart isStart
  refine ⟨_, findStartNodesForTarget_of_reaches named found ((starts _).mpr isStart) reaches,
    List.filter_sublist.trans ordered, fun nodeId => ?_⟩
  rw [List.mem_filter, starts, decide_eq_true_eq]

/-- The search is exact for every target but an empty id that a node has. -/
theorem ancestor_search_exact (snapshot : Snapshot) (targetNodeId : String)
    (given : targetNodeId = "" → "" ∉ snapshot.nodesById.keys) :
    snapshot.AncestorsExact targetNodeId ∧ snapshot.StartsExact targetNodeId := by
  refine ⟨snapshot.ancestorsExact targetNodeId, ?_⟩
  by_cases named : targetNodeId = ""
  · subst named
    rintro ⟨nodeId, isStart, reaches⟩
    have listed := isStart.listed
    rw [eq_of_reaches_empty reaches] at listed
    exact absurd listed (given rfl)
  · exact startsExact named

/-- Two nodes on a cycle with a self-loop, below a start node. -/
def cyclicSnapshot : Snapshot where
  nodes := ["n_1", "n_2", "n_3"].map fun nodeId => ⟨nodeId, "noop", none, [], []⟩
  connections := [
    ⟨some "c_1", some "n_1", none, some "n_2", none⟩,
    ⟨some "c_2", some "n_2", none, some "n_3", none⟩,
    ⟨some "c_3", some "n_3", none, some "n_2", none⟩,
    ⟨some "c_4", some "n_3", none, some "n_3", none⟩]

theorem ancestor_search_exact_cyclic : cyclicSnapshot.AncestorsExact "n_3" ∧
    cyclicSnapshot.StartsExact "n_3" :=
  ancestor_search_exact cyclicSnapshot "n_3" (by decide)

/-- A node with an empty id beside another start node. -/
def unnamedSnapshot : Snapshot where
  nodes := ["", "n_1"].map fun nodeId => ⟨nodeId, "noop", none, [], []⟩
  connections := []

/-- For an empty target all start nodes are returned. -/
theorem empty_target_keeps_all : ¬ unnamedSnapshot.StartsExact "" := by
  intro startsExact
  obtain ⟨startNodes, found, _, member_iff⟩ := startsExact
    ⟨"", ⟨by decide, by decide, by decide⟩, .refl⟩
  have all : startNodes = ["", "n_1"] := by
    have computed : unnamedSnapshot.findStartNodesForTarget "" = .ok ["", "n_1"] := by decide
    exact Except.ok.inj (found.symm.trans computed)
  have reaches := ((member_iff "n_1").mp (by simp [all])).2
  exact absurd (eq_of_reaches_empty reaches) (by decide)

end WorkflowStudio.Executor.Snapshot
