import WorkflowStudio.Canvas.StructuralGraph

/-! The structural connections form a graph without cycles. Only connections on a cycle are
missing, and what the roots reach they still reach. The predecessors of a node are exactly
the nodes with a path to it. -/

set_option autoImplicit false

namespace WorkflowStudio.Canvas

open Lib

/-!
## Connections and their keys
-/

/-- Every connection has a key of its own; the key of a connection is its id. -/
def DistinctIds (connections : List Connection) : Prop :=
  (connections.map getConnectionKey).Nodup

/-- One of the connections, with both ends, leads from the source to the target. -/
def Linked (connections : List Connection) (source target : String) : Prop :=
  ∃ connection ∈ normalizeConnections connections,
    connection.source = source ∧ connection.target = target

theorem mem_normalizeConnections {connections : List Connection} {connection : Connection} :
    connection ∈ normalizeConnections connections ↔
      connection ∈ connections ∧ connection.source ≠ "" ∧ connection.target ≠ "" := by
  simp [normalizeConnections]

theorem normalizeConnections_idem (connections : List Connection) :
    normalizeConnections (normalizeConnections connections) = normalizeConnections connections := by
  rw [normalizeConnections, List.filter_eq_self]
  intro connection member
  exact (List.mem_filter.mp member).2

theorem mem_forwardAdjacency {connections : List Connection} {nodeId : String}
    {connection : Connection} :
    connection ∈ forwardAdjacency connections nodeId ↔
      connection ∈ normalizeConnections connections ∧ connection.source = nodeId := by
  rw [forwardAdjacency, List.mem_filter, decide_eq_true_eq]

theorem mem_reverseAdjacency {connections : List Connection} {source target : String} :
    source ∈ reverseAdjacency connections target ↔ Linked connections source target := by
  rw [reverseAdjacency, List.mem_map]
  constructor
  · rintro ⟨connection, member, rfl⟩
    rw [List.mem_filter, decide_eq_true_eq] at member
    exact ⟨connection, member.1, rfl, member.2⟩
  · rintro ⟨connection, member, rfl, toTarget⟩
    exact ⟨connection, List.mem_filter.mpr ⟨member, decide_eq_true toTarget⟩, rfl⟩

theorem mem_connectedIds {normalized : List Connection} {nodeId : String} :
    nodeId ∈ connectedIds normalized ↔
      ∃ connection ∈ normalized, nodeId = connection.source ∨ nodeId = connection.target := by
  rw [connectedIds, List.mem_eraseDups, List.mem_flatMap]
  simp only [List.mem_cons, List.not_mem_nil, or_false]

theorem mem_rootNodeIds {normalized : List Connection} {nodeId : String} :
    nodeId ∈ rootNodeIds normalized ↔ nodeId ∈ connectedIds normalized ∧
      ∀ connection ∈ normalized, connection.target ≠ nodeId := by
  rw [rootNodeIds, List.mem_filter, decide_eq_true_eq, inDegree, List.countP_eq_zero]
  simp only [decide_eq_true_eq, ne_eq]

theorem step_iff_linked (connections : List Connection) :
    DepthFirst.Step (connectionGraph connections) = Linked connections := by
  funext source target
  apply propext
  constructor
  · rintro ⟨connection, member, toTarget⟩
    obtain ⟨listed, fromSource⟩ := mem_forwardAdjacency.mp member
    exact ⟨connection, listed, fromSource, toTarget⟩
  · rintro ⟨connection, listed, fromSource, toTarget⟩
    exact ⟨connection, mem_forwardAdjacency.mpr ⟨listed, fromSource⟩, toTarget⟩

/-!
## The search for back edges
-/

/-- The search ends, and its back edges are what a search of the connections records. -/
theorem backEdgeSearch_searched (connections : List Connection) :
    ∃ state, backEdgeSearch (normalizeConnections connections) = some state ∧
      DepthFirst.Searched (connectionGraph (normalizeConnections connections))
        (rootNodeIds (normalizeConnections connections))
        (connectedIds (normalizeConnections connections)) state.back := by
  apply DepthFirst.search_searched _ (connectedIds (normalizeConnections connections)).toFinset
  · intro nodeId connection member
    have listed := (mem_forwardAdjacency.mp member).1
    rw [normalizeConnections_idem] at listed
    exact List.mem_toFinset.mpr (mem_connectedIds.mpr ⟨connection, listed, .inr rfl⟩)
  · intro nodeId member
    exact List.mem_toFinset.mpr (mem_rootNodeIds.mp member).1
  · exact fun nodeId member => List.mem_toFinset.mpr member
  · exact List.toFinset_card_le _

theorem mem_getStructuralConnections {connections : List Connection} {connection : Connection}
    {state : DepthFirst.State String Connection} (distinct : DistinctIds connections)
    (found : backEdgeSearch (normalizeConnections connections) = some state)
    (sound : ∀ nodeId edge, (nodeId, edge) ∈ state.back →
      edge ∈ forwardAdjacency (normalizeConnections connections) nodeId) :
    connection ∈ getStructuralConnections connections ↔
      connection ∈ normalizeConnections connections ∧ connection.source ≠ connection.target ∧
        (connection.source, connection) ∉ state.back := by
  rw [getStructuralConnections, List.mem_filter]
  refine and_congr_right fun listed => ?_
  have keys : getConnectionKey connection ∈ getBackEdgeKeySet (normalizeConnections connections) ↔
      (connection.source, connection) ∈ state.back := by
    rw [getBackEdgeKeySet, normalizeConnections_idem, found, List.mem_map]
    constructor
    · rintro ⟨⟨nodeId, edge⟩, recorded, sameKey⟩
      obtain ⟨edgeListed, rfl⟩ := mem_forwardAdjacency.mp (sound nodeId edge recorded)
      rw [normalizeConnections_idem] at edgeListed
      have same := List.inj_on_of_nodup_map distinct (mem_normalizeConnections.mp edgeListed).1
        (mem_normalizeConnections.mp listed).1 sameKey
      rwa [same] at recorded
    · intro recorded
      exact ⟨_, recorded, rfl⟩
  rw [Bool.and_eq_true, Bool.not_eq_true', Bool.not_eq_true', decide_eq_false_iff_not, keys,
    sourceIdEqualsTarget, beq_eq_false_iff_ne]

/-!
## The structural connections
-/

/-- What the structural connections keep of the given ones. -/
structure StructurallySound (connections : List Connection) : Prop where
  sublist : (getStructuralConnections connections).Sublist connections
  acyclic : ∀ nodeId,
    ¬ Relation.TransGen (Linked (getStructuralConnections connections)) nodeId nodeId
  dropped : ∀ connection ∈ normalizeConnections connections,
    connection ∉ getStructuralConnections connections →
      Relation.ReflTransGen (Linked connections) connection.target connection.source
  whole : (∀ nodeId, ¬ Relation.TransGen (Linked connections) nodeId nodeId) →
    getStructuralConnections connections = normalizeConnections connections
  reached : ∀ root nodeId, (∀ source, ¬ Linked connections source root) →
    Relation.ReflTransGen (Linked connections) root nodeId →
      ∃ other, (∀ source, ¬ Linked connections source other) ∧
        Relation.ReflTransGen (Linked (getStructuralConnections connections)) other nodeId

theorem mem_structural_normalized {connections : List Connection} {connection : Connection}
    (member : connection ∈ getStructuralConnections connections) :
    connection ∈ normalizeConnections connections := (List.mem_filter.mp member).1

theorem normalize_structural (connections : List Connection) :
    normalizeConnections (getStructuralConnections connections) =
      getStructuralConnections connections := by
  rw [normalizeConnections, List.filter_eq_self]
  intro connection member
  exact (List.mem_filter.mp (mem_structural_normalized member)).2

/-- A search of the connections, with what the structural connections are by its back edges. -/
structure BackEdgesFound (connections : List Connection) (back : List (String × Connection)) :
    Prop where
  searched : DepthFirst.Searched (connectionGraph (normalizeConnections connections))
    (rootNodeIds (normalizeConnections connections))
    (connectedIds (normalizeConnections connections)) back
  member_iff : ∀ connection, connection ∈ getStructuralConnections connections ↔
    connection ∈ normalizeConnections connections ∧ connection.source ≠ connection.target ∧
      (connection.source, connection) ∉ back

theorem backEdges_found {connections : List Connection} (distinct : DistinctIds connections) :
    ∃ back, BackEdgesFound connections back := by
  obtain ⟨state, found, searched⟩ := backEdgeSearch_searched connections
  refine ⟨state.back, searched, fun connection => ?_⟩
  exact mem_getStructuralConnections distinct found fun nodeId edge recorded =>
    (searched.sound nodeId edge recorded).1

theorem step_normalized (connections : List Connection) :
    DepthFirst.Step (connectionGraph (normalizeConnections connections)) =
      Linked connections := by
  rw [step_iff_linked]
  funext source target
  rw [Linked, Linked, normalizeConnections_idem]

section BackEdges

variable {connections : List Connection} {back : List (String × Connection)}

theorem BackEdgesFound.left_acyclic (found : BackEdgesFound connections back) (nodeId : String) :
    ¬ Relation.TransGen
      (DepthFirst.Left (connectionGraph (normalizeConnections connections)) back) nodeId nodeId := by
  apply found.searched.acyclic
  intro vertex edge member
  obtain ⟨listed, rfl⟩ := mem_forwardAdjacency.mp member
  rw [normalizeConnections_idem] at listed
  exact mem_connectedIds.mpr ⟨edge, listed, .inl rfl⟩

/-- What the search leaves is what the structural connections link. -/
theorem BackEdgesFound.left (found : BackEdgesFound connections back) :
    DepthFirst.Left (connectionGraph (normalizeConnections connections)) back =
      Linked (getStructuralConnections connections) := by
  funext source target
  apply propext
  constructor
  · rintro ⟨edge, member, rfl, unrecorded⟩
    obtain ⟨listed, rfl⟩ := mem_forwardAdjacency.mp member
    have noLoop : edge.source ≠ edge.target := fun same => found.left_acyclic edge.source
      (.single ⟨edge, member, same.symm, unrecorded⟩)
    rw [normalizeConnections_idem] at listed
    refine ⟨edge, ?_, rfl, rfl⟩
    rw [normalize_structural]
    exact (found.member_iff edge).mpr ⟨listed, noLoop, unrecorded⟩
  · rintro ⟨edge, member, rfl, rfl⟩
    rw [normalize_structural] at member
    obtain ⟨listed, _, unrecorded⟩ := (found.member_iff edge).mp member
    rw [← normalizeConnections_idem] at listed
    exact ⟨edge, mem_forwardAdjacency.mpr ⟨listed, rfl⟩, rfl, unrecorded⟩

theorem BackEdgesFound.acyclic (found : BackEdgesFound connections back) (nodeId : String) :
    ¬ Relation.TransGen (Linked (getStructuralConnections connections)) nodeId nodeId :=
  found.left ▸ found.left_acyclic nodeId

theorem BackEdgesFound.dropped (found : BackEdgesFound connections back) {connection : Connection}
    (listed : connection ∈ normalizeConnections connections)
    (missing : connection ∉ getStructuralConnections connections) :
    Relation.ReflTransGen (Linked connections) connection.target connection.source := by
  by_cases same : connection.source = connection.target
  · rw [same]
  · have recorded : (connection.source, connection) ∈ back := by
      by_contra unrecorded
      exact missing ((found.member_iff connection).mpr ⟨listed, same, unrecorded⟩)
    rw [← step_normalized]
    exact (found.searched.sound _ _ recorded).2

theorem BackEdgesFound.whole (found : BackEdgesFound connections back)
    (straight : ∀ nodeId, ¬ Relation.TransGen (Linked connections) nodeId nodeId) :
    getStructuralConnections connections = normalizeConnections connections := by
  rw [getStructuralConnections, List.filter_eq_self]
  intro connection listed
  by_contra excluded
  have missing : connection ∉ getStructuralConnections connections := fun member =>
    excluded (List.mem_filter.mp member).2
  exact straight connection.source
    (.head' ⟨connection, listed, rfl, rfl⟩ (found.dropped listed missing))

theorem BackEdgesFound.reached (found : BackEdgesFound connections back) {root nodeId : String}
    (isRoot : ∀ source, ¬ Linked connections source root)
    (path : Relation.ReflTransGen (Linked connections) root nodeId) :
    ∃ other, (∀ source, ¬ Linked connections source other) ∧
      Relation.ReflTransGen (Linked (getStructuralConnections connections)) other nodeId := by
  rcases Relation.ReflTransGen.cases_head path with rfl | ⟨next, link, _⟩
  · exact ⟨root, isRoot, .refl⟩
  · obtain ⟨connection, listed, rfl, _⟩ := link
    have starts : connection.source ∈ rootNodeIds (normalizeConnections connections) := by
      refine mem_rootNodeIds.mpr ⟨mem_connectedIds.mpr ⟨connection, listed, .inl rfl⟩, ?_⟩
      exact fun other member toRoot => isRoot other.source ⟨other, member, rfl, toRoot⟩
    obtain ⟨other, isStart, kept⟩ := found.searched.reached _ starts nodeId
      (by rwa [step_normalized])
    refine ⟨other, ?_, found.left ▸ kept⟩
    rintro source ⟨edge, member, _, toOther⟩
    exact (mem_rootNodeIds.mp isStart).2 edge member toOther

end BackEdges

theorem structurallySound {connections : List Connection} (distinct : DistinctIds connections) :
    StructurallySound connections := by
  obtain ⟨back, found⟩ := backEdges_found distinct
  exact {
    sublist := List.filter_sublist.trans List.filter_sublist
    acyclic := found.acyclic
    dropped := fun _ => found.dropped
    whole := found.whole
    reached := fun _ _ => found.reached }

/-!
## The nodes before a node
-/

/-- Without duplicates and the node itself, exactly the nodes with a path to it. -/
structure PredecessorsExact (connections : List Connection) (nodeId : String) : Prop where
  nodup : (getStructuralPredecessorIds connections nodeId).Nodup
  apart : nodeId ∉ getStructuralPredecessorIds connections nodeId
  exact : ∀ other, other ∈ getStructuralPredecessorIds connections nodeId ↔
    Relation.TransGen (Linked (getStructuralConnections connections)) other nodeId

theorem predecessorSearch_finishes (connections : List Connection) (nodeId : String) :
    ∃ visited, Search.search (reverseAdjacency connections) (connections.length + 1)
      [nodeId] [nodeId] = some visited := by
  apply Search.search_total _ (connections.map Connection.source).toFinset
  · intro target source edge
    obtain ⟨connection, listed, rfl, _⟩ := mem_reverseAdjacency.mp edge
    exact List.mem_toFinset.mpr (List.mem_map_of_mem (mem_normalizeConnections.mp listed).1)
  · have sources := List.toFinset_card_le (connections.map Connection.source)
    have fewer := Finset.card_le_card (Finset.sdiff_subset
      (s := (connections.map Connection.source).toFinset) (t := [nodeId].toFinset))
    rw [List.length_map] at sources
    rw [List.length_singleton]
    omega

theorem predecessorsExact {connections : List Connection}
    (sound : StructurallySound connections) (nodeId : String) :
    PredecessorsExact connections nodeId := by
  obtain ⟨visited, finished⟩ :=
    predecessorSearch_finishes (getStructuralConnections connections) nodeId
  by_cases named : nodeId = ""
  · have none : getStructuralPredecessorIds connections nodeId = [] := by
      rw [getStructuralPredecessorIds, if_pos named]
    refine ⟨by simp [none], by simp [none], fun other => ?_⟩
    simp only [none, List.not_mem_nil, false_iff]
    intro path
    obtain ⟨_, _, connection, listed, _, toEmpty⟩ := Relation.TransGen.tail'_iff.mp path
    exact (mem_normalizeConnections.mp listed).2.2 (toEmpty.trans named)
  · have found : getStructuralPredecessorIds connections nodeId = visited.tail := by
      simp only [getStructuralPredecessorIds, if_neg named, finished]
    obtain ⟨⟨others, rfl⟩, distinct⟩ := Search.search_extends finished
    have nodup := List.nodup_cons.mp (distinct (List.nodup_singleton nodeId))
    rw [List.singleton_append, List.tail_cons] at found
    refine ⟨found ▸ nodup.2, found ▸ nodup.1, fun other => ?_⟩
    have linked : (Function.swap fun target source => source ∈
        reverseAdjacency (getStructuralConnections connections) target) =
        Linked (getStructuralConnections connections) := by
      funext source target
      exact propext mem_reverseAdjacency
    have reached := Search.mem_search_marked_iff finished other
    rw [← Relation.reflTransGen_swap, linked, List.singleton_append, List.mem_cons,
      Relation.reflTransGen_iff_eq_or_transGen] at reached
    rw [found]
    constructor
    · intro member
      rcases reached.mp (.inr member) with rfl | path
      · exact absurd member nodup.1
      · exact path
    · intro path
      rcases reached.mpr (.inr path) with rfl | member
      · exact absurd path (sound.acyclic other)
      · exact member

/-- The structural connections keep what matters, and the predecessors are those along them. -/
theorem structural_graph_sound (connections : List Connection)
    (distinct : DistinctIds connections) :
    StructurallySound connections ∧ ∀ nodeId, PredecessorsExact connections nodeId :=
  ⟨structurallySound distinct, predecessorsExact (structurallySound distinct)⟩

/-- A connection with the given id and ends. -/
def connectionBetween (id source target : String) : Connection :=
  ⟨id, source, "result", "", target, "data", ""⟩

/-- A loop below a root. -/
def loopConnections : List Connection := [
  connectionBetween "c_1" "n_1" "n_2", connectionBetween "c_2" "n_2" "n_3",
  connectionBetween "c_3" "n_3" "n_2"]

theorem structural_graph_sound_loop : StructurallySound loopConnections ∧
    ∀ nodeId, PredecessorsExact loopConnections nodeId :=
  structural_graph_sound loopConnections (by unfold DistinctIds; decide)

example : getStructuralConnections loopConnections = loopConnections.take 2 := by decide

/-- A connection without a target is on no cycle, and still it is dropped. -/
theorem incomplete_connection_is_dropped :
    DistinctIds [connectionBetween "c_1" "n_1" ""] ∧
    (∀ nodeId, ¬ Relation.TransGen (fun source target => ∃ connection ∈
      [connectionBetween "c_1" "n_1" ""], connection.source = source ∧ connection.target = target)
      nodeId nodeId) ∧
    getStructuralConnections [connectionBetween "c_1" "n_1" ""] = [] := by
  refine ⟨by unfold DistinctIds; decide, fun nodeId cycle => ?_, by decide⟩
  obtain ⟨_, ⟨first, isFirst, fromNode, _⟩, _⟩ := Relation.TransGen.head'_iff.mp cycle
  obtain ⟨_, _, last, isLast, _, toNode⟩ := Relation.TransGen.tail'_iff.mp cycle
  cases List.mem_singleton.mp isFirst
  cases List.mem_singleton.mp isLast
  exact absurd (fromNode.trans toNode.symm) (by decide)

end WorkflowStudio.Canvas
