import WorkflowStudio.Lib.OrderedMap
import WorkflowStudio.Lib.TopologicalOrder

/-! The graph of the jobs that are delayed together: which of them depends on which, and
an order in which none comes before the ones that it depends on. -/

set_option autoImplicit false

namespace WorkflowStudio.Queue

open Lib

/-- The dictionary of the vertices, each with the set of its neighbours. The order in
which a set is iterated is arbitrary; here it is that in which it was filled. -/
structure Graph (Vertex : Type) [DecidableEq Vertex] where
  links : OrderedMap Vertex (List Vertex)
  sets : ∀ vertex neighbours, links.get? vertex = some neighbours → neighbours.Nodup
  closed : ∀ vertex neighbours, links.get? vertex = some neighbours →
    ∀ neighbour ∈ neighbours, (links.get? neighbour).isSome = true

namespace Graph

variable {Vertex : Type} [DecidableEq Vertex]

def empty : Graph Vertex where
  links := .empty
  sets := fun _ _ found => (Option.some_ne_none _ found.symm).elim
  closed := fun _ _ found => (Option.some_ne_none _ found.symm).elim

/-- `self._graph[vertex]`. -/
def neighbours (graph : Graph Vertex) (vertex : Vertex) : List Vertex :=
  (graph.links.get? vertex).getD []

def has (graph : Graph Vertex) (vertex : Vertex) : Bool :=
  (graph.links.get? vertex).isSome

theorem get?_of_has {graph : Graph Vertex} {vertex : Vertex} (present : graph.has vertex = true) :
    graph.links.get? vertex = some (graph.neighbours vertex) := by
  obtain ⟨others, found⟩ := Option.isSome_iff_exists.mp present
  rw [neighbours, found, Option.getD_some]

theorem nodup_neighbours (graph : Graph Vertex) (vertex : Vertex) :
    (graph.neighbours vertex).Nodup := by
  unfold neighbours
  cases found : graph.links.get? vertex with
  | none => exact List.nodup_nil
  | some neighbours => exact graph.sets vertex neighbours found

theorem has_neighbour {graph : Graph Vertex} {vertex neighbour : Vertex}
    (member : neighbour ∈ graph.neighbours vertex) : graph.has neighbour = true := by
  unfold neighbours at member
  cases found : graph.links.get? vertex with
  | none =>
      rw [found] at member
      exact absurd member List.not_mem_nil
  | some neighbours =>
      rw [found] at member
      exact graph.closed vertex neighbours found neighbour member

/-- `setdefault` of the vertex, with neighbours that are vertices. -/
def update (graph : Graph Vertex) (vertex : Vertex) (neighbours : List Vertex)
    (nodup : neighbours.Nodup) (within : ∀ neighbour ∈ neighbours, graph.has neighbour = true) :
    Graph Vertex where
  links := graph.links.set vertex neighbours
  sets other others found := by
    rw [OrderedMap.get?_set] at found
    split at found
    · cases found
      exact nodup
    · exact graph.sets other others found
  closed other others found neighbour member := by
    rw [OrderedMap.get?_set] at found ⊢
    split
    · rfl
    · split at found
      · cases found
        exact within neighbour member
      · exact graph.closed other others found neighbour member

def addVertex (graph : Graph Vertex) (vertex : Vertex) : Graph Vertex :=
  if graph.has vertex then graph
  else graph.update vertex [] List.nodup_nil fun _ absurdity => absurd absurdity List.not_mem_nil

theorem has_update {graph : Graph Vertex} {vertex other : Vertex} {neighbours : List Vertex}
    {nodup : neighbours.Nodup} {within : ∀ neighbour ∈ neighbours, graph.has neighbour = true} :
    (graph.update vertex neighbours nodup within).has other = true ↔
      other = vertex ∨ graph.has other = true := by
  change ((graph.links.set vertex neighbours).get? other).isSome = true ↔ _
  rw [OrderedMap.get?_set]
  split
  · rename_i same
    exact iff_of_true rfl (.inl same)
  · rename_i different
    exact (or_iff_right different).symm

theorem has_addVertex {graph : Graph Vertex} {vertex other : Vertex} :
    (graph.addVertex vertex).has other = true ↔ other = vertex ∨ graph.has other = true := by
  unfold addVertex
  split
  · rename_i present
    exact ⟨.inr, fun either => either.elim (fun same => same ▸ present) id⟩
  · exact has_update

theorem nodup_concat {graph : Graph Vertex} {parent child : Vertex}
    (fresh : child ∉ graph.neighbours parent) : (graph.neighbours parent ++ [child]).Nodup :=
  List.nodup_append.mpr ⟨graph.nodup_neighbours parent, List.nodup_singleton child,
    fun _ old _ new same => fresh (List.mem_singleton.mp new ▸ same ▸ old)⟩

theorem has_concat {graph : Graph Vertex} {parent child : Vertex}
    (present : graph.has child = true) :
    ∀ neighbour ∈ graph.neighbours parent ++ [child], graph.has neighbour = true := by
  intro neighbour member
  rcases List.mem_append.mp member with old | new
  · exact has_neighbour old
  · exact List.mem_singleton.mp new ▸ present

def addEdge (graph : Graph Vertex) (parent child : Vertex) : Graph Vertex :=
  let added := graph.addVertex child
  if fresh : child ∉ added.neighbours parent then
    added.update parent (added.neighbours parent ++ [child]) (nodup_concat fresh)
      (has_concat (has_addVertex.mpr (.inl rfl)))
  else added

def vertices (graph : Graph Vertex) : List Vertex :=
  graph.links.keys

def edges (graph : Graph Vertex) : List (Vertex × Vertex) :=
  graph.links.entries.flatMap fun entry => entry.2.map fun neighbour => (entry.1, neighbour)

def rootVertices (graph : Graph Vertex) : List Vertex :=
  graph.vertices.filter fun vertex => decide (vertex ∉ graph.links.values.flatten)

/-- `depends_per_node`. -/
def dependsPerNode (graph : Graph Vertex) : Vertex → Int :=
  graph.edges.foldl (fun depends edge =>
    Function.update depends edge.2 (depends edge.2 + 1)) fun _ => 0

/-- Each round of the loop takes a vertex, so there are not more rounds than vertices. -/
def topologicalSort (graph : Graph Vertex) : Option (List Vertex) :=
  Topological.drain graph.neighbours graph.vertices.length graph.dependsPerNode
    graph.rootVertices

/-!
## What the operations do to the edges
-/

variable {graph : Graph Vertex} {parent child vertex other : Vertex}

theorem has_of_neighbour (member : child ∈ graph.neighbours parent) :
    graph.has parent = true := by
  unfold neighbours at member
  unfold has
  cases found : graph.links.get? parent with
  | none =>
      rw [found] at member
      exact absurd member List.not_mem_nil
  | some _ => rfl

theorem mem_vertices : vertex ∈ graph.vertices ↔ graph.has vertex = true := by
  rw [vertices, OrderedMap.mem_keys_iff, has, Option.isSome_iff_exists]

theorem mem_edges : (parent, child) ∈ graph.edges ↔ child ∈ graph.neighbours parent := by
  unfold edges
  rw [List.mem_flatMap]
  constructor
  · rintro ⟨entry, present, member⟩
    obtain ⟨neighbour, among, same⟩ := List.mem_map.mp member
    cases same
    rw [neighbours, OrderedMap.get?_eq_some_iff.mpr present]
    exact among
  · intro member
    have found := get?_of_has (has_of_neighbour member)
    exact ⟨(parent, graph.neighbours parent), OrderedMap.get?_eq_some_iff.mp found,
      List.mem_map.mpr ⟨child, member, rfl⟩⟩

theorem nodup_edges (graph : Graph Vertex) : graph.edges.Nodup := by
  refine List.nodup_flatMap.mpr ⟨fun entry present => ?_, ?_⟩
  · have sets := graph.sets entry.1 entry.2 (OrderedMap.get?_eq_some_iff.mpr present)
    exact sets.map fun _ _ same => (Prod.mk.inj same).2
  · refine (List.pairwise_map.mp graph.links.distinct).imp fun {first second} different => ?_
    intro edge member also
    obtain ⟨_, _, rfl⟩ := List.mem_map.mp member
    obtain ⟨_, _, same⟩ := List.mem_map.mp also
    exact different (Prod.mk.inj same).1.symm

/-!
## The topological order
-/

def vertexSet (graph : Graph Vertex) : Finset Vertex :=
  graph.vertices.toFinset

theorem mem_vertexSet : vertex ∈ graph.vertexSet ↔ vertex ∈ graph.vertices :=
  List.mem_toFinset

theorem mem_parents : parent ∈ Topological.missing graph.vertexSet graph.neighbours [] vertex ↔
    vertex ∈ graph.neighbours parent := by
  rw [Topological.mem_missing, mem_vertexSet, mem_vertices]
  exact ⟨fun among => among.2.1, fun edge => ⟨has_of_neighbour edge, edge, List.not_mem_nil⟩⟩

theorem foldl_update_count (edges : List (Vertex × Vertex)) (depends : Vertex → Int) :
    edges.foldl (fun depends edge => Function.update depends edge.2 (depends edge.2 + 1))
      depends vertex = depends vertex + (edges.map Prod.snd).count vertex := by
  induction edges generalizing depends with
  | nil => simp
  | cons edge rest ih =>
      rw [List.foldl_cons, ih, List.map_cons, List.count_cons]
      by_cases same : vertex = edge.2
      · subst same
        simp only [Function.update_self, BEq.rfl, if_true]
        push_cast
        omega
      · have different : ¬ (edge.2 == vertex) = true := fun found => same (beq_iff_eq.mp found).symm
        rw [Function.update_of_ne same, if_neg different, Nat.add_zero]

/-- There is one edge from each parent. -/
theorem dependsPerNode_eq (graph : Graph Vertex) (vertex : Vertex) :
    graph.dependsPerNode vertex =
      (Topological.missing graph.vertexSet graph.neighbours [] vertex).card := by
  have parents : ((graph.edges.filter fun edge => decide (edge.2 = vertex)).map
      Prod.fst).Nodup := by
    refine List.Nodup.map_on (fun first member second also same => ?_) (graph.nodup_edges.filter _)
    have one : first.2 = vertex := of_decide_eq_true (List.mem_filter.mp member).2
    have other : second.2 = vertex := of_decide_eq_true (List.mem_filter.mp also).2
    exact Prod.ext same (one.trans other.symm)
  have all : ((graph.edges.filter fun edge => decide (edge.2 = vertex)).map Prod.fst).toFinset =
      Topological.missing graph.vertexSet graph.neighbours [] vertex := by
    ext parent
    rw [mem_parents, List.mem_toFinset, List.mem_map, ← mem_edges]
    constructor
    · rintro ⟨⟨_, child⟩, member, rfl⟩
      obtain ⟨edge, same⟩ := List.mem_filter.mp member
      exact of_decide_eq_true same ▸ edge
    · exact fun edge => ⟨(parent, vertex), List.mem_filter.mpr ⟨edge, decide_eq_true rfl⟩, rfl⟩
  have counted : (graph.edges.map Prod.snd).count vertex =
      (graph.edges.filter fun edge => decide (edge.2 = vertex)).length := by
    rw [List.count, List.countP_map, List.countP_eq_length_filter]
    rfl
  rw [dependsPerNode, foldl_update_count, counted, ← all, List.toFinset_card_of_nodup parents,
    List.length_map, Int.zero_add]

theorem mem_rootVertices : vertex ∈ graph.rootVertices ↔ vertex ∈ graph.vertexSet ∧
    Topological.missing graph.vertexSet graph.neighbours [] vertex = ∅ := by
  rw [rootVertices, List.mem_filter, decide_eq_true_eq, mem_vertexSet,
    Finset.eq_empty_iff_forall_notMem]
  refine and_congr_right fun _ => ⟨fun absent parent member => absent ?_, fun none member => ?_⟩
  · have edge := mem_parents.mp member
    have found := OrderedMap.get?_eq_some_iff.mp (get?_of_has (has_of_neighbour edge))
    exact List.mem_flatten.mpr ⟨_, List.mem_map.mpr ⟨_, found, rfl⟩, edge⟩
  · obtain ⟨_, value, edge⟩ := List.mem_flatten.mp member
    obtain ⟨entry, present, rfl⟩ := List.mem_map.mp value
    refine none entry.1 (mem_parents.mpr ?_)
    rwa [neighbours, OrderedMap.get?_eq_some_iff.mpr present]

theorem edge_iff : Topological.Edge graph.vertexSet graph.neighbours parent child ↔
    child ∈ graph.neighbours parent := by
  unfold Topological.Edge
  rw [mem_vertexSet, mem_vertices]
  exact and_iff_right_of_imp has_of_neighbour

/-- What `topological_sort` yields are the vertices that do not depend on a cycle, each
once, and none before one that it depends on. In a graph without cycles these are all. -/
theorem topologicalSort_sorted (graph : Graph Vertex) :
    ∃ order, graph.topologicalSort = some order ∧ order.Nodup ∧
      (∀ vertex, vertex ∈ order ↔ vertex ∈ graph.vertices ∧
        Acc (fun parent child => child ∈ graph.neighbours parent) vertex) ∧
      (order.Pairwise fun first second => first ∉ graph.neighbours second) ∧
      ((∀ vertex, ¬ Relation.TransGen (fun parent child => child ∈ graph.neighbours parent)
        vertex vertex) → ∀ vertex ∈ graph.vertices, vertex ∈ order) := by
  have started := @Topological.counted_start _ _ graph.vertexSet graph.neighbours
    graph.rootVertices graph.dependsPerNode (graph.links.keys_nodup.filter _)
    (fun vertex _ => graph.dependsPerNode_eq vertex) fun vertex => mem_rootVertices
  have enough : graph.vertexSet.card ≤ ([] : List Vertex).length + graph.vertices.length := by
    rw [List.length_nil, Nat.zero_add]
    exact List.toFinset_card_le graph.vertices
  obtain ⟨order, drained, sorted⟩ := started.drain
    (fun vertex _ => graph.nodup_neighbours vertex)
    (fun _ _ _ edge => mem_vertexSet.mpr (mem_vertices.mpr (has_neighbour edge))) enough
  have same : Topological.Edge graph.vertexSet graph.neighbours =
      fun parent child => child ∈ graph.neighbours parent :=
    funext fun _ => funext fun _ => propext edge_iff
  refine ⟨order, drained, sorted.nodup, fun vertex => ?_, sorted.ordered,
    fun acyclic vertex isVertex => ?_⟩
  · rw [← mem_vertexSet, ← same]
    exact sorted.mem_iff vertex
  · rw [← same] at acyclic
    exact sorted.mem_of_acyclic acyclic (mem_vertexSet.mpr isVertex)

end Graph

end WorkflowStudio.Queue
