import Mathlib.Data.List.Pairwise
import WorkflowStudio.Canvas.Graphlib

/-! The components are the connected ones: every node is in exactly one of them, with exactly
the nodes to which it is connected. -/

set_option autoImplicit false

namespace WorkflowStudio.Canvas.Graph

open Lib

/-- An edge between the nodes, in one direction or the other. -/
def Adjacent (graph : Graph) (first second : String) : Prop :=
  (first, second) ∈ graph.edges ∨ (second, first) ∈ graph.edges

/-- There is a path between the nodes, whatever the directions of its edges. -/
def Connected (graph : Graph) : String → String → Prop := Relation.ReflTransGen graph.Adjacent

theorem Connected.symm {graph : Graph} {first second : String}
    (connected : graph.Connected first second) : graph.Connected second first := by
  induction connected with
  | refl => exact .refl
  | tail _ adjacent ih => exact .head adjacent.symm ih

theorem step_neighborGraph (graph : Graph) :
    DepthFirst.Step graph.neighborGraph = graph.Adjacent := by
  funext first second
  apply propext
  rw [neighborGraph, DepthFirst.step_ofSuccessors, List.mem_append, mem_successors,
    mem_predecessors, Adjacent]

theorem Connected.path {graph : Graph} {first second : String}
    (connected : graph.Connected first second) :
    Relation.ReflTransGen (DepthFirst.Step graph.neighborGraph) first second := by
  rw [step_neighborGraph]
  exact connected

theorem neighbors_inside (graph : Graph) (nodeId : String) :
    ∀ edge ∈ graph.neighborGraph.edges nodeId,
      graph.neighborGraph.target edge ∈ graph.nodeIds.toFinset := by
  intro edge member
  rw [List.mem_toFinset, mem_nodeIds]
  simp only [neighborGraph, DepthFirst.Graph.ofSuccessors, List.mem_append, mem_successors,
    mem_predecessors] at member
  rcases member with outgoing | incoming
  · exact (graph.closed _ outgoing).2
  · exact (graph.closed _ incoming).1

theorem Connected.isNode {graph : Graph} {first second : String}
    (connected : graph.Connected first second) (isNode : first ∈ graph.nodes.keys) :
    second ∈ graph.nodes.keys := by
  rcases Relation.ReflTransGen.cases_tail connected with same | ⟨_, _, step⟩
  · rw [same]
    exact isNode
  · rcases step with outgoing | incoming
    · exact (graph.closed _ outgoing).2
    · exact (graph.closed _ incoming).1

/-- What the loop adds to the nodes that were visited before. -/
structure Partitions (graph : Graph) (nodeIds visited : List String)
    (comps : List (List String)) : Prop where
  nodup : comps.flatten.Nodup
  fresh : ∀ nodeId ∈ comps.flatten, nodeId ∉ visited ∧ nodeId ∈ graph.nodes.keys
  covers : ∀ nodeId ∈ nodeIds, nodeId ∈ visited ∨ nodeId ∈ comps.flatten
  connected : ∀ comp ∈ comps, ∀ first ∈ comp, ∀ second,
    second ∈ comp ↔ graph.Connected first second
  nonempty : ∀ comp ∈ comps, comp ≠ []

/-- The nodes that a visit adds are those connected to its start. -/
theorem visit_connected {graph : Graph} {state next : DepthFirst.State String String}
    {order fresh : List String} {nodeId first : String}
    (inv : DepthFirst.Inv graph.neighborGraph state order) (empty : state.inStack = [])
    (visited : DepthFirst.Visited graph.neighborGraph nodeId state order next fresh)
    (member : first ∈ fresh) (second : String) :
    second ∈ fresh ↔ graph.Connected first second := by
  have fromStart : ∀ other ∈ fresh, graph.Connected nodeId other := by
    intro other new
    rw [Connected, ← step_neighborGraph]
    exact Relation.ReflTransGen.mono (fun _ _ kept => kept.1) _ _ (visited.reached other new)
  constructor
  · intro new
    exact (fromStart first member).symm.trans (fromStart second new)
  · intro connected
    have finished := visited.inv.closed (visited.stack.trans empty)
      (List.mem_append_left order member) connected.path
    rcases List.mem_append.mp finished with new | old
    · exact new
    · have early := inv.closed empty old connected.symm.path
      exact absurd early (List.disjoint_of_nodup_append visited.inv.nodup member)

/-- A component with the node that is not among those visited before. -/
structure NextComponent (graph : Graph) (visited : List String) (nodeId : String)
    (comp : List String) : Prop where
  distinct : (visited ++ comp).Nodup
  start : nodeId ∈ comp
  nodes : ∀ other ∈ comp, other ∈ graph.nodes.keys
  connected : ∀ first ∈ comp, ∀ second, second ∈ comp ↔ graph.Connected first second

/-- The visit of a new node adds its component to the visited nodes. -/
theorem visit_component {graph : Graph} {state : DepthFirst.State String String}
    {order : List String} {nodeId : String}
    (inv : DepthFirst.Inv graph.neighborGraph state order) (empty : state.inStack = [])
    (isNode : nodeId ∈ graph.nodes.keys) (unseen : nodeId ∉ state.visited) :
    ∃ next fresh comp,
      DepthFirst.visit graph.neighborGraph graph.nodeIds.length nodeId state = some next ∧
      DepthFirst.Inv graph.neighborGraph next (fresh ++ order) ∧ next.inStack = [] ∧
      next.visited = state.visited ++ comp ∧
      NextComponent graph state.visited nodeId comp := by
  have enough : DepthFirst.pending graph.nodeIds.toFinset state ≤ graph.nodeIds.length :=
    (Finset.card_le_card Finset.sdiff_subset).trans (List.toFinset_card_le _)
  obtain ⟨next, fresh, ran, visited⟩ := DepthFirst.visit_spec (neighbors_inside graph) _ nodeId
    state order inv unseen (by simp [isNode]) (by simp [empty]) enough
  obtain ⟨comp, same⟩ := visited.front
  have nextEmpty := visited.stack.trans empty
  have distinct : (state.visited ++ comp).Nodup := same ▸ visited.inv.visitedNodup
  -- the new part of the visited nodes is what the visit finished
  have mem_comp : ∀ other, other ∈ comp ↔ other ∈ fresh := by
    intro other
    have before := inv.visited other
    have after := visited.inv.visited other
    rw [empty] at before
    rw [nextEmpty, ← same, List.mem_append, List.mem_append] at after
    have apart : other ∈ state.visited → other ∉ comp := fun old new =>
      List.disjoint_of_nodup_append distinct old new
    have freshApart : other ∈ fresh → other ∉ order := fun new old =>
      List.disjoint_of_nodup_append visited.inv.nodup new old
    simp only [List.not_mem_nil, or_false] at before after
    tauto
  have connected : ∀ first ∈ comp, ∀ second, second ∈ comp ↔ graph.Connected first second := by
    intro first member second
    rw [mem_comp]
    exact visit_connected inv empty visited ((mem_comp first).mp member) second
  have start : nodeId ∈ comp := (mem_comp nodeId).mpr visited.finished
  refine ⟨next, fresh, comp, ran, visited.inv, nextEmpty, same.symm, distinct, start, ?_,
    connected⟩
  intro other member
  exact ((connected nodeId start other).mp member).isNode isNode

theorem Partitions.skip {graph : Graph} {nodeId : String} {rest visited : List String}
    {comps : List (List String)} (partitions : Partitions graph rest visited comps)
    (seen : nodeId ∈ visited) : Partitions graph (nodeId :: rest) visited comps where
  nodup := partitions.nodup
  fresh := partitions.fresh
  covers := List.forall_mem_cons.mpr ⟨.inl seen, partitions.covers⟩
  connected := partitions.connected
  nonempty := partitions.nonempty

theorem Partitions.cons {graph : Graph} {nodeId : String} {rest visited comp : List String}
    {comps : List (List String)} (partitions : Partitions graph rest (visited ++ comp) comps)
    (component : NextComponent graph visited nodeId comp) :
    Partitions graph (nodeId :: rest) visited (comp :: comps) where
  nodup := by
    rw [List.flatten_cons]
    refine List.nodup_append.mpr
      ⟨(List.nodup_append.mp component.distinct).2.1, partitions.nodup, ?_⟩
    rintro other new _ another rfl
    exact (partitions.fresh other another).1 (List.mem_append_right _ new)
  fresh := by
    intro other member
    rw [List.flatten_cons, List.mem_append] at member
    rcases member with new | another
    · refine ⟨fun old => List.disjoint_of_nodup_append component.distinct old new, ?_⟩
      exact component.nodes other new
    · obtain ⟨unvisited, isNode⟩ := partitions.fresh other another
      exact ⟨fun old => unvisited (List.mem_append_left _ old), isNode⟩
  covers := by
    intro other member
    rw [List.flatten_cons, List.mem_append]
    rcases List.mem_cons.mp member with rfl | member
    · exact .inr (.inl component.start)
    · rcases partitions.covers other member with old | new
      · rw [List.mem_append] at old
        rcases old with old | new
        · exact .inl old
        · exact .inr (.inl new)
      · exact .inr (.inr new)
  connected := List.forall_mem_cons.mpr ⟨component.connected, partitions.connected⟩
  nonempty := List.forall_mem_cons.mpr
    ⟨List.ne_nil_of_mem component.start, partitions.nonempty⟩

theorem componentsFrom_partitions {graph : Graph} {nodeIds : List String}
    {state : DepthFirst.State String String} {order : List String}
    (inv : DepthFirst.Inv graph.neighborGraph state order) (empty : state.inStack = [])
    (given : ∀ nodeId ∈ nodeIds, nodeId ∈ graph.nodes.keys) :
    ∃ comps, graph.componentsFrom nodeIds state = some comps ∧
      Partitions graph nodeIds state.visited comps := by
  induction nodeIds generalizing state order with
  | nil =>
      refine ⟨[], rfl, List.nodup_nil, ?_, ?_, ?_, ?_⟩
      all_goals exact List.forall_mem_nil _
  | cons nodeId rest ih =>
      obtain ⟨isNode, later⟩ := List.forall_mem_cons.mp given
      rw [componentsFrom]
      by_cases seen : nodeId ∈ state.visited
      · rw [if_pos seen]
        obtain ⟨comps, ran, partitions⟩ := ih inv empty later
        exact ⟨comps, ran, partitions.skip seen⟩
      · rw [if_neg seen]
        obtain ⟨next, fresh, comp, ran, nextInv, nextEmpty, grown, component⟩ :=
          visit_component inv empty isNode seen
        obtain ⟨comps, restRan, partitions⟩ := ih nextInv nextEmpty later
        have added : next.visited.drop state.visited.length = comp := by
          rw [grown, List.drop_left]
        refine ⟨comp :: comps, ?_, (grown ▸ partitions).cons component⟩
        rw [ran, Option.bind_some, restRan, Option.map_some, added]

/-- Every node is in exactly one component, with the nodes to which it is connected. -/
structure ConnectedComponents (graph : Graph) (comps : List (List String)) : Prop where
  nodup : comps.flatten.Nodup
  members : ∀ nodeId, nodeId ∈ comps.flatten ↔ nodeId ∈ graph.nodes.keys
  connected : ∀ comp ∈ comps, ∀ first ∈ comp, ∀ second,
    second ∈ comp ↔ graph.Connected first second
  nonempty : ∀ comp ∈ comps, comp ≠ []

theorem components_connected (graph : Graph) : graph.ConnectedComponents graph.components := by
  obtain ⟨comps, ran, partitions⟩ := componentsFrom_partitions
    (DepthFirst.Inv.initial graph.neighborGraph) rfl (fun nodeId => mem_nodeIds.mp)
  have same : graph.components = comps := by rw [components, ran, Option.getD_some]
  rw [same]
  refine ⟨partitions.nodup, fun nodeId => ⟨fun member => (partitions.fresh nodeId member).2, ?_⟩,
    partitions.connected, partitions.nonempty⟩
  intro isNode
  exact (partitions.covers nodeId (mem_nodeIds.mpr isNode)).resolve_left List.not_mem_nil

/-- The ends of an edge are in the same component. -/
theorem ConnectedComponents.edge_iff {graph : Graph} {comps : List (List String)}
    (components : graph.ConnectedComponents comps) {comp : List String} (isComp : comp ∈ comps)
    {source target : String} (edge : (source, target) ∈ graph.edges) :
    source ∈ comp ↔ target ∈ comp := by
  constructor
  · intro member
    exact (components.connected comp isComp source member target).mpr (.single (.inl edge))
  · intro member
    exact (components.connected comp isComp target member source).mpr (.single (.inr edge))

/-- A node is in one component only. -/
theorem ConnectedComponents.unique {graph : Graph} {comps : List (List String)}
    (components : graph.ConnectedComponents comps) {first second : List String}
    (isFirst : first ∈ comps) (isSecond : second ∈ comps) {nodeId : String}
    (inFirst : nodeId ∈ first) (inSecond : nodeId ∈ second) : first = second := by
  have symmetric : Std.Symm fun left right : List String => left.Disjoint right :=
    ⟨fun _ _ disjoint => disjoint.symm⟩
  by_contra different
  have disjoint := (List.nodup_flatten.mp components.nodup).2.forall isFirst isSecond different
  exact disjoint inFirst inSecond

end WorkflowStudio.Canvas.Graph
