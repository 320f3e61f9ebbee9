import WorkflowStudio.Canvas.ComponentProperties
import WorkflowStudio.Canvas.Layout

/-! The layout library is only given graphs without cycles. An edge is taken out exactly when
there is a cycle, and after the layout every edge is back. -/

set_option autoImplicit false

namespace WorkflowStudio.Canvas

open Lib

namespace Graph

def Edge (graph : Graph) (source target : String) : Prop := (source, target) ∈ graph.edges

/-- There is no cycle in the graph. -/
def Acyclic (graph : Graph) : Prop := ∀ nodeId, ¬ Relation.TransGen graph.Edge nodeId nodeId

theorem Acyclic.mono {graph other : Graph} (acyclic : other.Acyclic)
    (fewer : ∀ edge ∈ graph.edges, edge ∈ other.edges) : graph.Acyclic := fun nodeId cycle =>
  acyclic nodeId (Relation.TransGen.mono (fun _ _ edge => fewer _ edge) _ _ cycle)

end Graph

/-!
## Back edges
-/

/-- Back edges of a graph: without them it has no cycle, and there are none if it has none. -/
structure BackEdges (graph : Graph) (back : List (String × String)) : Prop where
  listed : ∀ edge ∈ back, edge ∈ graph.edges
  acyclic : (graph.removeEdges back).Acyclic
  none_iff : back = [] ↔ graph.Acyclic

theorem step_successorGraph (graph : Graph) :
    DepthFirst.Step (successorGraph graph) = graph.Edge := by
  funext source target
  apply propext
  exact DepthFirst.step_ofSuccessors.trans Graph.mem_successors

theorem visitNodes_backEdges {graph : Graph} {starts : List String}
    (given : ∀ nodeId ∈ starts, nodeId ∈ graph.nodeIds) :
    ∃ state, visitNodes graph starts = some state ∧ BackEdges graph state.back := by
  have inside : ∀ nodeId, ∀ edge ∈ (successorGraph graph).edges nodeId,
      (successorGraph graph).target edge ∈ graph.nodeIds.toFinset := by
    intro nodeId edge member
    rw [List.mem_toFinset, Graph.mem_nodeIds]
    exact (graph.closed _ (Graph.mem_successors.mp member)).2
  obtain ⟨state, ran, searched⟩ := DepthFirst.search_searched (successorGraph graph)
    graph.nodeIds.toFinset inside (fun nodeId member => List.mem_toFinset.mpr (given nodeId member))
    (fun _ member => List.mem_toFinset.mpr member) (List.toFinset_card_le _)
  have covers : ∀ nodeId, ∀ edge ∈ (successorGraph graph).edges nodeId,
      nodeId ∈ graph.nodeIds := by
    intro nodeId edge member
    rw [Graph.mem_nodeIds]
    exact (graph.closed _ (Graph.mem_successors.mp member)).1
  refine ⟨state, ran, ?_, ?_, ?_⟩
  · rintro ⟨source, target⟩ recorded
    exact Graph.mem_successors.mp (searched.sound source target recorded).1
  · intro nodeId cycle
    refine searched.acyclic covers nodeId (Relation.TransGen.mono ?_ _ _ cycle)
    intro source target edge
    obtain ⟨listed, unrecorded⟩ := Graph.mem_edges_removeEdges.mp edge
    exact ⟨target, Graph.mem_successors.mpr listed, rfl, unrecorded⟩
  · rw [searched.back_eq_nil_iff covers, step_successorGraph]
    rfl

theorem detectCycles_backEdges (graph : Graph) : BackEdges graph (detectCycles graph) := by
  have roots : ∀ nodeId ∈ rootIds graph, nodeId ∈ graph.nodeIds := fun nodeId member =>
    (List.mem_filter.mp member).1
  obtain ⟨state, ran, back⟩ := visitNodes_backEdges roots
  rw [detectCycles, ran, Option.map_some, Option.getD_some]
  exact back

theorem detectCyclesInGraph_backEdges (graph : Graph) :
    BackEdges graph (detectCyclesInGraph graph) := by
  have none : ∀ nodeId ∈ ([] : List String), nodeId ∈ graph.nodeIds := fun _ member =>
    nomatch member
  obtain ⟨state, ran, back⟩ := visitNodes_backEdges none
  rw [detectCyclesInGraph, ran, Option.map_some, Option.getD_some]
  exact back

/-- The configuration of a graph has nothing to do with its edges. -/
theorem BackEdges.of_setGraph {graph : Graph} {config : GraphConfig}
    {back : List (String × String)} (backEdges : BackEdges (graph.setGraph config) back) :
    BackEdges graph back := by
  refine ⟨backEdges.listed, backEdges.acyclic.mono fun edge member => ?_, backEdges.none_iff⟩
  have kept : edge ∈ graph.edges ∧ edge ∉ back := Graph.mem_edges_removeEdges.mp member
  exact Graph.mem_edges_removeEdges.mpr kept

/-- The edges that are taken out before the layout are put back after it. -/
theorem BackEdges.restored {graph : Graph} {back : List (String × String)}
    (backEdges : BackEdges graph back) (place : Graph → String → Point) (edge : String × String) :
    edge ∈ ((dagreLayout place (graph.removeEdges back)).setEdges back).edges ↔
      edge ∈ graph.edges := by
  have same : (dagreLayout place (graph.removeEdges back)).edges =
      (graph.removeEdges back).edges := rfl
  rw [Graph.mem_edges_setEdges, same, Graph.mem_edges_removeEdges]
  constructor
  · rintro (⟨listed, _⟩ | recorded)
    · exact listed
    · exact backEdges.listed edge recorded
  · intro listed
    by_cases recorded : edge ∈ back
    · exact .inr recorded
    · exact .inl ⟨listed, recorded⟩

/-!
## Layouts
-/

/-- What a layout does with the edges of a graph. -/
structure Restores (graph : Graph) (run : LayoutRun) : Prop where
  handed : ∀ given ∈ run.handed, given.Acyclic
  removed : run.removed = [] ↔ graph.Acyclic
  restored : ∀ edge, (∃ laidOut ∈ run.laidOut, edge ∈ laidOut.edges) ↔ edge ∈ graph.edges

theorem layout_restores (place : Graph → String → Point) (options : LayoutOptions)
    (graph : Graph) : Restores graph (layout place options graph) := by
  have back := detectCycles_backEdges (graph.setGraph (graph.config.assign options))
  refine ⟨?_, back.none_iff, ?_⟩
  · intro given member
    cases List.mem_singleton.mp member
    exact back.acyclic
  · intro edge
    have restored := back.restored place edge
    constructor
    · rintro ⟨laidOut, member, listed⟩
      cases List.mem_singleton.mp member
      exact restored.mp listed
    · intro listed
      exact ⟨_, List.mem_singleton_self _, restored.mpr listed⟩

theorem edges_addNodes (graph : Graph) (nodeIds : List String) (subgraph : Graph) :
    (nodeIds.foldl (copyNode graph) subgraph).edges = subgraph.edges := by
  induction nodeIds generalizing subgraph with
  | nil => rfl
  | cons nodeId rest ih =>
      rw [List.foldl_cons, ih, copyNode]
      cases graph.nodes.get? nodeId <;> rfl

theorem mem_edges_createSubgraph {graph : Graph} {nodeIds : List String}
    {edge : String × String} :
    edge ∈ (createSubgraph graph nodeIds).edges ↔
      edge ∈ graph.edges ∧ edge.1 ∈ nodeIds ∧ edge.2 ∈ nodeIds := by
  rw [createSubgraph, Graph.mem_edges_setEdges, edges_addNodes, List.mem_filter,
    Bool.and_eq_true, decide_eq_true_eq, decide_eq_true_eq]
  exact or_iff_right List.not_mem_nil

section Component

variable (place : Graph → String → Point) (options : LayoutOptions) (graph : Graph)
  (nodeIds : List String)

theorem layoutComponent_backEdges : BackEdges (createSubgraph graph nodeIds)
    (layoutComponent place options graph nodeIds).removed :=
  (detectCyclesInGraph_backEdges _).of_setGraph

theorem layoutComponent_handed : (layoutComponent place options graph nodeIds).handed.Acyclic :=
  (detectCyclesInGraph_backEdges _).acyclic

theorem layoutComponent_restored (edge : String × String) :
    edge ∈ (layoutComponent place options graph nodeIds).graph.edges ↔
      edge ∈ graph.edges ∧ edge.1 ∈ nodeIds ∧ edge.2 ∈ nodeIds := by
  rw [← mem_edges_createSubgraph]
  exact (detectCyclesInGraph_backEdges _).restored place edge

end Component

/-- A cycle stays within a component. -/
theorem acyclic_iff_components {graph : Graph} {comps : List (List String)}
    (components : graph.ConnectedComponents comps) :
    graph.Acyclic ↔ ∀ comp ∈ comps, (createSubgraph graph comp).Acyclic := by
  constructor
  · intro acyclic comp _
    exact acyclic.mono fun edge member => (mem_edges_createSubgraph.mp member).1
  · intro acyclic nodeId cycle
    obtain ⟨_, edge, _⟩ := Relation.TransGen.head'_iff.mp cycle
    have isNode := (components.members nodeId).mpr (graph.closed _ edge).1
    obtain ⟨comp, isComp, member⟩ := List.mem_flatten.mp isNode
    -- from a node of the component on, the path stays in it
    have within : ∀ target, Relation.TransGen graph.Edge nodeId target →
        target ∈ comp ∧ Relation.TransGen (createSubgraph graph comp).Edge nodeId target := by
      intro target path
      induction path with
      | single step =>
          have inside := (components.edge_iff isComp step).mp member
          exact ⟨inside, .single (mem_edges_createSubgraph.mpr ⟨step, member, inside⟩)⟩
      | tail _ step ih =>
          have inside := (components.edge_iff isComp step).mp ih.1
          exact ⟨inside, ih.2.tail (mem_edges_createSubgraph.mpr ⟨step, ih.1, inside⟩)⟩
    exact acyclic comp isComp nodeId (within nodeId cycle).2

theorem layoutWithSplitting_restores (place : Graph → String → Point) (options : LayoutOptions)
    (graph : Graph) : Restores graph (layoutWithSplitting place options graph) := by
  have components := graph.components_connected
  rw [layoutWithSplitting]
  split
  · exact layout_restores place options graph
  · refine ⟨?_, ?_, ?_⟩
    · simp only [List.map_map, List.mem_map]
      rintro given ⟨comp, _, rfl⟩
      exact layoutComponent_handed place options graph comp
    · simp only [acyclic_iff_components components, List.flatMap_map, List.flatMap_eq_nil_iff]
      exact forall₂_congr fun comp _ =>
        (layoutComponent_backEdges place options graph comp).none_iff
    · intro edge
      simp only [List.map_map, List.mem_map, Function.comp_apply, exists_exists_and_eq_and,
        layoutComponent_restored]
      constructor
      · rintro ⟨_, _, listed, _⟩
        exact listed
      · intro listed
        have isNode := (components.members edge.1).mpr (graph.closed edge listed).1
        obtain ⟨comp, isComp, member⟩ := List.mem_flatten.mp isNode
        exact ⟨comp, isComp, listed, member, (components.edge_iff isComp listed).mp member⟩

/-!
## The canvas
-/

theorem mem_edges_fromNodes {nodes : List Node} {connections : List Connection}
    {source target : String} :
    (source, target) ∈ (fromNodes nodes connections).edges ↔
      ∃ connection ∈ connections, connection.source = source ∧ connection.target = target := by
  have none : ∀ (sorted : List Node) (graph : Graph), (sorted.foldl
      (fun graph node => graph.setNode node.id ⟨180, 80, node.x, node.y⟩) graph).edges =
        graph.edges := by
    intro sorted graph
    induction sorted generalizing graph with
    | nil => rfl
    | cons node sorted ih => exact ih _
  rw [fromNodes, Graph.mem_edges_setEdges, none, List.mem_map]
  simp only [Graph.new, List.not_mem_nil, false_or, Prod.mk.injEq]

/-- A layout of the connections: the library is only given graphs without cycles, nothing is
taken out exactly when the connections have no cycle, and after it they are all there. -/
structure LaysOut (connections : List Connection) (run : LayoutRun) : Prop where
  handed : ∀ given ∈ run.handed, given.Acyclic
  removed : run.removed = [] ↔ ∀ nodeId, ¬ Relation.TransGen (fun source target =>
    ∃ connection ∈ connections, connection.source = source ∧ connection.target = target)
      nodeId nodeId
  restored : ∀ source target, (∃ laidOut ∈ run.laidOut, (source, target) ∈ laidOut.edges) ↔
    ∃ connection ∈ connections, connection.source = source ∧ connection.target = target

theorem Restores.laysOut {nodes : List Node} {connections : List Connection} {run : LayoutRun}
    (restores : Restores (fromNodes nodes connections) run) : LaysOut connections run := by
  have linked : (fromNodes nodes connections).Edge = fun source target =>
      ∃ connection ∈ connections, connection.source = source ∧ connection.target = target := by
    funext source target
    exact propext mem_edges_fromNodes
  refine ⟨restores.handed, ?_, fun source target => ?_⟩
  · rw [restores.removed, Graph.Acyclic, linked]
  · rw [restores.restored, mem_edges_fromNodes]

theorem layouts_restore (place : Graph → String → Point) (options : LayoutOptions)
    (nodes : List Node) (connections : List Connection) :
    LaysOut connections (layout place options (fromNodes nodes connections)) ∧
      LaysOut connections (layoutWithSplitting place options (fromNodes nodes connections)) :=
  ⟨(layout_restores place options _).laysOut,
    (layoutWithSplitting_restores place options _).laysOut⟩

end WorkflowStudio.Canvas
