import Mathlib.Data.List.Sort
import Mathlib.Data.Rat.Defs
import WorkflowStudio.Lib.DepthFirst
import WorkflowStudio.Lib.OrderedMap

/-! The directed graphs of the layout library, as far as the canvas uses them: labelled nodes
and at most one edge from a node to another. -/

set_option autoImplicit false

namespace WorkflowStudio.Canvas

open Lib

/-!
## Keys of an object
-/

def arrayIndex (key : String) : Nat :=
  key.toList.foldl (fun value digit => 10 * value + (digit.toNat - '0'.toNat)) 0

def isArrayIndex (key : String) : Bool :=
  key.toList.all Char.isDigit && key != "" && (key == "0" || !(key.toList.head? == some '0')) &&
    decide (arrayIndex key < 4294967295)

/-- `Object.keys`: array indices come first and in ascending order, then the other keys in the
order in which they were added. -/
def objectKeys (keys : List String) : List String :=
  (keys.filter isArrayIndex).insertionSort (fun left right => arrayIndex left ≤ arrayIndex right) ++
    keys.filter fun key => !isArrayIndex key

theorem objectKeys_perm (keys : List String) : (objectKeys keys).Perm keys :=
  ((List.perm_insertionSort _ _).append_right _).trans (List.filter_append_perm _ keys)

@[simp] theorem mem_objectKeys {keys : List String} {key : String} :
    key ∈ objectKeys keys ↔ key ∈ keys := (objectKeys_perm keys).mem_iff

/-!
## Graphs
-/

structure Point where
  x : Rat
  y : Rat
  deriving DecidableEq

/-- The label of a node. A missing number is 0. -/
structure NodeLabel where
  width : Rat
  height : Rat
  x : Rat
  y : Rat
  deriving DecidableEq

structure GraphConfig where
  rankdir : String
  nodesep : Rat
  ranksep : Rat
  edgesep : Rat
  marginx : Rat
  marginy : Rat
  deriving DecidableEq

structure Graph where
  config : GraphConfig
  nodes : OrderedMap String NodeLabel
  edges : List (String × String)
  distinct : edges.Nodup
  closed : ∀ edge ∈ edges, edge.1 ∈ nodes.keys ∧ edge.2 ∈ nodes.keys

namespace Graph

def new (config : GraphConfig) : Graph where
  config := config
  nodes := OrderedMap.empty
  edges := []
  distinct := List.nodup_nil
  closed := fun _ member => nomatch member

def setGraph (graph : Graph) (config : GraphConfig) : Graph := { graph with config := config }

def setNode (graph : Graph) (nodeId : String) (label : NodeLabel) : Graph :=
  { graph with
    nodes := graph.nodes.set nodeId label
    closed := fun edge member =>
      ⟨OrderedMap.mem_keys_set.mpr (.inr (graph.closed edge member).1),
        OrderedMap.mem_keys_set.mpr (.inr (graph.closed edge member).2)⟩ }

/-- `setNode` without a label: a node that is there keeps its own. -/
def ensureNode (graph : Graph) (nodeId : String) : Graph :=
  if nodeId ∈ graph.nodes.keys then graph else graph.setNode nodeId ⟨0, 0, 0, 0⟩

@[simp] theorem mem_keys_ensureNode {graph : Graph} {nodeId other : String} :
    other ∈ (graph.ensureNode nodeId).nodes.keys ↔ other = nodeId ∨ other ∈ graph.nodes.keys := by
  rw [ensureNode]
  split
  · next present =>
      constructor
      · exact .inr
      · rintro (rfl | member)
        · exact present
        · exact member
  · exact OrderedMap.mem_keys_set

@[simp] theorem edges_ensureNode (graph : Graph) (nodeId : String) :
    (graph.ensureNode nodeId).edges = graph.edges := by
  rw [ensureNode]
  split <;> rfl

/-- `setEdge`: the ends are added where they are missing; an edge that is there stays. -/
def setEdge (graph : Graph) (edge : String × String) : Graph :=
  if present : edge ∈ graph.edges then graph
  else
    { (graph.ensureNode edge.1).ensureNode edge.2 with
      edges := graph.edges ++ [edge]
      distinct := by
        refine List.nodup_append.mpr ⟨graph.distinct, List.nodup_singleton edge, ?_⟩
        rintro old member _ new rfl
        exact present (List.mem_singleton.mp new ▸ member)
      closed := by
        intro other member
        simp only [mem_keys_ensureNode]
        rcases List.mem_append.mp member with old | new
        · exact ⟨.inr (.inr (graph.closed other old).1), .inr (.inr (graph.closed other old).2)⟩
        · cases List.mem_singleton.mp new
          exact ⟨.inr (.inl rfl), .inl rfl⟩ }

def removeEdge (graph : Graph) (edge : String × String) : Graph :=
  { graph with
    edges := graph.edges.filter fun other => decide (other ≠ edge)
    distinct := graph.distinct.filter _
    closed := fun other member => graph.closed other (List.mem_filter.mp member).1 }

@[simp] theorem mem_edges_setEdge {graph : Graph} {edge other : String × String} :
    other ∈ (graph.setEdge edge).edges ↔ other ∈ graph.edges ∨ other = edge := by
  rw [setEdge]
  split
  · next present =>
      constructor
      · exact .inl
      · rintro (member | rfl)
        · exact member
        · exact present
  · rw [List.mem_append, List.mem_singleton]

@[simp] theorem mem_edges_removeEdge {graph : Graph} {edge other : String × String} :
    other ∈ (graph.removeEdge edge).edges ↔ other ∈ graph.edges ∧ other ≠ edge := by
  rw [removeEdge, List.mem_filter, decide_eq_true_eq]

def setEdges (graph : Graph) (edges : List (String × String)) : Graph := edges.foldl setEdge graph

def removeEdges (graph : Graph) (edges : List (String × String)) : Graph :=
  edges.foldl removeEdge graph

theorem mem_edges_setEdges {graph : Graph} {edges : List (String × String)}
    {other : String × String} :
    other ∈ (graph.setEdges edges).edges ↔ other ∈ graph.edges ∨ other ∈ edges := by
  induction edges generalizing graph with
  | nil => simp [setEdges]
  | cons edge edges ih =>
      rw [setEdges, List.foldl_cons]
      exact ih.trans (by rw [mem_edges_setEdge, List.mem_cons, or_assoc])

theorem mem_edges_removeEdges {graph : Graph} {edges : List (String × String)}
    {other : String × String} :
    other ∈ (graph.removeEdges edges).edges ↔ other ∈ graph.edges ∧ other ∉ edges := by
  induction edges generalizing graph with
  | nil => simp [removeEdges]
  | cons edge edges ih =>
      rw [removeEdges, List.foldl_cons]
      exact ih.trans (by rw [mem_edges_removeEdge, List.mem_cons, not_or, and_assoc])

/-- `graph.nodes()`. -/
def nodeIds (graph : Graph) : List String := objectKeys graph.nodes.keys

def successors (graph : Graph) (nodeId : String) : List String :=
  objectKeys ((graph.edges.filter fun edge => decide (edge.1 = nodeId)).map Prod.snd)

def predecessors (graph : Graph) (nodeId : String) : List String :=
  objectKeys ((graph.edges.filter fun edge => decide (edge.2 = nodeId)).map Prod.fst)

@[simp] theorem mem_nodeIds {graph : Graph} {nodeId : String} :
    nodeId ∈ graph.nodeIds ↔ nodeId ∈ graph.nodes.keys := mem_objectKeys

@[simp] theorem mem_successors {graph : Graph} {source target : String} :
    target ∈ graph.successors source ↔ (source, target) ∈ graph.edges := by
  simp [successors, mem_objectKeys]

@[simp] theorem mem_predecessors {graph : Graph} {source target : String} :
    source ∈ graph.predecessors target ↔ (source, target) ∈ graph.edges := by
  simp [predecessors, mem_objectKeys]

/-!
## Connected components
-/

/-- The walk of `components`: an edge may be followed in both directions. -/
def neighborGraph (graph : Graph) : DepthFirst.Graph String String :=
  .ofSuccessors fun nodeId => graph.successors nodeId ++ graph.predecessors nodeId

/-- A component for every node that is not visited yet: the nodes that the visit adds. -/
def componentsFrom (graph : Graph) :
    List String → DepthFirst.State String String → Option (List (List String))
  | [], _ => some []
  | nodeId :: rest, state =>
      if nodeId ∈ state.visited then componentsFrom graph rest state
      else
        (DepthFirst.visit graph.neighborGraph graph.nodeIds.length nodeId state).bind fun next =>
          (componentsFrom graph rest next).map fun others =>
            next.visited.drop state.visited.length :: others

/-- `alg.components`. A visit marks a node, so their number bounds the depth. -/
def components (graph : Graph) : List (List String) :=
  (graph.componentsFrom graph.nodeIds DepthFirst.State.initial).getD []

end Graph

/-!
## The layout
-/

/-- `dagre.layout`: the library places the nodes and leaves everything else as it is. -/
def dagreLayout (place : Graph → String → Point) (graph : Graph) : Graph :=
  { graph with
    nodes := graph.nodes.mapValues fun nodeId label =>
      { label with x := (place graph nodeId).x, y := (place graph nodeId).y }
    closed := by
      have same : (graph.nodes.mapValues fun nodeId label => { label with
          x := (place graph nodeId).x, y := (place graph nodeId).y }).keys = graph.nodes.keys := by
        simp only [OrderedMap.keys, OrderedMap.mapValues, List.map_map]
        rfl
      rw [same]
      exact graph.closed }

end WorkflowStudio.Canvas
