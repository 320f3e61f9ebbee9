import Mathlib.Tactic.Linarith
import WorkflowStudio.Canvas.LayoutProperties

/-! The components are stacked with a gap between their bounding boxes, and a component moves
as a whole. The boxes have one fixed size for every node. -/

set_option autoImplicit false

namespace WorkflowStudio.Canvas

open Lib

/-!
## Labels
-/

theorem emptyLabel_standard : halfW ⟨0, 0, 0, 0⟩ = 90 ∧ halfH ⟨0, 0, 0, 0⟩ = 40 := by
  constructor <;> norm_num [halfW, halfH]

namespace Graph

/-- Every node has the size of the boxes that the layout takes nodes for. -/
def Standard (graph : Graph) : Prop :=
  ∀ nodeId, halfW (graph.node nodeId) = 90 ∧ halfH (graph.node nodeId) = 40

theorem node_setNode (graph : Graph) (nodeId other : String) (label : NodeLabel) :
    (graph.setNode nodeId label).node other =
      if other = nodeId then label else graph.node other := by
  rw [node, setNode, OrderedMap.get?_set]
  split <;> rfl

theorem node_ensureNode (graph : Graph) (nodeId other : String) :
    (graph.ensureNode nodeId).node other = graph.node other := by
  rw [ensureNode]
  split
  · rfl
  · next absent =>
      rw [node_setNode]
      split
      · next same =>
          rw [same, node, OrderedMap.get?_eq_none_iff.mpr absent, Option.getD_none]
      · rfl

theorem node_setEdge (graph : Graph) (edge : String × String) (other : String) :
    (graph.setEdge edge).node other = graph.node other := by
  rw [setEdge]
  split
  · rfl
  · exact (node_ensureNode _ _ _).trans (node_ensureNode _ _ _)

theorem node_setEdges (graph : Graph) (edges : List (String × String)) (other : String) :
    (graph.setEdges edges).node other = graph.node other := by
  induction edges generalizing graph with
  | nil => rfl
  | cons edge edges ih => exact (ih (graph.setEdge edge)).trans (node_setEdge graph edge other)

theorem nodes_removeEdges (graph : Graph) (edges : List (String × String)) :
    (graph.removeEdges edges).nodes = graph.nodes := by
  induction edges generalizing graph with
  | nil => rfl
  | cons edge edges ih => exact ih (graph.removeEdge edge)

theorem mem_keys_setEdge {graph : Graph} {edge : String × String}
    (ends : edge.1 ∈ graph.nodes.keys ∧ edge.2 ∈ graph.nodes.keys) {nodeId : String} :
    nodeId ∈ (graph.setEdge edge).nodes.keys ↔ nodeId ∈ graph.nodes.keys := by
  rw [setEdge]
  split
  · rfl
  · rw [mem_keys_ensureNode, mem_keys_ensureNode]
    constructor
    · rintro (rfl | rfl | member)
      · exact ends.2
      · exact ends.1
      · exact member
    · exact fun member => .inr (.inr member)

theorem mem_keys_setEdges {graph : Graph} {edges : List (String × String)}
    (ends : ∀ edge ∈ edges, edge.1 ∈ graph.nodes.keys ∧ edge.2 ∈ graph.nodes.keys)
    {nodeId : String} :
    nodeId ∈ (graph.setEdges edges).nodes.keys ↔ nodeId ∈ graph.nodes.keys := by
  induction edges generalizing graph with
  | nil => rfl
  | cons edge edges ih =>
      have first := ends edge List.mem_cons_self
      refine (ih fun other member => ?_).trans (mem_keys_setEdge first)
      rw [mem_keys_setEdge first, mem_keys_setEdge first]
      exact ends other (List.mem_cons_of_mem _ member)

theorem Standard.setNode {graph : Graph} (standard : graph.Standard) (nodeId : String)
    {label : NodeLabel} (size : halfW label = 90 ∧ halfH label = 40) :
    (graph.setNode nodeId label).Standard := by
  intro other
  rw [node_setNode]
  split
  · exact size
  · exact standard other

theorem Standard.setEdges {graph : Graph} (standard : graph.Standard)
    (edges : List (String × String)) : (graph.setEdges edges).Standard := by
  intro other
  rw [node_setEdges]
  exact standard other

theorem new_standard (config : GraphConfig) : (Graph.new config).Standard := by
  intro other
  exact emptyLabel_standard

end Graph

theorem keys_dagreLayout (place : Graph → String → Point) (graph : Graph) :
    (dagreLayout place graph).nodes.keys = graph.nodes.keys := by
  simp only [dagreLayout, OrderedMap.keys, OrderedMap.mapValues, List.map_map]
  rfl

theorem node_dagreLayout {graph : Graph} {nodeId : String}
    (member : nodeId ∈ graph.nodes.keys) (place : Graph → String → Point) :
    (dagreLayout place graph).node nodeId =
      { graph.node nodeId with x := (place graph nodeId).x, y := (place graph nodeId).y } := by
  obtain ⟨label, found⟩ := OrderedMap.mem_keys_iff.mp member
  rw [Graph.node, Graph.node, dagreLayout, OrderedMap.get?_mapValues, found]
  rfl

theorem Graph.Standard.dagreLayout {graph : Graph} (standard : graph.Standard)
    (place : Graph → String → Point) : (dagreLayout place graph).Standard := by
  intro nodeId
  by_cases member : nodeId ∈ graph.nodes.keys
  · rw [node_dagreLayout member]
    exact standard nodeId
  · have absent : nodeId ∉ (Canvas.dagreLayout place graph).nodes.keys := by
      rwa [keys_dagreLayout]
    rw [Graph.node, OrderedMap.get?_eq_none_iff.mpr absent, Option.getD_none]
    exact emptyLabel_standard

theorem fromNodes_standard (nodes : List Node) (connections : List Connection) :
    (fromNodes nodes connections).Standard := by
  have sized : ∀ (sorted : List Node) (graph : Graph), graph.Standard → (sorted.foldl
      (fun graph node => graph.setNode node.id ⟨180, 80, node.x, node.y⟩) graph).Standard := by
    intro sorted
    induction sorted with
    | nil => exact fun _ standard => standard
    | cons node sorted ih =>
        intro graph standard
        apply ih
        apply standard.setNode
        constructor <;> norm_num [halfW, halfH]
  exact (sized _ _ (Graph.new_standard _)).setEdges _

theorem mem_keys_fromNodes {nodes : List Node} {connections : List Connection} {node : Node}
    (member : node ∈ nodes) : node.id ∈ (fromNodes nodes connections).nodes.keys := by
  have added : ∀ (sorted : List Node) (graph : Graph),
      node ∈ sorted ∨ node.id ∈ graph.nodes.keys → node.id ∈ (sorted.foldl
        (fun graph node => graph.setNode node.id ⟨180, 80, node.x, node.y⟩) graph).nodes.keys := by
    intro sorted
    induction sorted with
    | nil => exact fun graph given => given.resolve_left List.not_mem_nil
    | cons other sorted ih =>
        intro graph given
        apply ih
        rcases given with listed | present
        · rcases List.mem_cons.mp listed with rfl | later
          · exact .inr (OrderedMap.mem_keys_set.mpr (.inl rfl))
          · exact .inl later
        · exact .inr (OrderedMap.mem_keys_set.mpr (.inr present))
  have grows : ∀ (edges : List (String × String)) (graph : Graph),
      node.id ∈ graph.nodes.keys → node.id ∈ (graph.setEdges edges).nodes.keys := by
    intro edges
    induction edges with
    | nil => exact fun _ present => present
    | cons edge edges ih =>
        intro graph present
        apply ih
        rw [Graph.setEdge]
        split
        · exact present
        · exact Graph.mem_keys_ensureNode.mpr (.inr (Graph.mem_keys_ensureNode.mpr (.inr present)))
  exact grows _ _ (added _ _ (.inl ((List.mem_insertionSort _).mpr member)))

/-!
## A component after its layout
-/

theorem mem_keys_copyNodes {graph : Graph} {nodeIds : List String}
    (within : ∀ nodeId ∈ nodeIds, nodeId ∈ graph.nodes.keys) (subgraph : Graph) {other : String} :
    other ∈ (nodeIds.foldl (copyNode graph) subgraph).nodes.keys ↔
      other ∈ nodeIds ∨ other ∈ subgraph.nodes.keys := by
  induction nodeIds generalizing subgraph with
  | nil => simp
  | cons nodeId rest ih =>
      obtain ⟨label, found⟩ := OrderedMap.mem_keys_iff.mp (within nodeId List.mem_cons_self)
      have copied : copyNode graph subgraph nodeId = subgraph.setNode nodeId label := by
        rw [copyNode, found]
      rw [List.foldl_cons, ih (fun id member => within id (List.mem_cons_of_mem _ member)), copied,
        Graph.setNode, OrderedMap.mem_keys_set, List.mem_cons]
      tauto

theorem mem_keys_createSubgraph {graph : Graph} {nodeIds : List String}
    (within : ∀ nodeId ∈ nodeIds, nodeId ∈ graph.nodes.keys) {nodeId : String} :
    nodeId ∈ (createSubgraph graph nodeIds).nodes.keys ↔ nodeId ∈ nodeIds := by
  have copied : ∀ other, other ∈ (nodeIds.foldl (copyNode graph)
      (Graph.new graph.config)).nodes.keys ↔ other ∈ nodeIds := by
    intro other
    rw [mem_keys_copyNodes within]
    exact or_iff_left List.not_mem_nil
  rw [createSubgraph, Graph.mem_keys_setEdges, copied]
  intro edge member
  have inside := (List.mem_filter.mp member).2
  rw [Bool.and_eq_true, decide_eq_true_eq, decide_eq_true_eq] at inside
  exact ⟨(copied edge.1).mpr inside.1, (copied edge.2).mpr inside.2⟩

theorem createSubgraph_standard {graph : Graph} (standard : graph.Standard)
    (nodeIds : List String) : (createSubgraph graph nodeIds).Standard := by
  have copied : ∀ subgraph : Graph, subgraph.Standard →
      (nodeIds.foldl (copyNode graph) subgraph).Standard := by
    induction nodeIds with
    | nil => exact fun _ small => small
    | cons nodeId rest ih =>
        intro subgraph small
        apply ih
        rw [copyNode]
        cases found : graph.nodes.get? nodeId with
        | none => exact small
        | some label =>
            have size := standard nodeId
            rw [Graph.node, found] at size
            exact small.setNode nodeId size
  exact (copied _ (Graph.new_standard _)).setEdges _

section Component

variable (place : Graph → String → Point) (options : LayoutOptions) {graph : Graph}
  {nodeIds : List String}

theorem layoutComponent_standard (standard : graph.Standard) :
    (layoutComponent place options graph nodeIds).graph.Standard := by
  have small := createSubgraph_standard standard nodeIds
  have handed : (layoutComponent place options graph nodeIds).handed.Standard := by
    intro nodeId
    have same := small nodeId
    rw [Graph.node] at same ⊢
    simp only [layoutComponent, Graph.nodes_removeEdges]
    exact same
  exact (handed.dagreLayout place).setEdges _

theorem mem_keys_handed (within : ∀ nodeId ∈ nodeIds, nodeId ∈ graph.nodes.keys)
    {nodeId : String} :
    nodeId ∈ (layoutComponent place options graph nodeIds).handed.nodes.keys ↔
      nodeId ∈ nodeIds := by
  rw [← mem_keys_createSubgraph within, layoutComponent, Graph.nodes_removeEdges]
  rfl

theorem mem_keys_layoutComponent (within : ∀ nodeId ∈ nodeIds, nodeId ∈ graph.nodes.keys)
    {nodeId : String} :
    nodeId ∈ (layoutComponent place options graph nodeIds).graph.nodes.keys ↔
      nodeId ∈ nodeIds := by
  rw [← mem_keys_handed place options within]
  have back := layoutComponent_backEdges place options graph nodeIds
  have unchanged : (dagreLayout place
      (layoutComponent place options graph nodeIds).handed).nodes.keys =
        (layoutComponent place options graph nodeIds).handed.nodes.keys := keys_dagreLayout _ _
  rw [← unchanged]
  refine Graph.mem_keys_setEdges fun edge member => ?_
  have inside := (mem_edges_createSubgraph.mp (back.listed edge member)).2
  have ends := And.intro ((mem_keys_handed place options within).mpr inside.1)
    ((mem_keys_handed place options within).mpr inside.2)
  rw [← unchanged] at ends
  exact ends

/-- The library's positions are those of the component's graph. -/
theorem node_layoutComponent (within : ∀ nodeId ∈ nodeIds, nodeId ∈ graph.nodes.keys)
    {nodeId : String} (member : nodeId ∈ nodeIds) :
    ((layoutComponent place options graph nodeIds).graph.node nodeId).x =
        (place (layoutComponent place options graph nodeIds).handed nodeId).x ∧
      ((layoutComponent place options graph nodeIds).graph.node nodeId).y =
        (place (layoutComponent place options graph nodeIds).handed nodeId).y := by
  have isNode := (mem_keys_handed place options within).mpr member
  have restored : (layoutComponent place options graph nodeIds).graph.node nodeId =
      (dagreLayout place (layoutComponent place options graph nodeIds).handed).node nodeId :=
    Graph.node_setEdges _ _ _
  rw [restored, node_dagreLayout isNode]
  exact ⟨rfl, rfl⟩

end Component

/-!
## Bounding boxes
-/

/-- The coordinate along which the components are stacked. -/
def along (isVerticalFlow : Bool) (point : Point) : Rat :=
  if isVerticalFlow then point.x else point.y

/-- Half of the box that stands for a node, in the direction of stacking. -/
def halfBox (isVerticalFlow : Bool) : Rat := if isVerticalFlow then 90 else 40

namespace LaidOut

def start (isVerticalFlow : Bool) (comp : LaidOut) : Rat :=
  if isVerticalFlow then comp.bbox.minX else comp.bbox.minY

def extent (isVerticalFlow : Bool) (comp : LaidOut) : Rat :=
  if isVerticalFlow then comp.bbox.width else comp.bbox.height

def point (comp : LaidOut) (nodeId : String) : Point :=
  ⟨(comp.graph.node nodeId).x, (comp.graph.node nodeId).y⟩

/-- The box of every node is within the bounding box, which is that of its graph. -/
structure Boxed (comp : LaidOut) : Prop where
  bbox : comp.bbox = getBoundingBox comp.graph
  standard : comp.graph.Standard
  nodes : ∀ nodeId ∈ comp.nodeIds, nodeId ∈ comp.graph.nodeIds
  only : ∀ nodeId ∈ comp.graph.nodeIds, nodeId ∈ comp.nodeIds

/-- The measures of the bounding box, for a component with nodes. -/
theorem Boxed.measures {comp : LaidOut} (boxed : comp.Boxed) (some : comp.nodeIds ≠ [])
    (isVerticalFlow : Bool) :
    ∃ first rest, comp.graph.nodeIds.map comp.graph.node = first :: rest ∧
      comp.start isVerticalFlow = leastOf (fun label : NodeLabel =>
        along isVerticalFlow ⟨label.x, label.y⟩ -
          (if isVerticalFlow then halfW label else halfH label)) first rest ∧
      comp.extent isVerticalFlow = greatestOf (fun label : NodeLabel =>
        along isVerticalFlow ⟨label.x, label.y⟩ +
          (if isVerticalFlow then halfW label else halfH label)) first rest -
            comp.start isVerticalFlow := by
  obtain ⟨nodeId, member⟩ := List.exists_mem_of_ne_nil _ some
  have mapped : comp.graph.node nodeId ∈ comp.graph.nodeIds.map comp.graph.node :=
    List.mem_map_of_mem (boxed.nodes nodeId member)
  cases labels : comp.graph.nodeIds.map comp.graph.node with
  | nil =>
      rw [labels] at mapped
      cases mapped
  | cons first rest =>
      refine ⟨first, rest, rfl, ?_, ?_⟩
      all_goals
        cases isVerticalFlow <;>
          simp only [start, extent, boxed.bbox, getBoundingBox, labels, along, Bool.false_eq_true,
            ↓reduceIte]

/-- Half of the box of every label of the component, in the direction of stacking. -/
theorem Boxed.half {comp : LaidOut} (boxed : comp.Boxed) (isVerticalFlow : Bool)
    (nodeId : String) :
    (if isVerticalFlow then halfW (comp.graph.node nodeId)
      else halfH (comp.graph.node nodeId)) = halfBox isVerticalFlow := by
  obtain ⟨width, height⟩ := boxed.standard nodeId
  rw [width, height, halfBox]

theorem Boxed.within {comp : LaidOut} (boxed : comp.Boxed) {nodeId : String}
    (member : nodeId ∈ comp.nodeIds) (isVerticalFlow : Bool) :
    comp.start isVerticalFlow + halfBox isVerticalFlow ≤
        along isVerticalFlow (comp.point nodeId) ∧
      along isVerticalFlow (comp.point nodeId) + halfBox isVerticalFlow ≤
        comp.start isVerticalFlow + comp.extent isVerticalFlow := by
  obtain ⟨first, rest, labels, start, extent⟩ :=
    boxed.measures (List.ne_nil_of_mem member) isVerticalFlow
  have listed : comp.graph.node nodeId ∈ first :: rest := by
    rw [← labels]
    exact List.mem_map_of_mem (boxed.nodes nodeId member)
  have half := boxed.half isVerticalFlow nodeId
  have least := @leastOf_le _ _ _ (fun label : NodeLabel =>
    along isVerticalFlow ⟨label.x, label.y⟩ -
      (if isVerticalFlow then halfW label else halfH label)) _ _ _ listed
  have greatest := @le_greatestOf _ _ _ (fun label : NodeLabel =>
    along isVerticalFlow ⟨label.x, label.y⟩ +
      (if isVerticalFlow then halfW label else halfH label)) _ _ _ listed
  rw [half] at least greatest
  rw [point]
  constructor
  · linarith
  · linarith

/-- The bounding box of nodes that are all at one level is as long as one box. -/
theorem Boxed.level {comp : LaidOut} (boxed : comp.Boxed) (some : comp.nodeIds ≠ [])
    {isVerticalFlow : Bool} {level : Rat}
    (same : ∀ nodeId ∈ comp.nodeIds, along isVerticalFlow (comp.point nodeId) = level) :
    comp.start isVerticalFlow = level - halfBox isVerticalFlow ∧
      comp.extent isVerticalFlow = 2 * halfBox isVerticalFlow := by
  obtain ⟨first, rest, labels, start, extent⟩ := boxed.measures some isVerticalFlow
  have leveled : ∀ label ∈ first :: rest, along isVerticalFlow ⟨label.x, label.y⟩ = level ∧
      (if isVerticalFlow then halfW label else halfH label) = halfBox isVerticalFlow := by
    intro label listed
    rw [← labels] at listed
    obtain ⟨nodeId, isNode, rfl⟩ := List.mem_map.mp listed
    exact ⟨same nodeId (boxed.only nodeId isNode), boxed.half isVerticalFlow nodeId⟩
  have startEq : comp.start isVerticalFlow = level - halfBox isVerticalFlow := by
    rw [start]
    exact leastOf_eq fun label listed => by rw [(leveled label listed).1, (leveled label listed).2]
  have endEq : comp.extent isVerticalFlow = level + halfBox isVerticalFlow -
      comp.start isVerticalFlow := by
    rw [extent]
    congr 1
    exact greatestOf_eq fun label listed => by
      rw [(leveled label listed).1, (leveled label listed).2]
  refine ⟨startEq, ?_⟩
  rw [endEq, startEq]
  linarith

end LaidOut

theorem layoutComponent_boxed (place : Graph → String → Point) (options : LayoutOptions)
    {graph : Graph} (standard : graph.Standard) {nodeIds : List String}
    (within : ∀ nodeId ∈ nodeIds, nodeId ∈ graph.nodes.keys) :
    (layoutComponent place options graph nodeIds).Boxed where
  bbox := by simp only [layoutComponent]
  standard := layoutComponent_standard place options standard
  nodes := fun _ member =>
    Graph.mem_nodeIds.mpr ((mem_keys_layoutComponent place options within).mpr member)
  only := fun _ member =>
    (mem_keys_layoutComponent place options within).mp (Graph.mem_nodeIds.mp member)

/-!
## The stack
-/

/-- The components with the offsets at which they are stacked. -/
def offsets (isVerticalFlow : Bool) : Rat → List LaidOut → List (LaidOut × Rat)
  | _, [] => []
  | offset, comp :: comps =>
      (comp, offset) :: offsets isVerticalFlow
        (offset + (comp.extent isVerticalFlow + subgraphSpacing)) comps

theorem mem_offsets {isVerticalFlow : Bool} {comps : List LaidOut} {comp : LaidOut}
    (member : comp ∈ comps) (start : Rat) :
    ∃ offset, (comp, offset) ∈ offsets isVerticalFlow start comps := by
  induction comps generalizing start with
  | nil => cases member
  | cons other comps ih =>
      rcases List.mem_cons.mp member with rfl | member
      · exact ⟨start, List.mem_cons_self⟩
      · obtain ⟨offset, found⟩ := ih member
          (start + (other.extent isVerticalFlow + subgraphSpacing))
        exact ⟨offset, List.mem_cons_of_mem _ found⟩

/-- A component starts after the end of every earlier one, with the spacing between them. -/
theorem pairwise_offsets {isVerticalFlow : Bool} {comps : List LaidOut}
    (extents : ∀ comp ∈ comps, 0 ≤ comp.extent isVerticalFlow) (start : Rat) :
    (∀ entry ∈ offsets isVerticalFlow start comps, start ≤ entry.2) ∧
      (offsets isVerticalFlow start comps).Pairwise fun earlier later =>
        earlier.2 + earlier.1.extent isVerticalFlow + subgraphSpacing ≤ later.2 := by
  induction comps generalizing start with
  | nil =>
      constructor
      · exact fun _ member => nomatch member
      · exact .nil
  | cons comp comps ih =>
      obtain ⟨above, gaps⟩ := ih (fun other member => extents other (List.mem_cons_of_mem _ member))
        (start + (comp.extent isVerticalFlow + subgraphSpacing))
      have size := extents comp List.mem_cons_self
      have spacing : (0 : Rat) ≤ subgraphSpacing := by norm_num [subgraphSpacing]
      constructor
      · intro entry member
        rcases List.mem_cons.mp member with rfl | member
        · exact le_rfl
        · linarith [above entry member]
      · refine List.pairwise_cons.mpr ⟨fun entry member => ?_, gaps⟩
        linarith [above entry member]

/-- Of two components one is stacked before the other. -/
theorem earlier_or_later {isVerticalFlow : Bool} {comps : List LaidOut}
    (extents : ∀ comp ∈ comps, 0 ≤ comp.extent isVerticalFlow) {start : Rat}
    {first second : LaidOut × Rat} (isFirst : first ∈ offsets isVerticalFlow start comps)
    (isSecond : second ∈ offsets isVerticalFlow start comps) (different : first ≠ second) :
    first.2 + first.1.extent isVerticalFlow + subgraphSpacing ≤ second.2 ∨
      second.2 + second.1.extent isVerticalFlow + subgraphSpacing ≤ first.2 := by
  have gaps := (pairwise_offsets extents start).2
  generalize offsets isVerticalFlow start comps = entries at isFirst isSecond gaps
  induction entries with
  | nil => cases isFirst
  | cons entry entries ih =>
      obtain ⟨later, rest⟩ := List.pairwise_cons.mp gaps
      rcases List.mem_cons.mp isFirst with rfl | inFirst
      · rcases List.mem_cons.mp isSecond with rfl | inSecond
        · exact absurd rfl different
        · exact .inl (later second inSecond)
      · rcases List.mem_cons.mp isSecond with rfl | inSecond
        · exact .inr (later first inFirst)
        · exact ih inFirst inSecond rest

theorem get?_setAll {nodeIds : List String} {nodeId : String} (position : String → Point)
    (positions : Positions) :
    (nodeIds.foldl (fun positions nodeId => positions.set nodeId (position nodeId))
      positions).get? nodeId =
        if nodeId ∈ nodeIds then some (position nodeId) else positions.get? nodeId := by
  induction nodeIds generalizing positions with
  | nil => simp
  | cons other rest ih =>
      rw [List.foldl_cons, ih, OrderedMap.get?_set]
      by_cases later : nodeId ∈ rest
      · simp [later]
      · by_cases same : nodeId = other
        · simp [same]
        · simp [later, same]

theorem get?_stackComponents_of_absent {isVerticalFlow : Bool} {comps : List LaidOut}
    {nodeId : String} (absent : ∀ comp ∈ comps, nodeId ∉ comp.nodeIds) (start : Rat)
    (positions : Positions) :
    (stackComponents isVerticalFlow start comps positions).get? nodeId =
      positions.get? nodeId := by
  induction comps generalizing start positions with
  | nil => rfl
  | cons comp comps ih =>
      rw [stackComponents, ih (fun other member => absent other (List.mem_cons_of_mem _ member)),
        get?_setAll, if_neg (absent comp List.mem_cons_self)]

/-- Every node goes where its component puts it. -/
theorem get?_stackComponents {isVerticalFlow : Bool} {comps : List LaidOut} {start offset : Rat}
    {comp : LaidOut} {nodeId : String}
    (apart : comps.Pairwise fun first second => ∀ other ∈ first.nodeIds, other ∉ second.nodeIds)
    (placed : (comp, offset) ∈ offsets isVerticalFlow start comps) (member : nodeId ∈ comp.nodeIds)
    (positions : Positions) :
    (stackComponents isVerticalFlow start comps positions).get? nodeId =
      some (stackedPosition isVerticalFlow offset comp nodeId) := by
  induction comps generalizing start positions with
  | nil => cases placed
  | cons first rest ih =>
      obtain ⟨others, later⟩ := List.pairwise_cons.mp apart
      rw [stackComponents]
      rcases List.mem_cons.mp placed with same | placed
      · cases same
        rw [get?_stackComponents_of_absent fun other isOther => others other isOther nodeId member,
          get?_setAll, if_pos member]
      · exact ih later placed _

theorem along_stackedPosition (isVerticalFlow : Bool) (offset : Rat) (comp : LaidOut)
    (nodeId : String) :
    along isVerticalFlow (stackedPosition isVerticalFlow offset comp nodeId) =
      along isVerticalFlow (comp.point nodeId) + (offset - comp.start isVerticalFlow) := by
  cases isVerticalFlow <;> rfl

end WorkflowStudio.Canvas
