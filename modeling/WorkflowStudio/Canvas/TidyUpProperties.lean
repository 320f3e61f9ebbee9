import WorkflowStudio.Canvas.StackingProperties

/-! The tidy-up moves every component as a whole. It keeps the components apart, whatever the
layout library does within them, exactly when no node is larger than what the boxes of fixed
size and the spacing leave room for. -/

set_option autoImplicit false

namespace WorkflowStudio.Canvas

open Lib

/-!
## Sizes
-/

/-- The rectangles of two nodes, with their top-left corners at the given points, overlap. -/
structure Overlap (dims : DimensionConfig) (first second : Node) (p q : Point) : Prop where
  left : p.x < q.x + dims.nodeWidth
  right : q.x < p.x + dims.nodeWidth
  top : p.y < q.y + dims.estimateNodeHeight second
  bottom : q.y < p.y + dims.estimateNodeHeight first

/-- The size of a node in the direction of stacking. -/
def sizeAlong (dims : DimensionConfig) (isVerticalFlow : Bool) (node : Node) : Rat :=
  if isVerticalFlow then dims.nodeWidth else dims.estimateNodeHeight node

/-- The room from a node at the end of a component to the next component's first node. -/
def room (isVerticalFlow : Bool) : Rat := if isVerticalFlow then 340 else 240

theorem room_eq (isVerticalFlow : Bool) :
    room isVerticalFlow = subgraphSpacing + 2 * halfBox isVerticalFlow := by
  cases isVerticalFlow <;> norm_num [room, subgraphSpacing, halfBox]

theorem halfBox_pos (isVerticalFlow : Bool) : 0 < halfBox isVerticalFlow := by
  cases isVerticalFlow <;> norm_num [halfBox]

theorem sizeAlong_pos (dims : DimensionConfig) (isVerticalFlow : Bool) (node : Node) :
    0 < sizeAlong dims isVerticalFlow node := by
  cases isVerticalFlow
  · exact dims.estimateNodeHeight_pos node
  · exact dims.width_pos

theorem Overlap.along {dims : DimensionConfig} {first second : Node} {p q : Point}
    (overlap : Overlap dims first second p q) (isVerticalFlow : Bool) :
    Canvas.along isVerticalFlow p < Canvas.along isVerticalFlow q +
        sizeAlong dims isVerticalFlow second ∧
      Canvas.along isVerticalFlow q < Canvas.along isVerticalFlow p +
        sizeAlong dims isVerticalFlow first := by
  cases isVerticalFlow
  · exact ⟨overlap.top, overlap.bottom⟩
  · exact ⟨overlap.left, overlap.right⟩

/-- The coordinate across the direction of stacking. -/
def across (isVerticalFlow : Bool) (point : Point) : Rat :=
  if isVerticalFlow then point.y else point.x

theorem overlap_of_along {dims : DimensionConfig} {first second : Node} {p q : Point}
    (isVerticalFlow : Bool) (level : across isVerticalFlow p = across isVerticalFlow q)
    (before : along isVerticalFlow p < along isVerticalFlow q +
      sizeAlong dims isVerticalFlow second)
    (after : along isVerticalFlow q < along isVerticalFlow p +
      sizeAlong dims isVerticalFlow first) : Overlap dims first second p q := by
  have width := dims.width_pos
  have firstHeight := dims.estimateNodeHeight_pos first
  have secondHeight := dims.estimateNodeHeight_pos second
  cases isVerticalFlow
  · have level : p.x = q.x := level
    exact ⟨by linarith, by linarith, before, after⟩
  · have level : p.y = q.y := level
    exact ⟨before, after, by linarith, by linarith⟩

/-!
## The stack of the components
-/

section Stack

variable {place : Graph → String → Point} {options : LayoutOptions} {graph : Graph}

/-- The components in the order in which they are stacked. -/
def stacked (place : Graph → String → Point) (options : LayoutOptions) (graph : Graph) :
    List LaidOut :=
  sortComponents (isVertical options) (graph.components.map (layoutComponent place options graph))

theorem positions_eq_stack (several : 2 ≤ graph.components.length) :
    (layoutWithSplitting place options graph).positions =
      stackComponents (isVertical options) marginStart (stacked place options graph)
        OrderedMap.empty := by
  have many : ¬ graph.components.length ≤ 1 := by omega
  rw [layoutWithSplitting, if_neg many]
  rfl

theorem stacked_perm :
    (stacked place options graph).Perm
      (graph.components.map (layoutComponent place options graph)) := by
  rw [stacked, sortComponents]
  split <;> exact List.perm_insertionSort _ _

theorem mem_stacked {comp : LaidOut} :
    comp ∈ stacked place options graph ↔
      ∃ nodeIds ∈ graph.components, layoutComponent place options graph nodeIds = comp := by
  rw [stacked_perm.mem_iff, List.mem_map]

theorem stacked_apart : (stacked place options graph).Pairwise fun first second =>
    ∀ other ∈ first.nodeIds, other ∉ second.nodeIds := by
  have symmetric : ∀ {first second : LaidOut},
      (∀ other ∈ first.nodeIds, other ∉ second.nodeIds) →
        ∀ other ∈ second.nodeIds, other ∉ first.nodeIds :=
    fun apart other inSecond inFirst => apart other inFirst inSecond
  rw [stacked_perm.pairwise_iff symmetric, List.pairwise_map]
  exact (List.nodup_flatten.mp graph.components_connected.nodup).2.imp
    fun disjoint other inFirst inSecond => disjoint inFirst inSecond

theorem component_within {nodeIds : List String} (isComp : nodeIds ∈ graph.components) :
    ∀ nodeId ∈ nodeIds, nodeId ∈ graph.nodes.keys := fun nodeId member =>
  (graph.components_connected.members nodeId).mp (List.mem_flatten.mpr ⟨nodeIds, isComp, member⟩)

theorem stacked_extents (standard : graph.Standard) :
    ∀ comp ∈ stacked place options graph, 0 ≤ comp.extent (isVertical options) := by
  intro comp member
  obtain ⟨nodeIds, isComp, rfl⟩ := mem_stacked.mp member
  obtain ⟨nodeId, inComp⟩ := List.exists_mem_of_ne_nil _
    (graph.components_connected.nonempty nodeIds isComp)
  have boxed := layoutComponent_boxed place options standard (component_within isComp)
  have within := boxed.within inComp (isVertical options)
  have half := halfBox_pos (isVertical options)
  linarith

/-- A node of a component is where the component's offset puts it. -/
theorem get?_positions (several : 2 ≤ graph.components.length) {nodeIds : List String}
    (isComp : nodeIds ∈ graph.components) :
    ∃ offset, (layoutComponent place options graph nodeIds, offset) ∈
        offsets (isVertical options) marginStart (stacked place options graph) ∧
      ∀ nodeId ∈ nodeIds, (layoutWithSplitting place options graph).positions.get? nodeId =
        some (stackedPosition (isVertical options) offset
          (layoutComponent place options graph nodeIds) nodeId) := by
  obtain ⟨offset, placed⟩ := @mem_offsets (isVertical options) _ _
    (mem_stacked.mpr ⟨nodeIds, isComp, rfl⟩) marginStart
  refine ⟨offset, placed, fun nodeId member => ?_⟩
  rw [positions_eq_stack several]
  exact get?_stackComponents stacked_apart placed member OrderedMap.empty

/-- A component keeps its form: all its nodes move by the same distance. -/
theorem component_moves (several : 2 ≤ graph.components.length) {nodeIds : List String}
    (isComp : nodeIds ∈ graph.components) :
    ∃ dx dy, ∀ nodeId ∈ nodeIds,
      (layoutWithSplitting place options graph).positions.get? nodeId =
        some ⟨(place (layoutComponent place options graph nodeIds).handed nodeId).x + dx,
          (place (layoutComponent place options graph nodeIds).handed nodeId).y + dy⟩ := by
  obtain ⟨offset, _, found⟩ := @get?_positions place options graph several nodeIds isComp
  cases vertical : isVertical options with
  | true =>
      refine ⟨offset - (layoutComponent place options graph nodeIds).bbox.minX, 0, ?_⟩
      intro nodeId member
      obtain ⟨x, y⟩ := node_layoutComponent place options (component_within isComp) member
      rw [found nodeId member, vertical, stackedPosition, x, y, add_zero]
      rfl
  | false =>
      refine ⟨0, offset - (layoutComponent place options graph nodeIds).bbox.minY, ?_⟩
      intro nodeId member
      obtain ⟨x, y⟩ := node_layoutComponent place options (component_within isComp) member
      rw [found nodeId member, vertical, stackedPosition, x, y, add_zero]
      rfl

/-- Nodes of different components are apart by at least the room that the stack leaves. -/
theorem stack_gap (standard : graph.Standard) (several : 2 ≤ graph.components.length)
    {firstComp secondComp : List String} (isFirst : firstComp ∈ graph.components)
    (isSecond : secondComp ∈ graph.components) (different : firstComp ≠ secondComp)
    {first second : String} (inFirst : first ∈ firstComp) (inSecond : second ∈ secondComp)
    {p q : Point}
    (atFirst : (layoutWithSplitting place options graph).positions.get? first = some p)
    (atSecond : (layoutWithSplitting place options graph).positions.get? second = some q) :
    along (isVertical options) p + room (isVertical options) ≤ along (isVertical options) q ∨
      along (isVertical options) q + room (isVertical options) ≤ along (isVertical options) p := by
  obtain ⟨firstOffset, firstPlaced, firstFound⟩ := @get?_positions place options _ several _ isFirst
  obtain ⟨secondOffset, secondPlaced, secondFound⟩ :=
    @get?_positions place options _ several _ isSecond
  cases atFirst.symm.trans (firstFound first inFirst)
  cases atSecond.symm.trans (secondFound second inSecond)
  have firstWithin := (layoutComponent_boxed place options standard
    (component_within isFirst)).within inFirst (isVertical options)
  have secondWithin := (layoutComponent_boxed place options standard
    (component_within isSecond)).within inSecond (isVertical options)
  have apart : (layoutComponent place options graph firstComp, firstOffset) ≠
      (layoutComponent place options graph secondComp, secondOffset) := fun same =>
    different (congrArg (fun entry => entry.1.nodeIds) same)
  rw [along_stackedPosition, along_stackedPosition, room_eq]
  rcases earlier_or_later (stacked_extents standard) firstPlaced secondPlaced apart with gap | gap
  · left
    linarith
  · right
    linarith

/-- A component whose start is strictly the least of some is the first of them in order. -/
theorem first_of_least {measure : LaidOut → Rat} {comps : List LaidOut} {comp : LaidOut}
    (sorted : comps.Pairwise fun first second => measure first ≤ measure second)
    (member : comp ∈ comps) (least : ∀ other ∈ comps, other ≠ comp → measure comp < measure other) :
    ∃ rest, comps = comp :: rest := by
  cases comps with
  | nil => cases member
  | cons first rest =>
      rcases List.mem_cons.mp member with rfl | later
      · exact ⟨rest, rfl⟩
      · have below := (List.pairwise_cons.mp sorted).1 comp later
        by_cases same : first = comp
        · exact ⟨rest, by rw [same]⟩
        · exact absurd (least first List.mem_cons_self same) (not_lt.mpr below)

theorem stacked_sorted : (stacked place options graph).Pairwise fun first second =>
    first.start (isVertical options) ≤ second.start (isVertical options) := by
  have sorted : ∀ (measure : LaidOut → Rat) (comps : List LaidOut),
      (comps.insertionSort fun first second => measure first - measure second ≤ 0).Pairwise
        fun first second => measure first ≤ measure second := by
    intro measure comps
    have total : Std.Total fun first second : LaidOut => measure first - measure second ≤ 0 :=
      ⟨fun first second => by
        rcases le_total (measure first) (measure second) with le | le
        · exact .inl (by linarith)
        · exact .inr (by linarith)⟩
    have trans : IsTrans LaidOut fun first second => measure first - measure second ≤ 0 :=
      ⟨fun first second third left right => by linarith⟩
    exact (List.pairwise_insertionSort _ comps).imp fun ordered => by linarith
  rw [stacked, sortComponents]
  cases isVertical options with
  | true => exact sorted (fun comp => comp.bbox.minX) _
  | false => exact sorted (fun comp => comp.bbox.minY) _

theorem stacked_nodup : (stacked place options graph).Nodup := by
  have apart := @stacked_apart place options graph
  refine apart.imp_of_mem fun {first second} isFirst _ disjoint same => ?_
  subst same
  obtain ⟨nodeIds, isComp, rfl⟩ := mem_stacked.mp isFirst
  obtain ⟨nodeId, member⟩ := List.exists_mem_of_ne_nil _
    (graph.components_connected.nonempty nodeIds isComp)
  exact disjoint nodeId member member

end Stack

/-!
## Components that overlap
-/

/-- A library that puts the nodes of a graph at one point: first the graphs with the first
node, then those with the second, then the others. -/
def levelPlace (isVerticalFlow : Bool) (first second : String) (graph : Graph)
    (_ : String) : Point :=
  let level := if first ∈ graph.nodes.keys then -2 else if second ∈ graph.nodes.keys then -1 else 0
  if isVerticalFlow then ⟨level, 0⟩ else ⟨0, level⟩

theorem across_stackedPosition (isVerticalFlow : Bool) (offset : Rat) (comp : LaidOut)
    (nodeId : String) :
    across isVerticalFlow (stackedPosition isVerticalFlow offset comp nodeId) =
      across isVerticalFlow (comp.point nodeId) := by
  cases isVerticalFlow <;> rfl

section Level

variable {options : LayoutOptions} {graph : Graph} {first second : String}

/-- A component as such a library lays it out. -/
abbrev levelled (options : LayoutOptions) (graph : Graph) (first second : String)
    (nodeIds : List String) : LaidOut :=
  layoutComponent (levelPlace (isVertical options) first second) options graph nodeIds

theorem levelPlace_point {nodeIds : List String} (isComp : nodeIds ∈ graph.components)
    {nodeId : String} (member : nodeId ∈ nodeIds) :
    along (isVertical options) ((levelled options graph first second nodeIds).point nodeId) =
        (if first ∈ nodeIds then -2 else if second ∈ nodeIds then -1 else 0) ∧
      across (isVertical options) ((levelled options graph first second nodeIds).point nodeId) =
        0 := by
  obtain ⟨x, y⟩ := node_layoutComponent (levelPlace (isVertical options) first second) options
    (component_within isComp) member
  rw [LaidOut.point, x, y]
  cases isVertical options with
  | true => simp [along, across, levelPlace, mem_keys_handed _ _ (component_within isComp)]
  | false => simp [along, across, levelPlace, mem_keys_handed _ _ (component_within isComp)]

theorem levelPlace_box (standard : graph.Standard) {nodeIds : List String}
    (isComp : nodeIds ∈ graph.components) :
    (levelled options graph first second nodeIds).start (isVertical options) =
        (if first ∈ nodeIds then -2 else if second ∈ nodeIds then -1 else 0) -
          halfBox (isVertical options) ∧
      (levelled options graph first second nodeIds).extent (isVertical options) =
        2 * halfBox (isVertical options) := by
  have boxed := layoutComponent_boxed (levelPlace (isVertical options) first second) options
    standard (component_within isComp)
  exact boxed.level (graph.components_connected.nonempty nodeIds isComp)
    fun nodeId member => (levelPlace_point isComp member).1

/-- The components of the two nodes are stacked first. -/
theorem levelPlace_stacked (standard : graph.Standard) {firstComp secondComp : List String}
    (isFirst : firstComp ∈ graph.components) (isSecond : secondComp ∈ graph.components)
    (inFirst : first ∈ firstComp) (inSecond : second ∈ secondComp)
    (apart : ¬ graph.Connected first second) :
    ∃ rest, stacked (levelPlace (isVertical options) first second) options graph =
      levelled options graph first second firstComp ::
        levelled options graph first second secondComp :: rest := by
  have components := graph.components_connected
  have sorted := @stacked_sorted (levelPlace (isVertical options) first second) options graph
  have nodup := @stacked_nodup (levelPlace (isVertical options) first second) options graph
  have firstOutside : first ∉ secondComp := fun member =>
    apart ((components.connected secondComp isSecond first member second).mp inSecond)
  have firstStart := (@levelPlace_box options graph first second standard _ isFirst).1
  have secondStart := (@levelPlace_box options graph first second standard _ isSecond).1
  rw [if_pos inFirst] at firstStart
  rw [if_neg firstOutside, if_pos inSecond] at secondStart
  obtain ⟨others, firstOf⟩ := first_of_least sorted (mem_stacked.mpr ⟨firstComp, isFirst, rfl⟩) (by
    intro other member different
    obtain ⟨nodeIds, isComp, rfl⟩ := mem_stacked.mp member
    have outside : first ∉ nodeIds := fun inside =>
      different (by rw [components.unique isComp isFirst inside inFirst])
    rw [firstStart, (levelPlace_box standard isComp).1, if_neg outside]
    split <;> linarith)
  rw [firstOf] at sorted nodup
  have later : levelled options graph first second secondComp ∈ others := by
    have member : levelled options graph first second secondComp ∈
        stacked (levelPlace (isVertical options) first second) options graph :=
      mem_stacked.mpr ⟨secondComp, isSecond, rfl⟩
    rw [firstOf] at member
    rcases List.mem_cons.mp member with same | later
    · have comps : secondComp = firstComp := congrArg LaidOut.nodeIds same
      exact absurd (comps ▸ inFirst) firstOutside
    · exact later
  obtain ⟨rest, secondOf⟩ := first_of_least (List.pairwise_cons.mp sorted).2 later (by
    intro other member different
    have listed := List.mem_cons_of_mem (levelled options graph first second firstComp) member
    rw [← firstOf] at listed
    obtain ⟨nodeIds, isComp, rfl⟩ := mem_stacked.mp listed
    have withoutFirst : first ∉ nodeIds := fun inside =>
      (List.nodup_cons.mp nodup).1 (by rwa [← components.unique isComp isFirst inside inFirst])
    have withoutSecond : second ∉ nodeIds := fun inside =>
      different (by rw [components.unique isComp isSecond inside inSecond])
    rw [secondStart, (levelPlace_box standard isComp).1, if_neg withoutFirst, if_neg withoutSecond]
    linarith)
  exact ⟨rest, by rw [firstOf, secondOf]⟩

end Level

/-- A node that is larger than the room there is can overlap a node of another component. -/
theorem overlap_of_large {dims : DimensionConfig} {options : LayoutOptions} {graph : Graph}
    {first second : Node} (standard : graph.Standard) (several : 2 ≤ graph.components.length)
    (isFirst : first.id ∈ graph.nodes.keys) (isSecond : second.id ∈ graph.nodes.keys)
    (apart : ¬ graph.Connected first.id second.id)
    (large : room (isVertical options) < sizeAlong dims (isVertical options) first) :
    ∃ p q, (layoutWithSplitting (levelPlace (isVertical options) first.id second.id) options
        graph).positions.get? first.id = some p ∧
      (layoutWithSplitting (levelPlace (isVertical options) first.id second.id) options
        graph).positions.get? second.id = some q ∧ Overlap dims first second p q := by
  have components := graph.components_connected
  obtain ⟨firstComp, firstListed, inFirst⟩ :=
    List.mem_flatten.mp ((components.members first.id).mpr isFirst)
  obtain ⟨secondComp, secondListed, inSecond⟩ :=
    List.mem_flatten.mp ((components.members second.id).mpr isSecond)
  obtain ⟨rest, order⟩ :=
    @levelPlace_stacked options graph _ _ standard _ _ firstListed secondListed inFirst inSecond
      apart
  have firstOutside : first.id ∉ secondComp := fun member =>
    apart ((components.connected secondComp secondListed first.id member second.id).mp inSecond)
  have firstBox := @levelPlace_box options graph first.id second.id standard _ firstListed
  have secondBox := @levelPlace_box options graph first.id second.id standard _ secondListed
  have firstPoint := @levelPlace_point options graph first.id second.id _ firstListed _ inFirst
  have secondPoint := @levelPlace_point options graph first.id second.id _ secondListed _ inSecond
  have firstPlaced :
      (levelled options graph first.id second.id firstComp, marginStart) ∈ offsets (isVertical options) marginStart
        (stacked (levelPlace (isVertical options) first.id second.id) options graph) := by
    rw [order]
    exact List.mem_cons_self
  have secondPlaced : (levelled options graph first.id second.id secondComp,
      marginStart + (2 * halfBox (isVertical options) + subgraphSpacing)) ∈
        offsets (isVertical options) marginStart
          (stacked (levelPlace (isVertical options) first.id second.id) options graph) := by
    rw [order, ← firstBox.2]
    exact List.mem_cons_of_mem _ List.mem_cons_self
  have atFirst := get?_stackComponents stacked_apart firstPlaced inFirst OrderedMap.empty
  have atSecond := get?_stackComponents stacked_apart secondPlaced inSecond OrderedMap.empty
  rw [← positions_eq_stack several] at atFirst atSecond
  refine ⟨_, _, atFirst, atSecond, ?_⟩
  rw [if_pos inFirst] at firstBox firstPoint
  rw [if_neg firstOutside, if_pos inSecond] at secondBox secondPoint
  refine overlap_of_along (isVertical options) ?_ ?_ ?_
  · rw [across_stackedPosition, across_stackedPosition, firstPoint.2, secondPoint.2]
  · rw [along_stackedPosition, along_stackedPosition, firstPoint.1, secondPoint.1, firstBox.1,
      secondBox.1]
    have half := halfBox_pos (isVertical options)
    have size := sizeAlong_pos dims (isVertical options) second
    have spacing : (0 : Rat) < subgraphSpacing := by norm_num [subgraphSpacing]
    linarith
  · rw [along_stackedPosition, along_stackedPosition, firstPoint.1, secondPoint.1, firstBox.1,
      secondBox.1]
    rw [room_eq] at large
    linarith

/-!
## The tidy-up
-/

/-- A tidy-up, with the library placing the nodes of every component: a component keeps its
form, and no node overlaps one of another component. -/
structure Tidy (dims : DimensionConfig) (nodes : List Node) (graph : Graph)
    (options : LayoutOptions) (place : Graph → String → Point) : Prop where
  form : ∀ comp ∈ graph.components, ∃ dx dy, ∀ nodeId ∈ comp,
    (layoutWithSplitting place options graph).positions.get? nodeId =
      some ⟨(place (layoutComponent place options graph comp).handed nodeId).x + dx,
        (place (layoutComponent place options graph comp).handed nodeId).y + dy⟩
  apart : ∀ first ∈ nodes, ∀ second ∈ nodes, ¬ graph.Connected first.id second.id →
    ∀ p q, (layoutWithSplitting place options graph).positions.get? first.id = some p →
      (layoutWithSplitting place options graph).positions.get? second.id = some q →
        ¬ Overlap dims first second p q

/-- The nodes that have others outside their component fit in the room that is left for them. -/
def Fits (dims : DimensionConfig) (nodes : List Node) (graph : Graph)
    (options : LayoutOptions) : Prop :=
  ∀ first ∈ nodes, ∀ second ∈ nodes, ¬ graph.Connected first.id second.id →
    sizeAlong dims (isVertical options) first ≤ room (isVertical options)

theorem tidy_of_fits {dims : DimensionConfig} {nodes : List Node} {graph : Graph}
    {options : LayoutOptions} (standard : graph.Standard)
    (listed : ∀ node ∈ nodes, node.id ∈ graph.nodes.keys) (several : 2 ≤ graph.components.length)
    (fits : Fits dims nodes graph options) (place : Graph → String → Point) :
    Tidy dims nodes graph options place := by
  have components := graph.components_connected
  refine ⟨fun comp isComp => component_moves several isComp, ?_⟩
  intro first isFirst second isSecond apart p q atFirst atSecond overlap
  obtain ⟨firstComp, firstListed, inFirst⟩ :=
    List.mem_flatten.mp ((components.members first.id).mpr (listed first isFirst))
  obtain ⟨secondComp, secondListed, inSecond⟩ :=
    List.mem_flatten.mp ((components.members second.id).mpr (listed second isSecond))
  have different : firstComp ≠ secondComp := by
    rintro rfl
    exact apart
      ((components.connected firstComp firstListed first.id inFirst second.id).mp inSecond)
  obtain ⟨before, after⟩ := overlap.along (isVertical options)
  rcases stack_gap standard several firstListed secondListed different inFirst inSecond atFirst
    atSecond with gap | gap
  · linarith [fits first isFirst second isSecond apart]
  · linarith [fits second isSecond first isFirst fun connected => apart connected.symm]

theorem fits_of_tidy {dims : DimensionConfig} {nodes : List Node} {graph : Graph}
    {options : LayoutOptions} (standard : graph.Standard)
    (listed : ∀ node ∈ nodes, node.id ∈ graph.nodes.keys) (several : 2 ≤ graph.components.length)
    (tidy : ∀ place, Tidy dims nodes graph options place) : Fits dims nodes graph options := by
  intro first isFirst second isSecond apart
  by_contra large
  obtain ⟨p, q, atFirst, atSecond, overlap⟩ := overlap_of_large standard several
    (listed first isFirst) (listed second isSecond) apart (not_le.mp large)
  exact (tidy _).apart first isFirst second isSecond apart p q atFirst atSecond overlap

/-- Whatever the library does within the components, the tidy-up keeps them apart exactly when
the nodes fit in the room that is left for them. -/
theorem tidyUp_iff (dims : DimensionConfig) (nodes : List Node) (connections : List Connection)
    (options : LayoutOptions) (several : 2 ≤ (fromNodes nodes connections).components.length) :
    (∀ place, Tidy dims nodes (fromNodes nodes connections) options place) ↔
      Fits dims nodes (fromNodes nodes connections) options := by
  have standard := fromNodes_standard nodes connections
  have listed : ∀ node ∈ nodes, node.id ∈ (fromNodes nodes connections).nodes.keys :=
    fun _ member => mem_keys_fromNodes member
  exact ⟨fits_of_tidy standard listed several, tidy_of_fits standard listed several⟩

/-- Two unconnected nodes, the first with as many outputs as given. -/
def twoNodes (outputs : List String) : List Node := [
  { id := "n_1", x := 0, y := 0, inputs := ["data"], outputs := outputs },
  { id := "n_2", x := 0, y := 200, inputs := ["data"], outputs := ["result"] }]

theorem tidyUp_iff_twoNodes :
    (∀ place, Tidy defaultDimensions (twoNodes ["result"]) (fromNodes (twoNodes ["result"]) []) {}
      place) ↔
      Fits defaultDimensions (twoNodes ["result"]) (fromNodes (twoNodes ["result"]) []) {} :=
  tidyUp_iff defaultDimensions (twoNodes ["result"]) [] {} (by decide +kernel)

/-- The outputs of a node with ten sockets. -/
def tenOutputs : List String :=
  ["case_0", "case_1", "case_2", "case_3", "case_4", "case_5", "case_6", "case_7", "case_8",
    "case_9"]

/-- A node with ten outputs can reach into the component below it. -/
theorem tall_node_overlaps : ¬ ∀ place, Tidy defaultDimensions (twoNodes tenOutputs)
    (fromNodes (twoNodes tenOutputs) []) {} place := by
  intro tidy
  have fits := fits_of_tidy (fromNodes_standard _ _) (fun _ member => mem_keys_fromNodes member)
    (by decide +kernel) tidy
  have apart : ¬ (fromNodes (twoNodes tenOutputs) []).Connected "n_1" "n_2" := by
    intro connected
    rcases Relation.ReflTransGen.cases_head connected with same | ⟨_, step, _⟩
    · exact absurd same (by decide)
    · rcases step with outgoing | incoming
      · exact absurd (mem_edges_fromNodes.mp outgoing) (by simp)
      · exact absurd (mem_edges_fromNodes.mp incoming) (by simp)
  have small := fits _ List.mem_cons_self _ (List.mem_cons_of_mem _ List.mem_cons_self) apart
  revert small
  decide +kernel

end WorkflowStudio.Canvas
