import WorkflowStudio.Canvas.Dimensions
import WorkflowStudio.Canvas.Graphlib
import WorkflowStudio.Canvas.StructuralGraph
import WorkflowStudio.Lib.Extremes

/-! The tidy-up of the canvas: the graph of the nodes and connections, its back edges, and
the layout of the graph or, one after the other, of its connected components. -/

set_option autoImplicit false

namespace WorkflowStudio.Canvas

open Lib

/-!
## The graph
-/

/-- What `fromNodes` sorts by: roots first, then by position. -/
def compareNodes (connections : List Connection) (first second : Node) : Rat :=
  let firstIsRoot := inDegree connections first.id == 0
  let secondIsRoot := inDegree connections second.id == 0
  if firstIsRoot && !secondIsRoot then -1
  else if !firstIsRoot && secondIsRoot then 1
  else
    let yDiff := first.y - second.y
    if yDiff = 0 then first.x - second.x else yDiff

def initialConfig : GraphConfig where
  rankdir := "LR"
  nodesep := 120
  ranksep := 160
  edgesep := 120
  marginx := 50
  marginy := 50

/-- `WorkflowGraph.fromNodes`. -/
def fromNodes (nodes : List Node) (connections : List Connection) : Graph :=
  let sortedNodes := nodes.insertionSort fun first second =>
    compareNodes connections first second ≤ 0
  let graph := sortedNodes.foldl
    (fun graph node => graph.setNode node.id ⟨180, 80, node.x, node.y⟩) (Graph.new initialConfig)
  graph.setEdges (connections.map fun connection => (connection.source, connection.target))

structure LayoutOptions where
  rankdir : Option String := none
  nodesep : Option Rat := none
  ranksep : Option Rat := none

/-- `Object.assign(config, options)`. -/
def GraphConfig.assign (config : GraphConfig) (options : LayoutOptions) : GraphConfig :=
  { config with
    rankdir := options.rankdir.getD config.rankdir
    nodesep := options.nodesep.getD config.nodesep
    ranksep := options.ranksep.getD config.ranksep }

/-!
## Back edges
-/

/-- The walk of `dfs`. -/
def successorGraph (graph : Graph) : DepthFirst.Graph String String :=
  .ofSuccessors graph.successors

/-- The nodes without predecessors. -/
def rootIds (graph : Graph) : List String :=
  graph.nodeIds.filter fun nodeId => (graph.predecessors nodeId).isEmpty

/-- The visits from some nodes first and then from all. -/
def visitNodes (graph : Graph) (starts : List String) : Option (DepthFirst.State String String) :=
  let allNodes := graph.nodeIds
  (DepthFirst.visitAll (successorGraph graph) allNodes.length starts
    DepthFirst.State.initial).bind
      (DepthFirst.visitAll (successorGraph graph) allNodes.length allNodes)

def detectCycles (graph : Graph) : List (String × String) :=
  ((visitNodes graph (rootIds graph)).map DepthFirst.State.back).getD []

/-- `_detectCyclesInGraph`, which visits the nodes in their order. -/
def detectCyclesInGraph (graph : Graph) : List (String × String) :=
  ((visitNodes graph []).map DepthFirst.State.back).getD []

/-!
## Layouts
-/

abbrev Positions := OrderedMap String Point

def Graph.node (graph : Graph) (nodeId : String) : NodeLabel :=
  (graph.nodes.get? nodeId).getD ⟨0, 0, 0, 0⟩

section Layout

-- where the layout library puts the nodes of a graph
variable (place : Graph → String → Point)

/-- A layout of the whole canvas: the graphs that the library was given, the edges that were
taken out for it, the graphs after it, and the positions. -/
structure LayoutRun where
  handed : List Graph
  removed : List (String × String)
  laidOut : List Graph
  positions : Positions

def layout (options : LayoutOptions) (graph : Graph) : LayoutRun :=
  let graph := graph.setGraph (graph.config.assign options)
  let backEdges := detectCycles graph
  let handed := graph.removeEdges backEdges
  let graph := (dagreLayout place handed).setEdges backEdges
  let positions := graph.nodeIds.foldl (fun positions nodeId =>
    positions.set nodeId ⟨(graph.node nodeId).x, (graph.node nodeId).y⟩) OrderedMap.empty
  ⟨[handed], backEdges, [graph], positions⟩

def copyNode (graph subgraph : Graph) (nodeId : String) : Graph :=
  match graph.nodes.get? nodeId with
  | some label => subgraph.setNode nodeId label
  | none => subgraph

/-- `createSubgraph`. -/
def createSubgraph (graph : Graph) (nodeIds : List String) : Graph :=
  let subgraph := nodeIds.foldl (copyNode graph) (Graph.new graph.config)
  subgraph.setEdges (graph.edges.filter fun edge =>
    decide (edge.1 ∈ nodeIds) && decide (edge.2 ∈ nodeIds))

structure BoundingBox where
  minX : Rat
  minY : Rat
  maxX : Rat
  maxY : Rat
  width : Rat
  height : Rat

def halfW (label : NodeLabel) : Rat := (if label.width = 0 then 180 else label.width) / 2

def halfH (label : NodeLabel) : Rat := (if label.height = 0 then 80 else label.height) / 2

def getBoundingBox (graph : Graph) : BoundingBox :=
  match graph.nodeIds.map graph.node with
  | [] => ⟨0, 0, 0, 0, 0, 0⟩
  | first :: rest =>
      let minX := leastOf (fun label : NodeLabel => label.x - halfW label) first rest
      let minY := leastOf (fun label : NodeLabel => label.y - halfH label) first rest
      let maxX := greatestOf (fun label : NodeLabel => label.x + halfW label) first rest
      let maxY := greatestOf (fun label : NodeLabel => label.y + halfH label) first rest
      ⟨minX, minY, maxX, maxY, maxX - minX, maxY - minY⟩

/-- A component after its layout. -/
structure LaidOut where
  nodeIds : List String
  handed : Graph
  removed : List (String × String)
  graph : Graph
  bbox : BoundingBox

/-- One round of the loop over the components. -/
def layoutComponent (options : LayoutOptions) (graph : Graph) (nodeIds : List String) : LaidOut :=
  let subgraph := createSubgraph graph nodeIds
  let subgraph := subgraph.setGraph (subgraph.config.assign options)
  let backEdges := detectCyclesInGraph subgraph
  let handed := subgraph.removeEdges backEdges
  let subgraph := (dagreLayout place handed).setEdges backEdges
  ⟨nodeIds, handed, backEdges, subgraph, getBoundingBox subgraph⟩

def subgraphSpacing : Rat := 160

def marginStart : Rat := 50

/-- Where a node of a component goes when the component starts at the offset. -/
def stackedPosition (isVerticalFlow : Bool) (offset : Rat) (comp : LaidOut) (nodeId : String) :
    Point :=
  let node := comp.graph.node nodeId
  ⟨if isVerticalFlow then node.x + (offset - comp.bbox.minX) else node.x,
    if isVerticalFlow then node.y else node.y + (offset - comp.bbox.minY)⟩

/-- The components one after the other, from the offset on. -/
def stackComponents (isVerticalFlow : Bool) : Rat → List LaidOut → Positions → Positions
  | _, [], positions => positions
  | offset, comp :: comps, positions =>
      stackComponents isVerticalFlow
        (offset + ((if isVerticalFlow then comp.bbox.width else comp.bbox.height) +
          subgraphSpacing)) comps
        (comp.nodeIds.foldl (fun positions nodeId =>
          positions.set nodeId (stackedPosition isVerticalFlow offset comp nodeId)) positions)

/-- The components in the order in which they are stacked. -/
def sortComponents (isVerticalFlow : Bool) (comps : List LaidOut) : List LaidOut :=
  if isVerticalFlow then
    comps.insertionSort fun first second => first.bbox.minX - second.bbox.minX ≤ 0
  else comps.insertionSort fun first second => first.bbox.minY - second.bbox.minY ≤ 0

def isVertical (options : LayoutOptions) : Bool := options.rankdir == some "TB"

def layoutWithSplitting (options : LayoutOptions) (graph : Graph) : LayoutRun :=
  let components := graph.components
  if components.length ≤ 1 then layout place options graph
  else
    let comps := components.map (layoutComponent place options graph)
    let positions := stackComponents (isVertical options) marginStart
      (sortComponents (isVertical options) comps) OrderedMap.empty
    ⟨comps.map LaidOut.handed, comps.flatMap LaidOut.removed, comps.map LaidOut.graph, positions⟩

structure TidyOptions where
  orientation : Option String := none
  ranksep : Option Rat := none

def calculateTidyPositions (nodes : List Node) (connections : List Connection)
    (options : TidyOptions) : Positions :=
  if nodes.isEmpty then OrderedMap.empty
  else
    let rankdir := if options.orientation = some "vertical" then "TB" else "LR"
    let layoutOptions : LayoutOptions :=
      { rankdir := some rankdir, ranksep := options.ranksep.map fun ranksep => max 1 ranksep }
    (layoutWithSplitting place layoutOptions (fromNodes nodes connections)).positions

end Layout

end WorkflowStudio.Canvas
