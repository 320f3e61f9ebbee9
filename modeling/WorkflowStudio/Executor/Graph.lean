import WorkflowStudio.Data.Value
import WorkflowStudio.Lib.OrderedMap
import WorkflowStudio.Lib.Search

/-!
# Executor graph

The snapshot an executor runs, the lookup structures `_build_graph` derives
from it, the start nodes of a run and of a preview, and the ancestor search.
-/

set_option autoImplicit false

namespace WorkflowStudio.Executor

open Lib

/-- A node of a snapshot. `metaFields` is the `meta` dictionary, empty when the key is absent or null. -/
structure Node where
  id : String
  type : String
  label : Option String
  metaFields : List (String × Value)
  config : List (String × Value)
  deriving DecidableEq

/-- A connection of a snapshot; any key may be absent. `sourceHandle` keeps an
absent key (`none`) apart from a null handle (`some none`), since only an
absent key takes the default of `conn.get("sourceHandle", "output")`. -/
structure Connection where
  id : Option String
  source : Option String
  sourceHandle : Option (Option String)
  target : Option String
  targetHandle : Option String
  deriving DecidableEq

structure Snapshot where
  nodes : List Node
  connections : List Connection
  deriving DecidableEq

def present (text : Option String) : Option String := text.filter (fun value => value != "")

@[simp] theorem present_eq_some {text : Option String} {value : String} :
    present text = some value ↔ text = some value ∧ value ≠ "" := by
  simp [present, Option.filter_eq_some_iff]

namespace Snapshot

/-- `self.nodes`: a later node of one id replaces an earlier one. -/
def nodesById (snapshot : Snapshot) : OrderedMap String Node :=
  OrderedMap.ofList (snapshot.nodes.map fun node => (node.id, node))

theorem mem_of_nodesById {snapshot : Snapshot} {nodeId : String} {node : Node}
    (found : snapshot.nodesById.get? nodeId = some node) :
    node ∈ snapshot.nodes ∧ node.id = nodeId := by
  obtain ⟨listed, member, same⟩ := List.mem_map.mp (OrderedMap.mem_of_get?_ofList found)
  cases same
  exact ⟨member, rfl⟩

theorem id_of_nodesById {snapshot : Snapshot} {nodeId : String} {node : Node}
    (found : snapshot.nodesById.get? nodeId = some node) : node.id = nodeId :=
  (mem_of_nodesById found).2

def connectionsBySource (snapshot : Snapshot) (nodeId : String) : List Connection :=
  snapshot.connections.filter fun conn => decide (present conn.source = some nodeId)

def reverseAdj (snapshot : Snapshot) (target : String) : List String :=
  (snapshot.connections.filter fun conn => decide (present conn.target = some target)).filterMap
    fun conn => present conn.source

def hasIncoming (snapshot : Snapshot) (nodeId : String) : Bool :=
  snapshot.connections.any fun conn => decide (present conn.target = some nodeId)

def isNodeDisabled (snapshot : Snapshot) (nodeId : String) : Bool :=
  match snapshot.nodesById.get? nodeId with
  | none => false
  | some node => ((node.metaFields.lookup "disabled").getD .none).truthy

/-- `_find_start_nodes`: the enabled nodes without incoming connections, in
node order, or the error that explains why there is none. -/
def findStartNodes (snapshot : Snapshot) : Except String (List String) :=
  let allStarts := snapshot.nodesById.keys.filter fun nodeId => !snapshot.hasIncoming nodeId
  match allStarts.filter fun nodeId => !snapshot.isNodeDisabled nodeId with
  | [] =>
      if allStarts.isEmpty then
        .error "Workflow must have at least one start node (a node without incoming connections)."
      else
        .error "All start nodes are disabled. Enable at least one start node to execute."
  | startNodes => .ok startNodes

/-- `_get_node_ancestors`. A node is queued at most once, and each queued
parent is the source of a connection, which bounds the rounds of the loop. -/
def getNodeAncestors (snapshot : Snapshot) (targetNodeId : String) : List String :=
  (Search.search snapshot.reverseAdj (snapshot.connections.length + 1) [targetNodeId] []).getD []

def findStartNodesForTarget (snapshot : Snapshot) (targetNodeId : String) :
    Except String (List String) :=
  match snapshot.findStartNodes with
  | .error message => .error message
  | .ok startNodes =>
      if targetNodeId = "" then .ok startNodes
      else
        let ancestors := targetNodeId :: snapshot.getNodeAncestors targetNodeId
        match startNodes.filter fun nodeId => decide (nodeId ∈ ancestors) with
        | [] => if targetNodeId ∈ startNodes then .ok [targetNodeId] else .ok startNodes
        | filtered => .ok filtered

def Connects (snapshot : Snapshot) (source target : String) : Prop :=
  ∃ conn ∈ snapshot.connections,
    present conn.source = some source ∧ present conn.target = some target

/-- A node is the target or has a path of connections to it. -/
def Reaches (snapshot : Snapshot) (source target : String) : Prop :=
  Relation.ReflTransGen snapshot.Connects source target

theorem mem_reverseAdj_iff {snapshot : Snapshot} {source target : String} :
    source ∈ snapshot.reverseAdj target ↔ snapshot.Connects source target := by
  simp only [reverseAdj, Connects, List.mem_filterMap, List.mem_filter, decide_eq_true_eq]
  constructor
  · rintro ⟨conn, ⟨member, toTarget⟩, fromSource⟩
    exact ⟨conn, member, fromSource, toTarget⟩
  · rintro ⟨conn, member, fromSource, toTarget⟩
    exact ⟨conn, ⟨member, toTarget⟩, fromSource⟩

theorem search_finishes (snapshot : Snapshot) (targetNodeId : String) :
    ∃ result, Search.search snapshot.reverseAdj (snapshot.connections.length + 1)
      [targetNodeId] [] = some result := by
  apply Search.search_total _
    (snapshot.connections.filterMap fun conn => present conn.source).toFinset
  · intro nodeId parent edge
    obtain ⟨conn, member, fromParent, _⟩ := mem_reverseAdj_iff.mp edge
    exact List.mem_toFinset.mpr (List.mem_filterMap.mpr ⟨conn, member, fromParent⟩)
  · have sources := List.toFinset_card_le
      (snapshot.connections.filterMap fun conn => present conn.source)
    have filtered := List.length_filterMap_le
      (fun conn : Connection => present conn.source) snapshot.connections
    simp only [List.toFinset_nil, Finset.sdiff_empty, List.length_singleton]
    omega

/-- The ancestor search ends and finds exactly the nodes with a non-empty
path to the target, whatever cycles the graph has. -/
theorem mem_getNodeAncestors_iff {snapshot : Snapshot} {nodeId targetNodeId : String} :
    nodeId ∈ snapshot.getNodeAncestors targetNodeId ↔
      Relation.TransGen snapshot.Connects nodeId targetNodeId := by
  obtain ⟨result, finished⟩ := search_finishes snapshot targetNodeId
  rw [getNodeAncestors, finished, Option.getD_some, Search.mem_search_iff finished,
    ← Relation.transGen_swap]
  have same : (Function.swap fun a b => b ∈ snapshot.reverseAdj a) = snapshot.Connects := by
    funext source target
    exact propext mem_reverseAdj_iff
  rw [same]

theorem mem_ancestors_iff_reaches {snapshot : Snapshot} {nodeId targetNodeId : String} :
    nodeId ∈ targetNodeId :: snapshot.getNodeAncestors targetNodeId ↔
      snapshot.Reaches nodeId targetNodeId := by
  rw [List.mem_cons, mem_getNodeAncestors_iff, Reaches, Relation.reflTransGen_iff_eq_or_transGen]
  exact or_congr_left eq_comm

end Snapshot

end WorkflowStudio.Executor
