import Mathlib.Data.String.Basic
import WorkflowStudio.Lib.DepthFirst
import WorkflowStudio.Lib.Search

/-! The connections of a workflow without those that lead back into a loop, and the nodes
before a node along them. -/

set_option autoImplicit false

namespace WorkflowStudio.Canvas

open Lib

/-- A connection. An empty text stands for a field that is missing. -/
structure Connection where
  id : String
  source : String
  sourceHandle : String
  sourceSocket : String
  target : String
  targetHandle : String
  targetSocket : String
  deriving DecidableEq

def normalizeConnections (connections : List Connection) : List Connection :=
  connections.filter fun connection =>
    decide (connection.source ≠ "") && decide (connection.target ≠ "")

def getConnectionKey (connection : Connection) : String :=
  if connection.id ≠ "" then connection.id
  else
    "=>".intercalate [
      connection.source,
      if connection.sourceHandle ≠ "" then connection.sourceHandle else connection.sourceSocket,
      connection.target,
      if connection.targetHandle ≠ "" then connection.targetHandle else connection.targetSocket]

def forwardAdjacency (connections : List Connection) (nodeId : String) : List Connection :=
  (normalizeConnections connections).filter fun connection => decide (connection.source = nodeId)

def reverseAdjacency (connections : List Connection) (nodeId : String) : List String :=
  ((normalizeConnections connections).filter fun connection =>
    decide (connection.target = nodeId)).map Connection.source

def sourceIdEqualsTarget (sourceId targetId : String) : Bool := sourceId == targetId

/-- The ends of the connections, in the order in which they are met. -/
def connectedIds (normalized : List Connection) : List String :=
  (normalized.flatMap fun connection => [connection.source, connection.target]).eraseDups

def inDegree (normalized : List Connection) (nodeId : String) : Nat :=
  normalized.countP fun connection => decide (connection.target = nodeId)

def rootNodeIds (normalized : List Connection) : List String :=
  (connectedIds normalized).filter fun nodeId => decide (inDegree normalized nodeId = 0)

/-- The graph that `visit` walks over. A connection leads back if it ends at its own source
or at a node that is in the stack. -/
def connectionGraph (normalized : List Connection) : DepthFirst.Graph String Connection where
  edges := forwardAdjacency normalized
  target := Connection.target
  leadsBack nodeId inStack connection :=
    sourceIdEqualsTarget nodeId connection.target || decide (connection.target ∈ inStack)
  leadsBack_iff := by
    intro nodeId inStack connection member
    rw [Bool.or_eq_true, decide_eq_true_eq, sourceIdEqualsTarget, beq_iff_eq]
    constructor
    · rintro (rfl | inStack)
      · exact member
      · exact inStack
    · exact .inr

/-- The visits from the roots and then from all nodes. A visit marks a node, so their number
bounds the depth. -/
def backEdgeSearch (normalized : List Connection) :
    Option (DepthFirst.State String Connection) :=
  let nodeIds := connectedIds normalized
  let graph := connectionGraph normalized
  (DepthFirst.visitAll graph nodeIds.length (rootNodeIds normalized)
    DepthFirst.State.initial).bind (DepthFirst.visitAll graph nodeIds.length nodeIds)

def getBackEdgeKeySet (connections : List Connection) : List String :=
  match backEdgeSearch (normalizeConnections connections) with
  | some state => state.back.map fun found => getConnectionKey found.2
  | none => []

def getStructuralConnections (connections : List Connection) : List Connection :=
  let normalized := normalizeConnections connections
  let backEdgeKeys := getBackEdgeKeySet normalized
  normalized.filter fun connection =>
    !sourceIdEqualsTarget connection.source connection.target &&
      !decide (getConnectionKey connection ∈ backEdgeKeys)

def getStructuralParentIds (connections : List Connection) (nodeId : String) : List String :=
  if nodeId = "" then []
  else reverseAdjacency (getStructuralConnections connections) nodeId

/-- The node itself is visited from the start, and no predecessor. A node is queued at most
once, and every queued parent is the source of a connection. -/
def getStructuralPredecessorIds (connections : List Connection) (nodeId : String) : List String :=
  if nodeId = "" then []
  else
    let structural := getStructuralConnections connections
    match Search.search (reverseAdjacency structural) (structural.length + 1) [nodeId] [nodeId] with
    | some visited => visited.tail
    | none => []

end WorkflowStudio.Canvas
