import Mathlib.Algebra.Order.Ring.Unbundled.Rat
import Mathlib.Data.Rat.Defs

/-! The sizes with which nodes are drawn on the canvas. -/

set_option autoImplicit false

namespace WorkflowStudio.Canvas

/-- A node on the canvas, with the keys of its sockets. A missing coordinate is 0. -/
structure Node where
  id : String
  x : Rat
  y : Rat
  inputs : List String
  outputs : List String
  deriving DecidableEq

/-- The dimensions of an editor; nodes have some width and height. -/
structure DimensionConfig where
  nodeWidth : Rat := 240
  nodeChromeMinHeight : Rat := 68
  socketPitch : Rat := 24
  socketClearanceY : Rat := 10
  socketMinRows : Rat := 2
  width_pos : 0 < nodeWidth := by decide
  height_pos : 0 < nodeChromeMinHeight := by decide

def defaultDimensions : DimensionConfig := {}

namespace DimensionConfig

def getSocketRowCount (node : Node) : Nat := max node.inputs.length node.outputs.length

def getSocketLayoutRowCount (dims : DimensionConfig) (node : Node) : Rat :=
  let rowCount := getSocketRowCount node
  if rowCount = 0 then 0 else max (rowCount : Rat) dims.socketMinRows

def getSocketDrivenMinHeight (dims : DimensionConfig) (node : Node) : Rat :=
  let layoutRowCount := dims.getSocketLayoutRowCount node
  if layoutRowCount = 0 then 0
  else layoutRowCount * dims.socketPitch + dims.socketClearanceY * 2

def getNodeMinHeight (dims : DimensionConfig) (node : Node) : Rat :=
  max dims.nodeChromeMinHeight (dims.getSocketDrivenMinHeight node)

def estimateNodeHeight (dims : DimensionConfig) (node : Node) : Rat := dims.getNodeMinHeight node

theorem estimateNodeHeight_pos (dims : DimensionConfig) (node : Node) :
    0 < dims.estimateNodeHeight node := dims.height_pos.trans_le (le_max_left _ _)

end DimensionConfig

end WorkflowStudio.Canvas
