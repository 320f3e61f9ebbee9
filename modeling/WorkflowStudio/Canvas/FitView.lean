import WorkflowStudio.Canvas.Dimensions
import WorkflowStudio.Lib.Extremes

/-! The viewport that fits the nodes into the canvas. -/

set_option autoImplicit false

namespace WorkflowStudio.Canvas

open Lib

structure CanvasRect where
  width : Rat
  height : Rat

structure Viewport where
  zoom : Rat
  panX : Rat
  panY : Rat
  deriving DecidableEq

structure ScreenPoint where
  x : Rat
  y : Rat
  deriving DecidableEq

def canvasToScreen (canvasX canvasY : Rat) (viewport : Viewport) : ScreenPoint :=
  ⟨canvasX * viewport.zoom + viewport.panX, canvasY * viewport.zoom + viewport.panY⟩

structure FitOptions where
  padding : Option Rat := none
  mode : Option String := none
  topOffsetPx : Option Rat := none

/-!
## The options as they are used
-/

def FitOptions.fitPadding (options : FitOptions) : Rat := options.padding.getD 50

def FitOptions.fitMode (options : FitOptions) : String :=
  match options.mode with
  | none => "contain"
  | some mode => if mode = "" then "contain" else mode

def FitOptions.fitTop (options : FitOptions) : Rat := max 0 (options.topOffsetPx.getD 0)

/-!
## The viewport
-/

def getFitZoom (mode : String) (canvasRect : CanvasRect)
    (contentWidth contentHeight topOffsetPx : Rat) : Rat :=
  let availableHeight := max (canvasRect.height - topOffsetPx) 1
  let widthZoom := canvasRect.width / contentWidth
  let heightZoom := availableHeight / contentHeight
  if mode = "cover-width" then min widthZoom 1
  else if mode = "cover-height" then min heightZoom 1
  else min (min widthZoom heightZoom) 1

structure Bounds where
  minX : Rat
  maxX : Rat
  minY : Rat
  maxY : Rat

def nodesBounds (dims : DimensionConfig) (first : Node) (rest : List Node) : Bounds where
  minX := leastOf Node.x first rest
  maxX := greatestOf (fun node => node.x + dims.nodeWidth) first rest
  minY := leastOf Node.y first rest
  maxY := greatestOf (fun node => node.y + dims.estimateNodeHeight node) first rest

/-- `calculateFitView`, `none` for no nodes and no canvas. -/
def calculateFitView (nodes : List Node) (dims : DimensionConfig)
    (canvasRect : Option CanvasRect) (options : FitOptions) : Option Viewport :=
  match nodes, canvasRect with
  | first :: rest, some canvasRect =>
      let padding := options.fitPadding
      let mode := options.fitMode
      let topOffsetPx := options.fitTop
      let bounds := nodesBounds dims first rest
      let contentWidth := max (bounds.maxX - bounds.minX + padding * 2) 1
      let contentHeight := max (bounds.maxY - bounds.minY + padding * 2) 1
      let zoom := getFitZoom mode canvasRect contentWidth contentHeight topOffsetPx
      let topOffsetWorld := topOffsetPx / zoom
      let availableHeightWorld := max ((canvasRect.height - topOffsetPx) / zoom) 1
      let centerYOffset := (availableHeightWorld - contentHeight) / 2
      let fitTopOffset := if mode = "cover-width" then 0 else centerYOffset
      some {
        zoom := zoom
        panX := canvasRect.width / 2 - (bounds.minX + bounds.maxX) / 2 * zoom
        panY := -bounds.minY + padding + topOffsetWorld + fitTopOffset }
  | _, _ => none

end WorkflowStudio.Canvas
