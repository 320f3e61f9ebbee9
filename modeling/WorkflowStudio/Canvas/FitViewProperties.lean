import Mathlib.Algebra.Order.Field.Basic
import Mathlib.Algebra.Order.Field.Rat
import Mathlib.Tactic.FieldSimp
import Mathlib.Tactic.Linarith
import Mathlib.Tactic.Ring
import WorkflowStudio.Canvas.FitView

/-! The fitted viewport shows every node exactly when its vertical pan, which mixes lengths on
the screen with lengths on the canvas, draws the content near the middle of the free area. The
horizontal pan always does. -/

set_option autoImplicit false

namespace WorkflowStudio.Canvas

open Lib

/-- The node is drawn inside the canvas, and below the reserved area. -/
structure Shown (dims : DimensionConfig) (canvasRect : CanvasRect) (topOffsetPx : Rat)
    (viewport : Viewport) (node : Node) : Prop where
  left : 0 ≤ (canvasToScreen node.x node.y viewport).x
  right : (canvasToScreen (node.x + dims.nodeWidth) (node.y + dims.estimateNodeHeight node)
    viewport).x ≤ canvasRect.width
  top : topOffsetPx ≤ (canvasToScreen node.x node.y viewport).y
  bottom : (canvasToScreen (node.x + dims.nodeWidth) (node.y + dims.estimateNodeHeight node)
    viewport).y ≤ canvasRect.height

/-!
## The content
-/

/-- The scale, at most 1, at which the content and its padding fit in the free area. -/
def contentScale (bounds : Bounds) (canvasRect : CanvasRect) (padding top : Rat) : Rat :=
  min (min (canvasRect.width / max (bounds.maxX - bounds.minX + padding * 2) 1)
    (max (canvasRect.height - top) 1 / max (bounds.maxY - bounds.minY + padding * 2) 1)) 1

/-- How far from the middle of the free area the centre of the content is drawn. -/
def centreOffset (bounds : Bounds) (canvasRect : CanvasRect) (padding top : Rat) : Rat :=
  let scale := contentScale bounds canvasRect padding top
  let height := bounds.maxY - bounds.minY
  top / scale + max ((canvasRect.height - top) / scale) 1 / 2 +
    (height + padding * 2 - max (height + padding * 2) 1) / 2 -
    (top + canvasRect.height) / 2 - (1 - scale) * ((bounds.minY + bounds.maxY) / 2)

/-- The content is drawn no further from the middle than half of what it leaves free. -/
def Centred (bounds : Bounds) (canvasRect : CanvasRect) (padding top : Rat) : Prop :=
  |centreOffset bounds canvasRect padding top| ≤
    (canvasRect.height - top - contentScale bounds canvasRect padding top *
      (bounds.maxY - bounds.minY)) / 2

section Content

variable {bounds : Bounds} {canvasRect : CanvasRect} {padding top : Rat}

theorem contentScale_pos (width_pos : 0 < canvasRect.width) :
    0 < contentScale bounds canvasRect padding top := by
  have one : (0 : Rat) < 1 := by norm_num
  have wide : 0 < max (bounds.maxX - bounds.minX + padding * 2) 1 := one.trans_le (le_max_right _ _)
  have high : 0 < max (bounds.maxY - bounds.minY + padding * 2) 1 := one.trans_le (le_max_right _ _)
  have free : 0 < max (canvasRect.height - top) 1 := one.trans_le (le_max_right _ _)
  exact lt_min (lt_min (div_pos width_pos wide) (div_pos free high)) one

/-- Scaled, the content is at most as wide as the canvas. -/
theorem contentScale_width (width_pos : 0 < canvasRect.width) (padding_nonneg : 0 ≤ padding) :
    contentScale bounds canvasRect padding top * (bounds.maxX - bounds.minX) ≤
      canvasRect.width := by
  have one : (0 : Rat) < 1 := by norm_num
  have wide : 0 < max (bounds.maxX - bounds.minX + padding * 2) 1 := one.trans_le (le_max_right _ _)
  have scale : contentScale bounds canvasRect padding top ≤
      canvasRect.width / max (bounds.maxX - bounds.minX + padding * 2) 1 :=
    (min_le_left _ _).trans (min_le_left _ _)
  have padded : bounds.maxX - bounds.minX ≤ max (bounds.maxX - bounds.minX + padding * 2) 1 :=
    le_trans (by linarith) (le_max_left _ _)
  calc contentScale bounds canvasRect padding top * (bounds.maxX - bounds.minX)
      ≤ contentScale bounds canvasRect padding top *
          max (bounds.maxX - bounds.minX + padding * 2) 1 :=
        mul_le_mul_of_nonneg_left padded (contentScale_pos width_pos).le
    _ ≤ canvasRect.width := (le_div_iff₀ wide).mp scale

end Content

/-!
## The viewport
-/

def containView (bounds : Bounds) (canvasRect : CanvasRect) (padding top : Rat) : Viewport where
  zoom := contentScale bounds canvasRect padding top
  panX := canvasRect.width / 2 -
    (bounds.minX + bounds.maxX) / 2 * contentScale bounds canvasRect padding top
  panY := -bounds.minY + padding + top / contentScale bounds canvasRect padding top +
    (max ((canvasRect.height - top) / contentScale bounds canvasRect padding top) 1 -
      max (bounds.maxY - bounds.minY + padding * 2) 1) / 2

theorem calculateFitView_contain {options : FitOptions} (contain : options.fitMode = "contain")
    (first : Node) (rest : List Node) (dims : DimensionConfig) (canvasRect : CanvasRect) :
    calculateFitView (first :: rest) dims (some canvasRect) options =
      some (containView (nodesBounds dims first rest) canvasRect options.fitPadding
        options.fitTop) := by
  simp only [calculateFitView, contain, getFitZoom, containView, contentScale,
    if_neg (by decide : ¬ "contain" = "cover-width"),
    if_neg (by decide : ¬ "contain" = "cover-height")]

section View

variable {bounds : Bounds} {canvasRect : CanvasRect} {padding top : Rat}

theorem containView_left (width_pos : 0 < canvasRect.width) (padding_nonneg : 0 ≤ padding)
    {x : Rat} (inside : bounds.minX ≤ x) :
    0 ≤ x * (containView bounds canvasRect padding top).zoom +
      (containView bounds canvasRect padding top).panX := by
  have width := @contentScale_width bounds canvasRect padding top width_pos padding_nonneg
  have moved := mul_le_mul_of_nonneg_right inside
    (@contentScale_pos bounds canvasRect padding top width_pos).le
  simp only [containView]
  linarith

theorem containView_right (width_pos : 0 < canvasRect.width) (padding_nonneg : 0 ≤ padding)
    {x : Rat} (inside : x ≤ bounds.maxX) :
    x * (containView bounds canvasRect padding top).zoom +
      (containView bounds canvasRect padding top).panX ≤ canvasRect.width := by
  have width := @contentScale_width bounds canvasRect padding top width_pos padding_nonneg
  have moved := mul_le_mul_of_nonneg_right inside
    (@contentScale_pos bounds canvasRect padding top width_pos).le
  simp only [containView]
  linarith

/-- The upper and the lower edge of the content are drawn in the free area exactly when the
content is centred. -/
theorem containView_centred_iff :
    (top ≤ bounds.minY * (containView bounds canvasRect padding top).zoom +
        (containView bounds canvasRect padding top).panY ∧
      bounds.maxY * (containView bounds canvasRect padding top).zoom +
        (containView bounds canvasRect padding top).panY ≤ canvasRect.height) ↔
      Centred bounds canvasRect padding top := by
  rw [Centred, abs_le]
  simp only [containView, centreOffset]
  constructor
  · rintro ⟨upper, lower⟩
    constructor
    · linarith
    · linarith
  · rintro ⟨upper, lower⟩
    constructor
    · linarith
    · linarith

end View

/-- Fit to view fits exactly when the content is centred. -/
theorem fitView_shows_iff (first : Node) (rest : List Node) (dims : DimensionConfig)
    (canvasRect : CanvasRect) (options : FitOptions) (contain : options.fitMode = "contain")
    (padding_nonneg : 0 ≤ options.fitPadding) (width_pos : 0 < canvasRect.width) :
    (∃ viewport, calculateFitView (first :: rest) dims (some canvasRect) options = some viewport ∧
      ∀ node ∈ first :: rest, Shown dims canvasRect options.fitTop viewport node) ↔
      Centred (nodesBounds dims first rest) canvasRect options.fitPadding options.fitTop := by
  rw [calculateFitView_contain contain]
  simp only [Option.some.injEq, exists_eq_left']
  rw [← containView_centred_iff]
  have zoom := @contentScale_pos (nodesBounds dims first rest) canvasRect options.fitPadding
    options.fitTop width_pos
  constructor
  · intro shown
    obtain ⟨highest, highestListed, minY⟩ := @leastOf_attained _ _ _ Node.y first rest
    obtain ⟨lowest, lowestListed, maxY⟩ := @greatestOf_attained _ _ _
      (fun node : Node => node.y + dims.estimateNodeHeight node) first rest
    constructor
    · have top := (shown highest highestListed).top
      rw [canvasToScreen, ← minY] at top
      exact top
    · have bottom := (shown lowest lowestListed).bottom
      rw [canvasToScreen, ← maxY] at bottom
      exact bottom
  · rintro ⟨upper, lower⟩ node listed
    have minX : (nodesBounds dims first rest).minX ≤ node.x := leastOf_le listed
    have maxX : node.x + dims.nodeWidth ≤ (nodesBounds dims first rest).maxX :=
      @le_greatestOf _ _ _ (fun node : Node => node.x + dims.nodeWidth) _ _ _ listed
    have minY : (nodesBounds dims first rest).minY ≤ node.y := leastOf_le listed
    have maxY : node.y + dims.estimateNodeHeight node ≤ (nodesBounds dims first rest).maxY :=
      @le_greatestOf _ _ _ (fun node : Node => node.y + dims.estimateNodeHeight node) _ _ _ listed
    refine ⟨containView_left width_pos padding_nonneg minX,
      containView_right width_pos padding_nonneg maxX, ?_, ?_⟩
    · exact upper.trans (add_le_add_left (mul_le_mul_of_nonneg_right minY zoom.le) _)
    · exact (add_le_add_left (mul_le_mul_of_nonneg_right maxY zoom.le) _).trans lower

/-- A node with one input and one output. -/
def nodeAt (id : String) (x y : Rat) : Node :=
  { id := id, x := x, y := y, inputs := ["data"], outputs := ["result"] }

theorem fitView_shows_iff_origin :
    (∃ viewport, calculateFitView [nodeAt "n_1" 0 0] defaultDimensions (some ⟨800, 600⟩) {} =
        some viewport ∧
      ∀ node ∈ [nodeAt "n_1" 0 0], Shown defaultDimensions ⟨800, 600⟩ 0 viewport node) ↔
      Centred (nodesBounds defaultDimensions (nodeAt "n_1" 0 0) []) ⟨800, 600⟩ 50 0 :=
  fitView_shows_iff (nodeAt "n_1" 0 0) [] defaultDimensions ⟨800, 600⟩ {} rfl (by decide)
    (by decide)

/-- Two nodes 2000 apart, the first 1000 below the origin, leave the canvas at its upper edge. -/
theorem displaced_content_leaves :
    ¬ ∃ viewport, calculateFitView [nodeAt "n_1" 0 1000, nodeAt "n_2" 0 3000] defaultDimensions
        (some ⟨800, 600⟩) {} = some viewport ∧
      ∀ node ∈ [nodeAt "n_1" 0 1000, nodeAt "n_2" 0 3000],
        Shown defaultDimensions ⟨800, 600⟩ 0 viewport node := by
  rw [calculateFitView_contain rfl]
  rintro ⟨viewport, computed, shown⟩
  cases computed
  have top := (shown _ List.mem_cons_self).top
  revert top
  decide +kernel

end WorkflowStudio.Canvas
