import Mathlib.Data.List.Basic

/-! Run-time values: the plain values that travel between nodes and that the
editor stores, with tuples and the objects that have no plain form kept apart. -/

set_option autoImplicit false

namespace WorkflowStudio

/-- A value. Any object that is none of the built-in kinds is an
`object`, known only by its truth value and its identity. -/
inductive Value where
  | none
  | bool (value : Bool)
  | int (value : Int)
  | str (value : String)
  | list (items : List Value)
  | tuple (items : List Value)
  | dict (entries : List (Value × Value))
  | object (truth : Bool) (identity : Nat)
  deriving Inhabited

namespace Value

mutual

def decEq : (left right : Value) → Decidable (left = right)
  | .none, .none => .isTrue rfl
  | .bool left, .bool right => decidable_of_iff (left = right) (by simp)
  | .int left, .int right => decidable_of_iff (left = right) (by simp)
  | .str left, .str right => decidable_of_iff (left = right) (by simp)
  | .list left, .list right =>
      match decEqItems left right with
      | .isTrue same => .isTrue (by rw [same])
      | .isFalse different => .isFalse (by simpa using different)
  | .tuple left, .tuple right =>
      match decEqItems left right with
      | .isTrue same => .isTrue (by rw [same])
      | .isFalse different => .isFalse (by simpa using different)
  | .dict left, .dict right =>
      match decEqEntries left right with
      | .isTrue same => .isTrue (by rw [same])
      | .isFalse different => .isFalse (by simpa using different)
  | .object leftTruth left, .object rightTruth right =>
      decidable_of_iff (leftTruth = rightTruth ∧ left = right) (by simp)
  | .none, .bool _ | .none, .int _ | .none, .str _ | .none, .list _ | .none, .tuple _
  | .none, .dict _ | .none, .object _ _ | .bool _, .none | .bool _, .int _ | .bool _, .str _
  | .bool _, .list _ | .bool _, .tuple _ | .bool _, .dict _ | .bool _, .object _ _
  | .int _, .none | .int _, .bool _ | .int _, .str _ | .int _, .list _ | .int _, .tuple _
  | .int _, .dict _ | .int _, .object _ _ | .str _, .none | .str _, .bool _ | .str _, .int _
  | .str _, .list _ | .str _, .tuple _ | .str _, .dict _ | .str _, .object _ _
  | .list _, .none | .list _, .bool _ | .list _, .int _ | .list _, .str _ | .list _, .tuple _
  | .list _, .dict _ | .list _, .object _ _ | .tuple _, .none | .tuple _, .bool _
  | .tuple _, .int _ | .tuple _, .str _ | .tuple _, .list _ | .tuple _, .dict _
  | .tuple _, .object _ _ | .dict _, .none | .dict _, .bool _ | .dict _, .int _
  | .dict _, .str _ | .dict _, .list _ | .dict _, .tuple _ | .dict _, .object _ _
  | .object _ _, .none | .object _ _, .bool _ | .object _ _, .int _ | .object _ _, .str _
  | .object _ _, .list _ | .object _ _, .tuple _ | .object _ _, .dict _ => .isFalse (by simp)

def decEqItems : (left right : List Value) → Decidable (left = right)
  | [], [] => .isTrue rfl
  | [], _ :: _ => .isFalse (by simp)
  | _ :: _, [] => .isFalse (by simp)
  | leftHead :: leftTail, rightHead :: rightTail =>
      match decEq leftHead rightHead with
      | .isFalse different => .isFalse (by simp [different])
      | .isTrue sameHead =>
          match decEqItems leftTail rightTail with
          | .isTrue sameTail => .isTrue (by rw [sameHead, sameTail])
          | .isFalse different => .isFalse (by simp [different])

def decEqEntries : (left right : List (Value × Value)) → Decidable (left = right)
  | [], [] => .isTrue rfl
  | [], _ :: _ => .isFalse (by simp)
  | _ :: _, [] => .isFalse (by simp)
  | (leftKey, leftValue) :: leftTail, (rightKey, rightValue) :: rightTail =>
      match decEq leftKey rightKey with
      | .isFalse different => .isFalse (by simp [different])
      | .isTrue sameKey =>
          match decEq leftValue rightValue with
          | .isFalse different => .isFalse (by simp [different])
          | .isTrue sameValue =>
              match decEqEntries leftTail rightTail with
              | .isTrue sameTail => .isTrue (by rw [sameKey, sameValue, sameTail])
              | .isFalse different => .isFalse (by simp [different])

end

instance : DecidableEq Value := decEq

/-- `bool(value)`. -/
def truthy : Value → Bool
  | .none => false
  | .bool value => value
  | .int value => decide (value ≠ 0)
  | .str value => decide (value ≠ "")
  | .list items => !items.isEmpty
  | .tuple items => !items.isEmpty
  | .dict entries => !entries.isEmpty
  | .object truth _ => truth

/-- `value or fallback`. -/
def orElse (value fallback : Value) : Value := if value.truthy then value else fallback

/-- The truth value in the browser, where every list and every object is true. -/
def scriptTruthy : Value → Bool
  | .none => false
  | .bool value => value
  | .int value => decide (value ≠ 0)
  | .str value => decide (value ≠ "")
  | .list _ | .tuple _ | .dict _ | .object _ _ => true

/-- `value || fallback`. -/
def scriptOr (value fallback : Value) : Value := if value.scriptTruthy then value else fallback

end Value

end WorkflowStudio
