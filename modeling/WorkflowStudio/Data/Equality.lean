import Mathlib.Data.List.Sort
import WorkflowStudio.Data.Value

/-! Values up to the order of keys: what two JSON texts with sorted keys have in common,
and the equality of the backend, which also takes a truth value for a number. -/

set_option autoImplicit false

namespace WorkflowStudio

namespace Value

/-- The text by which a key is sorted. -/
def keyText : Value → String
  | .str text => text
  | _ => ""

def KeyNotAfter (left right : Value × Value) : Prop := left.1.keyText ≤ right.1.keyText

instance : DecidableRel KeyNotAfter := fun left right =>
  inferInstanceAs (Decidable (left.1.keyText ≤ right.1.keyText))

section Normal

variable (boolean : Bool → Value)

mutual

/-- The value with all keys sorted and the truth values replaced. -/
def normal : Value → Value
  | .bool value => boolean value
  | .list items => .list (normalItems items)
  | .tuple items => .tuple (normalItems items)
  | .dict entries => .dict ((normalEntries entries).insertionSort KeyNotAfter)
  | .none => .none
  | .int value => .int value
  | .str text => .str text
  | .object truth identity => .object truth identity

def normalItems : List Value → List Value
  | [] => []
  | item :: items => normal item :: normalItems items

def normalEntries : List (Value × Value) → List (Value × Value)
  | [] => []
  | (key, value) :: entries => (key, normal value) :: normalEntries entries

end

theorem length_normalEntries (entries : List (Value × Value)) :
    (normalEntries boolean entries).length = entries.length := by
  induction entries with
  | nil => rfl
  | cons entry entries ih => exact congrArg Nat.succ ih

end Normal

/-- Two values whose JSON texts with sorted keys are the same. -/
def SameJson (left right : Value) : Prop := normal .bool left = normal .bool right

/-- `left == right` in the backend, where `True` is `1`. -/
def Equal (left right : Value) : Prop :=
  normal (fun value => .int (if value then 1 else 0)) left =
    normal (fun value => .int (if value then 1 else 0)) right

instance (left right : Value) : Decidable (left.SameJson right) := by
  unfold SameJson
  infer_instance

instance (left right : Value) : Decidable (left.Equal right) := by
  unfold Equal
  infer_instance

theorem SameJson.refl (value : Value) : value.SameJson value := rfl

theorem SameJson.symm {left right : Value} (same : left.SameJson right) :
    right.SameJson left := Eq.symm same

theorem SameJson.trans {first second third : Value} (left : first.SameJson second)
    (right : second.SameJson third) : first.SameJson third := Eq.trans left right

theorem Equal.refl (value : Value) : value.Equal value := rfl

theorem Equal.symm {left right : Value} (same : left.Equal right) : right.Equal left := Eq.symm same

theorem equal_comm {left right : Value} : left.Equal right ↔ right.Equal left := eq_comm

theorem length_normalItems (boolean : Bool → Value) (items : List Value) :
    (normalItems boolean items).length = items.length := by
  induction items with
  | nil => rfl
  | cons item items ih => exact congrArg Nat.succ ih

theorem isEmpty_eq_of_length {Left Right : Type} {left : List Left} {right : List Right}
    (lengths : left.length = right.length) : left.isEmpty = right.isEmpty := by
  rw [Bool.eq_iff_iff, List.isEmpty_iff_length_eq_zero, List.isEmpty_iff_length_eq_zero, lengths]

theorem truthy_normal (value : Value) : (normal .bool value).truthy = value.truthy := by
  cases value with
  | list items | tuple items =>
      exact congrArg Bool.not (isEmpty_eq_of_length (length_normalItems .bool items))
  | dict entries =>
      refine congrArg Bool.not (isEmpty_eq_of_length ?_)
      rw [List.length_insertionSort, length_normalEntries]
  | none | bool | int | str | object => rfl

theorem SameJson.truthy_eq {left right : Value} (same : left.SameJson right) :
    left.truthy = right.truthy := by
  rw [← truthy_normal left, ← truthy_normal right, same]

end Value

end WorkflowStudio
