import Mathlib.Algebra.Order.Floor.Div
import Mathlib.Data.List.Range

/-! Cutting a list into chunks of one size, the last of which may be shorter. -/

set_option autoImplicit false

namespace Lib

variable {Item : Type}

/-- The items of a list from a multiple of the size up to the next one. -/
def chunk (size : Nat) (items : List Item) (index : Nat) : List Item :=
  (items.drop (index * size)).take size

def chunks (size : Nat) (items : List Item) : List (List Item) :=
  (List.range (items.length ⌈/⌉ size)).map (chunk size items)

@[simp] theorem length_chunks (size : Nat) (items : List Item) :
    (chunks size items).length = items.length ⌈/⌉ size := by
  simp [chunks]

theorem flatMap_chunk (size : Nat) (items : List Item) (count : Nat) :
    (List.range count).flatMap (chunk size items) = items.take (count * size) := by
  induction count with
  | zero => simp
  | succ count ih =>
      rw [List.range_succ, List.flatMap_append, ih, Nat.succ_mul, List.take_add]
      simp [chunk]

/-- Fewer than the count of chunks cover a part of the list only. -/
theorem lt_chunkCount_iff {size : Nat} (positive : 0 < size) (items : List Item) (index : Nat) :
    index < items.length ⌈/⌉ size ↔ index * size < items.length := by
  rw [← not_le, ← not_le, not_iff_not, ceilDiv_le_iff_le_mul positive, Nat.mul_comm]

theorem flatten_chunks {size : Nat} (positive : 0 < size) (items : List Item) :
    (chunks size items).flatten = items := by
  have covered : items.length ≤ items.length ⌈/⌉ size * size := by
    rw [← not_lt, ← lt_chunkCount_iff positive]
    exact lt_irrefl _
  unfold chunks
  rw [← List.flatMap_def, flatMap_chunk, List.take_of_length_le covered]

theorem length_chunk {size : Nat} {items : List Item} {index : Nat}
    (within : (index + 1) * size ≤ items.length) : (chunk size items index).length = size := by
  rw [Nat.succ_mul] at within
  simp only [chunk, List.length_take, List.length_drop]
  omega

theorem length_of_mem_dropLast {size : Nat} (positive : 0 < size) {items : List Item} :
    ∀ batch ∈ (chunks size items).dropLast, batch.length = size := by
  intro batch member
  unfold chunks at member
  rw [← List.map_dropLast] at member
  obtain ⟨index, listed, rfl⟩ := List.mem_map.mp member
  have before : index + 1 < items.length ⌈/⌉ size := by
    rw [List.dropLast_eq_take, List.length_range, List.take_range, List.mem_range] at listed
    omega
  exact length_chunk ((lt_chunkCount_iff positive items _).mp before).le

end Lib
