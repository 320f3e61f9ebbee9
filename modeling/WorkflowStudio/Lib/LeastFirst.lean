import Mathlib.Data.Finset.Card
import Mathlib.Data.Finset.Basic

/-! Taking the items of a finite set out one at a time, each time one whose measure
is least among those that are left. -/

set_option autoImplicit false

namespace Lib

variable {Item Bound : Type} [DecidableEq Item] [LinearOrder Bound]

/-- One of the items with the least measure. -/
def LeastIn (measure : Item → Bound) (items : Finset Item) (item : Item) : Prop :=
  item ∈ items ∧ ∀ other ∈ items, measure item ≤ measure other

/-- The list is taken out of the first set, and the second one is left. -/
inductive LeastFirst (measure : Item → Bound) : Finset Item → List Item → Finset Item → Prop where
  | done (items : Finset Item) : LeastFirst measure items [] items
  | take {items left : Finset Item} {item : Item} {taken : List Item}
      (least : LeastIn measure items item)
      (rest : LeastFirst measure (items.erase item) taken left) :
      LeastFirst measure items (item :: taken) left

namespace LeastFirst

variable {measure : Item → Bound} {items left : Finset Item} {taken : List Item}

theorem mem_left (extraction : LeastFirst measure items taken left) (item : Item) :
    item ∈ left ↔ item ∈ items ∧ item ∉ taken := by
  induction extraction with
  | done items => simp only [List.not_mem_nil, not_false_eq_true, and_true]
  | take least rest ih =>
      rw [ih, Finset.mem_erase, List.mem_cons, not_or]
      tauto

theorem mem_taken (extraction : LeastFirst measure items taken left) {item : Item}
    (member : item ∈ taken) : item ∈ items := by
  induction extraction with
  | done items => exact absurd member List.not_mem_nil
  | take least rest ih =>
      rcases List.mem_cons.mp member with rfl | member
      · exact least.1
      · exact Finset.mem_of_mem_erase (ih member)

theorem nodup (extraction : LeastFirst measure items taken left) : taken.Nodup := by
  induction extraction with
  | done items => exact List.nodup_nil
  | take least rest ih =>
      refine List.nodup_cons.mpr ⟨fun again => ?_, ih⟩
      exact Finset.notMem_erase _ _ (rest.mem_taken again)

/-- They come out in ascending order of the measure. -/
theorem sorted (extraction : LeastFirst measure items taken left) :
    taken.Pairwise (fun before after => measure before ≤ measure after) := by
  induction extraction with
  | done items => exact List.Pairwise.nil
  | take least rest ih =>
      refine List.pairwise_cons.mpr ⟨fun after member => ?_, ih⟩
      exact least.2 after (Finset.mem_of_mem_erase (rest.mem_taken member))

/-- Nothing that is left has a smaller measure than anything that was taken. -/
theorem taken_le_left (extraction : LeastFirst measure items taken left) {item other : Item}
    (member : item ∈ taken) (stays : other ∈ left) : measure item ≤ measure other := by
  induction extraction with
  | done items => exact absurd member List.not_mem_nil
  | take least rest ih =>
      rcases List.mem_cons.mp member with rfl | member
      · exact least.2 other (Finset.mem_of_mem_erase ((rest.mem_left other).mp stays).1)
      · exact ih member stays

theorem concat {middle : Finset Item} {item : Item}
    (extraction : LeastFirst measure items taken middle) (least : LeastIn measure middle item) :
    LeastFirst measure items (taken ++ [item]) (middle.erase item) := by
  induction extraction with
  | done items => exact .take least (.done _)
  | take first rest ih => exact .take first (ih least)

theorem card (extraction : LeastFirst measure items taken left) :
    left.card + taken.length = items.card := by
  induction extraction with
  | done items => rfl
  | take least rest ih =>
      rw [Finset.card_erase_of_mem least.1] at ih
      have inhabited := Finset.card_pos.mpr ⟨_, least.1⟩
      rw [List.length_cons]
      omega

end LeastFirst

end Lib
