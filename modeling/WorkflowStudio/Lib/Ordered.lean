import Mathlib.Data.List.Lex
import Mathlib.Data.List.Pairwise
import Mathlib.Order.Lattice
import Mathlib.Order.Monotone.Basic

/-! Lists in an order, and the lexicographic order of lists whose items are reversed. -/

set_option autoImplicit false

namespace Lib

/-- Two different items of a list stand in one of the two orders. -/
theorem either_order {Item : Type} {order : Item → Item → Prop} {items : List Item}
    {item other : Item} (ordered : items.Pairwise order) (first : item ∈ items)
    (second : other ∈ items) (apart : item ≠ other) : order item other ∨ order other item := by
  let either (left right : Item) : Prop := order left right ∨ order right left
  have : Std.Symm either := ⟨fun _ _ => Or.symm⟩
  exact (ordered.imp (S := either) Or.inl).forall first second apart

variable {Letter Code : Type} [LinearOrder Letter] [LinearOrder Code]

/-- A list is greater than what it properly begins with. -/
theorem lt_append_cons (front : List Letter) (letter : Letter) (rest : List Letter) :
    front < front ++ letter :: rest := by
  induction front with
  | nil => exact List.nil_lt_cons letter rest
  | cons first front ih => exact List.cons_lt_cons_iff.mpr (.inr ⟨rfl, ih⟩)

/-- Reversing the items reverses the order of lists, except that a list still comes after
what it begins with. -/
theorem map_lt_map_iff {code : Letter → Code} (reverses : StrictAnti code)
    (left right : List Letter) : left.map code < right.map code ↔
      (∃ letter rest, right = left ++ letter :: rest) ∨ right < left ∧ ¬ right <+: left := by
  induction left generalizing right with
  | nil =>
      cases right with
      | nil => simp
      | cons letter right => simp
  | cons first left ih =>
      cases right with
      | nil => simp
      | cons letter right =>
          rw [List.map_cons, List.map_cons, List.cons_lt_cons_iff, ih, List.cons_lt_cons_iff,
            List.cons_prefix_cons, reverses.lt_iff_gt, reverses.injective.eq_iff]
          rcases lt_trichotomy first letter with less | rfl | greater
          · simp [less.not_gt, less.ne, less.ne']
          · simp
          · simp [greater, greater.ne, greater.ne']

end Lib
