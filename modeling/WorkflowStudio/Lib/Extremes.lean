import Mathlib.Order.Lattice
import Mathlib.Order.Defs.LinearOrder
import Mathlib.Order.MinMax

/-! The least and the greatest value of a measure over a list that is not empty. -/

set_option autoImplicit false

namespace Lib

variable {Item Bound : Type} [LinearOrder Bound]

def leastOf (measure : Item → Bound) (first : Item) (rest : List Item) : Bound :=
  rest.foldl (fun least item => min least (measure item)) (measure first)

def greatestOf (measure : Item → Bound) (first : Item) (rest : List Item) : Bound :=
  rest.foldl (fun greatest item => max greatest (measure item)) (measure first)

variable {measure : Item → Bound} {first : Item} {rest : List Item}

theorem foldl_min_spec (items : List Item) (start : Bound) :
    items.foldl (fun least item => min least (measure item)) start ≤ start ∧
      (∀ item ∈ items,
        items.foldl (fun least item => min least (measure item)) start ≤ measure item) ∧
      (items.foldl (fun least item => min least (measure item)) start = start ∨
        ∃ item ∈ items,
          items.foldl (fun least item => min least (measure item)) start = measure item) := by
  induction items generalizing start with
  | nil =>
      refine ⟨le_rfl, ?_, .inl rfl⟩
      exact fun _ absent => nomatch absent
  | cons other items ih =>
      obtain ⟨below, all, attained⟩ := ih (min start (measure other))
      refine ⟨below.trans (min_le_left _ _), fun item listed => ?_, ?_⟩
      · rcases List.mem_cons.mp listed with rfl | listed
        · exact below.trans (min_le_right _ _)
        · exact all item listed
      · rw [List.foldl_cons]
        rcases attained with atStart | ⟨item, listed, atItem⟩
        · rcases min_choice start (measure other) with least | least
          · exact .inl (atStart.trans least)
          · exact .inr ⟨other, List.mem_cons_self, atStart.trans least⟩
        · exact .inr ⟨item, List.mem_cons_of_mem _ listed, atItem⟩

theorem leastOf_le {item : Item} (member : item ∈ first :: rest) :
    leastOf measure first rest ≤ measure item := by
  rcases List.mem_cons.mp member with rfl | member
  · exact (foldl_min_spec rest _).1
  · exact (foldl_min_spec rest _).2.1 item member

theorem leastOf_attained : ∃ item ∈ first :: rest, leastOf measure first rest = measure item := by
  have spec := @foldl_min_spec _ _ _ measure rest (measure first)
  rcases spec.2.2 with atStart | ⟨item, listed, atItem⟩
  · exact ⟨first, List.mem_cons_self, atStart⟩
  · exact ⟨item, List.mem_cons_of_mem _ listed, atItem⟩

theorem leastOf_eq {value : Bound} (same : ∀ item ∈ first :: rest, measure item = value) :
    leastOf measure first rest = value := by
  obtain ⟨item, listed, attained⟩ := @leastOf_attained _ _ _ measure first rest
  rw [attained, same item listed]

/-! The greatest value is the least one in the opposite order. -/

theorem le_greatestOf {item : Item} (member : item ∈ first :: rest) :
    measure item ≤ greatestOf measure first rest :=
  @leastOf_le Item Boundᵒᵈ _ measure first rest item member

theorem greatestOf_attained :
    ∃ item ∈ first :: rest, greatestOf measure first rest = measure item :=
  @leastOf_attained Item Boundᵒᵈ _ measure first rest

theorem greatestOf_eq {value : Bound} (same : ∀ item ∈ first :: rest, measure item = value) :
    greatestOf measure first rest = value :=
  @leastOf_eq Item Boundᵒᵈ _ measure first rest value same

end Lib
