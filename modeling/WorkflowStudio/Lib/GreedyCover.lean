import Mathlib.Data.List.Basic

/-! Keeping the items of a list of which none kept before covers them. -/

set_option autoImplicit false

namespace Lib.GreedyCover

variable {Item : Type} (below : Item → Item → Bool)

/-- Keep an item unless one that is kept already covers it. -/
def keep (kept : List Item) (item : Item) : List Item :=
  if kept.any (below item) then kept else kept ++ [item]

variable {below} {items kept : List Item} {item : Item}

theorem mem_keep {other : Item} (member : other ∈ keep below kept item) :
    other ∈ kept ∨ other = item := by
  unfold keep at member
  split at member
  · exact .inl member
  · simpa using member

theorem subset_keep : kept ⊆ keep below kept item := by
  unfold keep
  split
  · exact fun _ member => member
  · exact fun _ member => List.mem_append_left _ member

theorem keep_covers (self : below item item = true) :
    ∃ other ∈ keep below kept item, below item other = true := by
  unfold keep
  split
  case isTrue covered => exact List.any_eq_true.mp covered
  case isFalse => exact ⟨item, List.mem_append_right _ (List.mem_singleton_self _), self⟩

theorem keep_of_uncovered (uncovered : ∀ other ∈ kept, below item other = false) :
    item ∈ keep below kept item := by
  have none : kept.any (below item) = false := by
    simpa [List.any_eq_false] using uncovered
  simp [keep, none]

theorem keep_pairwise {later : Item → Item → Prop} (pairwise : kept.Pairwise later)
    (next : ∀ other ∈ kept, below item other = false → later other item) :
    (keep below kept item).Pairwise later := by
  unfold keep
  split
  · exact pairwise
  case isFalse uncovered =>
    refine List.pairwise_append.mpr ⟨pairwise, List.pairwise_singleton _ _, ?_⟩
    intro other member last same
    obtain rfl := List.mem_singleton.mp same
    have apart : ∀ other ∈ kept, ¬ below last other = true := by
      simpa [List.any_eq_true] using uncovered
    exact next other member (by simpa using apart other member)

theorem subset_foldl : kept ⊆ items.foldl (keep below) kept := by
  induction items generalizing kept with
  | nil => exact fun _ member => member
  | cons item items ih => exact fun _ member => ih (subset_keep member)

theorem mem_foldl {other : Item} (member : other ∈ items.foldl (keep below) kept) :
    other ∈ kept ∨ other ∈ items := by
  induction items generalizing kept with
  | nil => exact .inl member
  | cons item items ih =>
      rcases ih member with early | late
      · rcases mem_keep early with before | rfl
        · exact .inl before
        · exact .inr List.mem_cons_self
      · exact .inr (List.mem_cons_of_mem _ late)

theorem foldl_covers (self : ∀ item, below item item = true) (member : item ∈ items) :
    ∃ other ∈ items.foldl (keep below) kept, below item other = true := by
  induction items generalizing kept with
  | nil => exact absurd member List.not_mem_nil
  | cons first items ih =>
      rcases List.mem_cons.mp member with rfl | member
      · obtain ⟨other, among, covers⟩ := @keep_covers _ below kept item (self item)
        rw [List.foldl_cons]
        exact ⟨other, subset_foldl among, covers⟩
      · exact ih member

/-- What holds of a kept item and of one that comes after it and is not covered by it
holds of the kept items in their order. -/
theorem foldl_pairwise {later : Item → Item → Prop} {order : Item → Item → Prop}
    (ordered : items.Pairwise order) (pairwise : kept.Pairwise later)
    (before : ∀ other ∈ kept, ∀ item ∈ items, order other item)
    (next : ∀ other item, order other item → below item other = false → later other item) :
    (items.foldl (keep below) kept).Pairwise later := by
  induction items generalizing kept with
  | nil => exact pairwise
  | cons item items ih =>
      obtain ⟨first, ordered⟩ := List.pairwise_cons.mp ordered
      refine ih ordered (keep_pairwise pairwise fun other member =>
        next other item (before other member item List.mem_cons_self)) ?_
      intro other member last among
      rcases mem_keep member with early | rfl
      · exact before other early last (List.mem_cons_of_mem _ among)
      · exact first last among

/-- An item is kept if none before it covers it. -/
theorem mem_foldl_of_uncovered {after : List Item}
    (uncovered : ∀ other ∈ items, below item other = false) :
    item ∈ (items ++ item :: after).foldl (keep below) [] := by
  rw [List.foldl_append, List.foldl_cons]
  refine subset_foldl (keep_of_uncovered fun other member => ?_)
  rcases mem_foldl member with none | member
  · exact absurd none List.not_mem_nil
  · exact uncovered other member

/-- Above every item there is one that no other item covers, if covering descends. -/
theorem exists_uncovered (measure : Item → Nat) (self : ∀ item, below item item = true)
    (trans : ∀ first second third, below first second = true → below second third = true →
      below first third = true)
    (descends : ∀ first second, below first second = true → first ≠ second →
      measure second < measure first) (member : item ∈ items) :
    ∃ top ∈ items, below item top = true ∧
      ∀ other ∈ items, below top other = true → top = other := by
  induction size : measure item using Nat.strongRecOn generalizing item with
  | ind bound ih =>
      by_cases covered : ∃ other ∈ items, below item other = true ∧ item ≠ other
      · obtain ⟨other, among, above, apart⟩ := covered
        obtain ⟨top, listed, tops, alone⟩ :=
          ih _ (size ▸ descends item other above apart) among rfl
        exact ⟨top, listed, trans _ _ _ above tops, alone⟩
      · refine ⟨item, member, self item, fun other among above => ?_⟩
        exact Classical.byContradiction fun apart => covered ⟨other, among, above, apart⟩

end Lib.GreedyCover
