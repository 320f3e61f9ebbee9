import Mathlib.Data.List.Basic
import Mathlib.Data.List.TakeWhile

/-! Removing the blank ends of a list: what is left, and what is never removed. -/

set_option autoImplicit false

namespace Lib

variable {Item : Type} {blank : Item → Bool}

def trim (blank : Item → Bool) (items : List Item) : List Item :=
  ((items.dropWhile blank).reverse.dropWhile blank).reverse

theorem trim_front (items : List Item) : trim blank items <+: items.dropWhile blank := by
  have back := (List.dropWhile_suffix blank (l := (items.dropWhile blank).reverse)).reverse
  rwa [List.reverse_reverse] at back

theorem trim_within (items : List Item) : trim blank items <:+: items :=
  (trim_front items).isInfix.trans (List.dropWhile_suffix blank).isInfix

theorem dropWhile_around (before middle after : List Item) (some : middle ≠ [])
    (solid : ∀ item ∈ middle, blank item = false) :
    (before ++ middle ++ after).dropWhile blank =
      before.dropWhile blank ++ middle ++ after := by
  induction before with
  | nil =>
      cases middle with
      | nil => exact absurd rfl some
      | cons first rest =>
          have here := solid first List.mem_cons_self
          simp [here]
  | cons item rest ih =>
      simp only [List.cons_append, List.dropWhile_cons]
      split
      · exact ih
      · rfl

/-- Items without a blank among them stay together. -/
theorem trim_keeps {before middle after : List Item} (some : middle ≠ [])
    (solid : ∀ item ∈ middle, blank item = false) :
    middle <:+: trim blank (before ++ middle ++ after) := by
  unfold trim
  rw [dropWhile_around before middle after some solid]
  simp only [List.reverse_append]
  rw [← List.append_assoc, dropWhile_around _ _ _ (by simpa using some)
    (fun item member => solid item (List.mem_reverse.mp member))]
  simp only [List.reverse_append, List.reverse_reverse]
  exact ⟨_, _, by rw [List.append_assoc]⟩

theorem dropWhile_eq_self {items : List Item}
    (front : ∀ item, items.head? = some item → blank item = false) :
    items.dropWhile blank = items := by
  cases items with
  | nil => rfl
  | cons item rest => simp [front item rfl]

/-- Blank items around a list with solid ends are what is removed. -/
theorem trim_around {before middle after : List Item} (front : ∀ item ∈ before, blank item = true)
    (back : ∀ item ∈ after, blank item = true)
    (head : ∀ item, middle.head? = some item → blank item = false)
    (last : ∀ item, middle.getLast? = some item → blank item = false) :
    trim blank (before ++ middle ++ after) = middle := by
  have backBlank : ∀ item ∈ after.reverse, blank item = true := fun item member =>
    back item (List.mem_reverse.mp member)
  unfold trim
  rw [List.append_assoc, List.dropWhile_append_of_pos front]
  cases middle with
  | nil =>
      have none : after.dropWhile blank = [] := List.dropWhile_eq_nil_iff.mpr back
      rw [List.nil_append, none]
      rfl
  | cons first rest =>
      have kept : (first :: rest).reverse.dropWhile blank = (first :: rest).reverse :=
        dropWhile_eq_self fun item reversed => last item (by rwa [← List.head?_reverse])
      rw [List.cons_append, List.dropWhile_cons_of_neg (by simp [head first rfl]),
        ← List.cons_append, List.reverse_append, List.dropWhile_append_of_pos backBlank, kept,
        List.reverse_reverse]

variable (blank) in
/-- Only blank items are removed, at both ends. -/
theorem trim_split (items : List Item) :
    ∃ before after, items = before ++ trim blank items ++ after ∧
      (∀ item ∈ before, blank item = true) ∧ ∀ item ∈ after, blank item = true := by
  refine ⟨items.takeWhile blank,
    ((items.dropWhile blank).reverse.takeWhile blank).reverse, ?_, ?_, ?_⟩
  · have back := List.takeWhile_append_dropWhile (p := blank) (l := (items.dropWhile blank).reverse)
    have whole := congrArg List.reverse back
    rw [List.reverse_append, List.reverse_reverse] at whole
    unfold trim
    rw [List.append_assoc, whole, List.takeWhile_append_dropWhile]
  · intro item member
    exact List.mem_takeWhile_imp member
  · intro item member
    exact List.mem_takeWhile_imp (List.mem_reverse.mp member)

/-- Where more counts as blank, the same is left as long as nothing of it is blank. -/
theorem trim_coarser {coarser : Item → Bool} {items : List Item}
    (covers : ∀ item ∈ items, blank item = true → coarser item = true)
    (solid : ∀ item ∈ trim blank items, coarser item = false) :
    trim coarser items = trim blank items := by
  obtain ⟨before, after, split, front, back⟩ := trim_split blank items
  generalize trim blank items = middle at solid split
  subst split
  refine trim_around ?_ ?_ ?_ ?_
  · intro item member
    refine covers item ?_ (front item member)
    exact List.mem_append_left _ (List.mem_append_left _ member)
  · intro item member
    exact covers item (List.mem_append_right _ member) (back item member)
  · intro item head
    exact solid item (List.mem_of_mem_head? head)
  · intro item last
    exact solid item (List.mem_of_mem_getLast? last)

theorem trim_eq_self {items : List Item}
    (front : ∀ item, items.head? = some item → blank item = false)
    (back : ∀ item, items.getLast? = some item → blank item = false) :
    trim blank items = items := by
  have none : ∀ item ∈ ([] : List Item), blank item = true := List.forall_mem_nil _
  have around := trim_around none none front back
  rwa [List.nil_append, List.append_nil] at around

theorem trim_head {items : List Item} {item : Item} (head : (trim blank items).head? = some item) :
    blank item = false := by
  obtain ⟨rest, split⟩ := @trim_front _ blank items
  have first : (items.dropWhile blank).head? = some item := by
    rw [← split, List.head?_append, head]
    rfl
  have stops := List.head?_dropWhile_not blank items
  rw [first] at stops
  simpa using stops

theorem trim_last {items : List Item} {item : Item}
    (last : (trim blank items).getLast? = some item) : blank item = false := by
  rw [trim, List.getLast?_reverse] at last
  have stops := List.head?_dropWhile_not blank (items.dropWhile blank).reverse
  rw [last] at stops
  simpa using stops

theorem trim_trim (items : List Item) : trim blank (trim blank items) = trim blank items :=
  trim_eq_self (fun _ head => trim_head head) (fun _ last => trim_last last)

/-- An item at the front that is not blank stays there. -/
theorem head?_trim {items : List Item} {item : Item} (head : items.head? = some item)
    (solid : blank item = false) : (trim blank items).head? = some item := by
  cases items with
  | nil => cases head
  | cons first rest =>
      cases head
      have front := @trim_front _ blank (item :: rest)
      rw [List.dropWhile_cons_of_neg (by simp [solid])] at front
      have kept : [item] <:+: trim blank ([] ++ [item] ++ rest) :=
        trim_keeps (List.cons_ne_nil _ _) fun other member => by
          rw [List.mem_singleton.mp member]
          exact solid
      cases trimmed : trim blank (item :: rest) with
      | nil =>
          rw [List.nil_append, List.singleton_append, trimmed] at kept
          exact absurd (List.infix_nil.mp kept) (List.cons_ne_nil _ _)
      | cons other others =>
          rw [trimmed] at front
          rw [(List.cons_prefix_cons.mp front).1]
          rfl

end Lib
