import Mathlib.Data.List.Basic

/-! Lists put together with a separator between them: two different separators tell
what was put together. -/

set_option autoImplicit false

namespace Lib

variable {Item : Type} {first second : Item}

/-- Two different items at the end of a front tell where it ends. -/
theorem front_unique {front back frontTail backTail frontOther backOther : List Item}
    (different : first ≠ second)
    (here : front ++ first :: frontTail = back ++ first :: backTail)
    (there : front ++ second :: frontOther = back ++ second :: backOther) : front = back := by
  rcases List.append_eq_append_iff.mp here with ⟨rest, rfl, split⟩ | ⟨rest, rfl, split⟩
  · cases rest with
    | nil => rw [List.append_nil]
    | cons item rest =>
        rw [List.append_assoc, List.append_cancel_left_eq] at there
        have hereItem := (List.cons.inj split).1
        have thereItem := (List.cons.inj there).1
        exact absurd (hereItem.trans thereItem.symm) different
  · cases rest with
    | nil => rw [List.append_nil]
    | cons item rest =>
        rw [List.append_assoc, List.append_cancel_left_eq] at there
        have hereItem := (List.cons.inj split).1
        have thereItem := (List.cons.inj there).1
        exact absurd (hereItem.trans thereItem) different

theorem eq_of_intercalate (different : first ≠ second) {left right : List (List Item)}
    (leftSome : left ≠ []) (rightSome : right ≠ [])
    (sameFirst : [first].intercalate left = [first].intercalate right)
    (sameSecond : [second].intercalate left = [second].intercalate right) : left = right := by
  induction left generalizing right with
  | nil => exact absurd rfl leftSome
  | cons front others ih =>
      cases right with
      | nil => exact absurd rfl rightSome
      | cons back more =>
          cases others with
          | nil =>
              cases more with
              | nil =>
                  rw [List.intercalate_singleton, List.intercalate_singleton] at sameFirst
                  rw [sameFirst]
              | cons next more =>
                  rw [List.intercalate_singleton, List.intercalate_cons_cons]
                    at sameFirst sameSecond
                  rw [sameFirst] at sameSecond
                  simp only [List.append_assoc, List.singleton_append,
                    List.append_cancel_left_eq] at sameSecond
                  exact absurd (List.cons.inj sameSecond).1 different
          | cons next others =>
              cases more with
              | nil =>
                  rw [List.intercalate_singleton, List.intercalate_cons_cons]
                    at sameFirst sameSecond
                  rw [← sameFirst] at sameSecond
                  simp only [List.append_assoc, List.singleton_append,
                    List.append_cancel_left_eq] at sameSecond
                  exact absurd (List.cons.inj sameSecond).1.symm different
              | cons after more =>
                  rw [List.intercalate_cons_cons, List.intercalate_cons_cons]
                    at sameFirst sameSecond
                  simp only [List.append_assoc, List.singleton_append] at sameFirst sameSecond
                  have fronts := front_unique different sameFirst sameSecond
                  subst fronts
                  rw [List.append_cancel_left_eq] at sameFirst sameSecond
                  rw [ih (List.cons_ne_nil _ _) (List.cons_ne_nil _ _)
                    (List.cons.inj sameFirst).2 (List.cons.inj sameSecond).2]

end Lib
