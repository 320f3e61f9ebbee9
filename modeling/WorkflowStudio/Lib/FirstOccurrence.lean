import WorkflowStudio.Lib.Replacing

/-! Replacing only the first occurrence of a text, and one such replacement after another for the
matches of a pattern: each match is then replaced in its own place as long as its text does not
occur in front of it. -/

set_option autoImplicit false

namespace Lib.Replacing

open Lib.Scanning

variable {Letter Found : Type}

/-!
## One occurrence
-/

/-- A pattern behind a text does not occur anywhere before. -/
def OccursOnlyAfter (pattern before : List Letter) : Prop :=
  ∀ start rest, before ++ pattern = start ++ pattern ++ rest → rest = []

theorem OccursOnlyAfter.tail {pattern before : List Letter} {letter : Letter}
    (only : OccursOnlyAfter pattern (letter :: before)) : OccursOnlyAfter pattern before := by
  intro start rest same
  exact only (letter :: start) rest (congrArg (letter :: ·) same)

section First

variable [DecidableEq Letter]

/-- The text before the first occurrence of a pattern, and the text behind it. -/
def cutFirst (pattern : List Letter) : List Letter → Option (List Letter × List Letter)
  | [] => if pattern = [] then some ([], []) else none
  | letter :: rest =>
      if pattern.isPrefixOf (letter :: rest) then
        some ([], (letter :: rest).drop pattern.length)
      else (cutFirst pattern rest).map fun cut => (letter :: cut.1, cut.2)

/-- The replacement may depend on the text around the occurrence. -/
def replaceFirst (pattern : List Letter) (fill : List Letter → List Letter → List Letter)
    (text : List Letter) : List Letter :=
  match cutFirst pattern text with
  | none => text
  | some (before, after) => before ++ fill before after ++ after

theorem cutFirst_of_occursOnlyAfter {pattern before after : List Letter}
    (only : OccursOnlyAfter pattern before) :
    cutFirst pattern (before ++ pattern ++ after) = some (before, after) := by
  induction before with
  | nil =>
      cases pattern with
      | nil =>
          cases after with
          | nil => rfl
          | cons letter after => rfl
      | cons first pattern =>
          have here : (first :: pattern).isPrefixOf (first :: (pattern ++ after)) = true :=
            List.isPrefixOf_iff_prefix.mpr (List.prefix_append (first :: pattern) after)
          rw [List.nil_append, List.cons_append, cutFirst, if_pos here, ← List.cons_append,
            List.drop_left]
  | cons letter before ih =>
      have absent : ¬ pattern.isPrefixOf (letter :: (before ++ pattern ++ after)) = true := by
        rw [List.isPrefixOf_iff_prefix]
        intro starts
        have inner : letter :: (before ++ pattern) <+: letter :: (before ++ pattern ++ after) :=
          List.prefix_append (letter :: (before ++ pattern)) after
        have shorter : pattern.length ≤ (letter :: (before ++ pattern)).length := by
          rw [List.length_cons, List.length_append]
          omega
        obtain ⟨rest, same⟩ := List.prefix_of_prefix_length_le starts inner shorter
        obtain rfl := only [] rest same.symm
        have lengths := congrArg List.length same
        rw [List.append_nil, List.length_cons, List.length_append] at lengths
        omega
      rw [List.cons_append, List.cons_append, cutFirst, if_neg absent, ih only.tail]
      rfl

theorem replaceFirst_of_occursOnlyAfter {pattern before : List Letter}
    (only : OccursOnlyAfter pattern before) (fill : List Letter → List Letter → List Letter)
    (after : List Letter) :
    replaceFirst pattern fill (before ++ pattern ++ after) =
      before ++ fill before after ++ after := by
  rw [replaceFirst, cutFirst_of_occursOnlyAfter only]

end First

/-!
## One match after another
-/

section Each

variable [DecidableEq Letter]

/-- The matches are replaced one by one, each where its text occurs first. -/
def replaceEach (own : Found → List Letter)
    (fill : Found → List Letter → List Letter → List Letter) :
    List Found → List Letter → List Letter
  | [], text => text
  | found :: rest, text => replaceEach own fill rest (replaceFirst (own found) (fill found) text)

/-- No match occurs before its own place in the text that has the values of the matches in front
of it. -/
def InPlace (own value : Found → List Letter) (pieces : List (Letter ⊕ Found)) : Prop :=
  ∀ front found back, pieces = front ++ .inr found :: back →
    OccursOnlyAfter (own found) (render value front)

theorem replaceEach_from {own value : Found → List Letter}
    {fill : Found → List Letter → List Letter → List Letter}
    (front rest : List (Letter ⊕ Found)) (placed : InPlace own value (front ++ rest))
    (constant : ∀ found, .inr found ∈ rest → ∀ before after,
      fill found before after = value found) :
    replaceEach own fill (rest.filterMap asMatch) (render value front ++ render own rest) =
      render value (front ++ rest) := by
  induction rest generalizing front with
  | nil =>
      rw [List.append_nil]
      exact List.append_nil _
  | cons piece rest ih =>
      have split : front ++ piece :: rest = (front ++ [piece]) ++ rest := List.append_cons _ _ _
      have later := ih (front ++ [piece]) (split ▸ placed) fun found member =>
        constant found (List.mem_cons_of_mem _ member)
      rw [split, ← later]
      cases piece with
      | inl letter =>
          rw [render_append, render_letter, List.append_assoc]
          rfl
      | inr found =>
          have stays := constant found List.mem_cons_self
          have step := replaceFirst_of_occursOnlyAfter (placed front found rest rfl) (fill found)
            (render own rest)
          have value_behind : render value (front ++ [.inr found]) =
              render value front ++ value found := by
            rw [render_append, render_match]
            exact congrArg _ (List.append_nil _)
          rw [stays] at step
          rw [render_match, ← List.append_assoc, value_behind, ← step]
          rfl

/-- Replacing the matches one by one gives the text with all of them replaced at once. -/
theorem replaceEach_eq_render {own value : Found → List Letter}
    {fill : Found → List Letter → List Letter → List Letter} {pieces : List (Letter ⊕ Found)}
    (placed : InPlace own value pieces)
    (constant : ∀ found, .inr found ∈ pieces → ∀ before after,
      fill found before after = value found) :
    replaceEach own fill (pieces.filterMap asMatch) (render own pieces) = render value pieces :=
  replaceEach_from [] pieces placed constant

end Each

end Lib.Replacing
