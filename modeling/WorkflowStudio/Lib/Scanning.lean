import Mathlib.Data.List.Basic
import Mathlib.Data.List.TakeWhile

/-! The matches of a pattern in a text from left to right, as a global regular expression finds
them: after a match the scan goes on behind it, and elsewhere with the next letter. -/

set_option autoImplicit false

namespace Lib.Scanning

variable {Letter Found : Type}

/-- What a pattern finds at the start of a text, with the number of letters that it takes. -/
abbrev Matcher (Letter Found : Type) := List Letter → Option (Found × Nat)

section Scan

variable (matcher : Matcher Letter Found)

/-- The matches with the letters between them; first some letters are skipped. -/
def scanFrom : Nat → List Letter → List (Letter ⊕ Found)
  | _, [] => []
  | skipped + 1, _ :: rest => scanFrom skipped rest
  | 0, letter :: rest =>
      match matcher (letter :: rest) with
      | none => .inl letter :: scanFrom 0 rest
      | some (found, length) => .inr found :: scanFrom (length - 1) rest

def scan (text : List Letter) : List (Letter ⊕ Found) := scanFrom matcher 0 text

def asMatch : Letter ⊕ Found → Option Found
  | .inl _ => none
  | .inr found => some found

/-- The matches alone. -/
def matchesOf (text : List Letter) : List Found := (scan matcher text).filterMap asMatch

variable {matcher}

theorem scanFrom_append (front back : List Letter) :
    scanFrom matcher front.length (front ++ back) = scan matcher back := by
  induction front with
  | nil => rfl
  | cons letter front ih => exact ih

theorem scanFrom_eq_scan_drop (skipped : Nat) (text : List Letter) :
    scanFrom matcher skipped text = scan matcher (text.drop skipped) := by
  induction text generalizing skipped with
  | nil => cases skipped <;> rfl
  | cons letter rest ih =>
      cases skipped with
      | zero => rfl
      | succ skipped => exact ih skipped

@[simp] theorem matchesOf_nil : matchesOf matcher [] = [] := rfl

theorem scan_letter {letter : Letter} {rest : List Letter} (none : matcher (letter :: rest) = none) :
    scan matcher (letter :: rest) = .inl letter :: scan matcher rest := by
  rw [scan, scanFrom, none]
  rfl

theorem scan_match {front back : List Letter} {found : Found}
    (here : matcher (front ++ back) = some (found, front.length)) (some : front ≠ []) :
    scan matcher (front ++ back) = .inr found :: scan matcher back := by
  cases front with
  | nil => exact absurd rfl some
  | cons letter front =>
      rw [List.cons_append] at here ⊢
      rw [scan, scanFrom, here]
      exact congrArg _ (scanFrom_append front back)

theorem matchesOf_letter {letter : Letter} {rest : List Letter}
    (none : matcher (letter :: rest) = none) :
    matchesOf matcher (letter :: rest) = matchesOf matcher rest := by
  rw [matchesOf, scan_letter none]
  rfl

theorem matchesOf_match {front back : List Letter} {found : Found}
    (here : matcher (front ++ back) = some (found, front.length)) (some : front ≠ []) :
    matchesOf matcher (front ++ back) = found :: matchesOf matcher back := by
  rw [matchesOf, scan_match here some]
  rfl

/-- Letters at which nothing is found are passed over. -/
theorem matchesOf_append {front back : List Letter}
    (none : ∀ start rest, front = start ++ rest → rest ≠ [] → matcher (rest ++ back) = none) :
    matchesOf matcher (front ++ back) = matchesOf matcher back := by
  induction front with
  | nil => rfl
  | cons letter front ih =>
      have notHere : matcher (letter :: (front ++ back)) = .none :=
        none [] _ rfl (List.cons_ne_nil _ _)
      rw [List.cons_append, matchesOf_letter notHere]
      refine ih fun start rest same some => none (letter :: start) rest ?_ some
      rw [same, List.cons_append]

theorem exists_of_mem_scanFrom {skipped : Nat} {text : List Letter} {found : Found}
    (member : .inr found ∈ scanFrom matcher skipped text) :
    ∃ front back length, text = front ++ back ∧ matcher back = some (found, length) := by
  induction text generalizing skipped with
  | nil => cases skipped <;> cases member
  | cons letter rest ih =>
      cases skipped with
      | succ skipped =>
          obtain ⟨front, back, length, rfl, here⟩ := ih member
          exact ⟨letter :: front, back, length, rfl, here⟩
      | zero =>
          rw [scanFrom] at member
          cases here : matcher (letter :: rest) with
          | none =>
              rw [here] at member
              rcases List.mem_cons.mp member with same | member
              · cases same
              · obtain ⟨front, back, length, rfl, later⟩ := ih member
                exact ⟨letter :: front, back, length, rfl, later⟩
          | some result =>
              obtain ⟨first, length⟩ := result
              rw [here] at member
              rcases List.mem_cons.mp member with same | member
              · cases same
                exact ⟨[], _, length, rfl, here⟩
              · obtain ⟨front, back, length, rfl, later⟩ := ih member
                exact ⟨letter :: front, back, length, rfl, later⟩

/-- Every match is found at some place of the text. -/
theorem exists_of_mem {text : List Letter} {found : Found}
    (member : found ∈ matchesOf matcher text) :
    ∃ front back length, text = front ++ back ∧ matcher back = some (found, length) := by
  obtain ⟨piece, among, same⟩ := List.mem_filterMap.mp member
  cases piece with
  | inl letter => cases same
  | inr other =>
      cases same
      exact exists_of_mem_scanFrom among

/-- The front of a text is passed over if the first match cannot be found there. -/
theorem matchesOf_passed {front back : List Letter} {first : Found} {others : List Found}
    (matched : matchesOf matcher (front ++ back) = first :: others)
    (absent : ∀ start rest length, front = start ++ rest → rest ≠ [] →
      matcher (rest ++ back) ≠ some (first, length)) :
    matchesOf matcher (front ++ back) = matchesOf matcher back := by
  induction front with
  | nil => rfl
  | cons letter front ih =>
      rw [List.cons_append] at matched ⊢
      cases here : matcher (letter :: (front ++ back)) with
      | none =>
          rw [matchesOf_letter here] at matched ⊢
          refine ih matched fun start rest length same => absent (letter :: start) rest length ?_
          rw [same, List.cons_append]
      | some result =>
          obtain ⟨found, length⟩ := result
          rw [matchesOf, scan, scanFrom, here] at matched
          obtain ⟨rfl, -⟩ := List.cons.inj matched
          exact absurd here (absent [] _ length rfl (List.cons_ne_nil _ _))

end Scan

/-!
## Runs between two texts
-/

section Enclosed

variable (opening : List Letter) (inside : Letter → Bool) (closing : List Letter)

/-- The letters after an opening text that belong to the run. -/
def enclosedRun (text : List Letter) : List Letter :=
  (text.drop opening.length).takeWhile inside

variable [BEq Letter]

/-- A run of letters between an opening and a closing text. -/
def matchEnclosed : Matcher Letter (List Letter) := fun text =>
  if opening.isPrefixOf text ∧ enclosedRun opening inside text ≠ [] ∧
      closing.isPrefixOf ((text.drop opening.length).dropWhile inside) then
    some (enclosedRun opening inside text,
      opening.length + (enclosedRun opening inside text).length + closing.length)
  else none

end Enclosed

section Enclosed

variable {opening : List Letter} {inside : Letter → Bool} {closing : List Letter}

theorem takeWhile_run {run rest : List Letter} (all : ∀ letter ∈ run, inside letter = true)
    (stops : ∀ letter, rest.head? = some letter → inside letter = false) :
    (run ++ rest).takeWhile inside = run ∧ (run ++ rest).dropWhile inside = rest := by
  rw [List.takeWhile_append_of_pos all, List.dropWhile_append_of_pos all]
  cases rest with
  | nil => exact ⟨List.append_nil _, rfl⟩
  | cons letter rest =>
      have stop : ¬ inside letter = true := by simp [stops letter rfl]
      rw [List.takeWhile_cons_of_neg stop, List.dropWhile_cons_of_neg stop]
      exact ⟨List.append_nil _, rfl⟩

variable [BEq Letter] [LawfulBEq Letter]

theorem matchEnclosed_of {run rest : List Letter} (some : run ≠ [])
    (all : ∀ letter ∈ run, inside letter = true)
    (stops : ∀ letter, (closing ++ rest).head? = .some letter → inside letter = false) :
    matchEnclosed opening inside closing (opening ++ (run ++ (closing ++ rest))) =
      .some (run, opening.length + run.length + closing.length) := by
  obtain ⟨taken, left⟩ := takeWhile_run all stops
  have isRun : enclosedRun opening inside (opening ++ (run ++ (closing ++ rest))) = run := by
    rw [enclosedRun, List.drop_left, taken]
  have starts : opening.isPrefixOf (opening ++ (run ++ (closing ++ rest))) = true :=
    List.isPrefixOf_iff_prefix.mpr (List.prefix_append _ _)
  have ends : closing.isPrefixOf (closing ++ rest) = true :=
    List.isPrefixOf_iff_prefix.mpr (List.prefix_append _ _)
  rw [matchEnclosed, isRun, List.drop_left, left, if_pos ⟨starts, some, ends⟩]

/-- What is enclosed, and the text around it. -/
theorem of_matchEnclosed {text found : List Letter} {length : Nat}
    (here : matchEnclosed opening inside closing text = some (found, length)) :
    found ≠ [] ∧ (∀ letter ∈ found, inside letter = true) ∧
      ∃ rest, text = opening ++ (found ++ (closing ++ rest)) := by
  rw [matchEnclosed, Option.ite_none_right_eq_some] at here
  obtain ⟨⟨starts, nonempty, ends⟩, same⟩ := here
  obtain ⟨rfl, -⟩ := Prod.mk.inj (Option.some.inj same)
  refine ⟨nonempty, fun letter member => List.mem_takeWhile_imp member, ?_⟩
  obtain ⟨after, rfl⟩ := List.isPrefixOf_iff_prefix.mp starts
  rw [List.drop_left] at ends
  obtain ⟨rest, split⟩ := List.isPrefixOf_iff_prefix.mp ends
  exact ⟨rest, by rw [split, enclosedRun, List.drop_left, List.takeWhile_append_dropWhile]⟩

end Enclosed

end Lib.Scanning
