import WorkflowStudio.Lib.Scanning

/-! Replacing every occurrence of a text, from left to right, and replacing the occurrences of
several texts at once. -/

set_option autoImplicit false

namespace Lib.Replacing

open Lib.Scanning

variable {Letter Found : Type}

/-- The pieces of a text, with another text for each match. -/
def render (fill : Found → List Letter) (pieces : List (Letter ⊕ Found)) : List Letter :=
  pieces.flatMap (Sum.elim (fun letter => [letter]) fill)

theorem render_append (fill : Found → List Letter) (front back : List (Letter ⊕ Found)) :
    render fill (front ++ back) = render fill front ++ render fill back := List.flatMap_append

@[simp] theorem render_letter (fill : Found → List Letter) (letter : Letter)
    (pieces : List (Letter ⊕ Found)) :
    render fill (.inl letter :: pieces) = letter :: render fill pieces := rfl

@[simp] theorem render_match (fill : Found → List Letter) (found : Found)
    (pieces : List (Letter ⊕ Found)) :
    render fill (.inr found :: pieces) = fill found ++ render fill pieces := rfl

theorem render_split [DecidableEq Letter] [DecidableEq Found] (fill : Found → List Letter)
    {found : Found}
    {pieces : List (Letter ⊕ Found)} (member : .inr found ∈ pieces) :
    ∃ front back, .inr found ∉ front ∧
      render fill pieces = render fill front ++ fill found ++ render fill back ∧
      pieces = front ++ .inr found :: back := by
  induction pieces with
  | nil => cases member
  | cons piece rest ih =>
      by_cases here : piece = .inr found
      · subst here
        exact ⟨[], rest, List.not_mem_nil, rfl, rfl⟩
      · have later := (List.mem_cons.mp member).resolve_left fun same => here same.symm
        obtain ⟨front, back, absent, rendered, rfl⟩ := ih later
        refine ⟨piece :: front, back, ?_, ?_, rfl⟩
        · exact List.not_mem_cons_of_ne_of_not_mem (fun same => here same.symm) absent
        · cases piece with
          | inl letter =>
              rw [render_letter, rendered]
              rfl
          | inr other =>
              rw [render_match, rendered, render_match]
              simp only [List.append_assoc]

/-- A place in a rendered text is in that of one piece. -/
theorem render_at {fill : Found → List Letter} {pieces : List (Letter ⊕ Found)} {place : Nat}
    (inside : place < (render fill pieces).length) :
    ∃ front piece back, pieces = front ++ piece :: back ∧ (render fill front).length ≤ place ∧
      place < (render fill (front ++ [piece])).length := by
  induction pieces generalizing place with
  | nil => cases inside
  | cons piece rest ih =>
      rw [← List.singleton_append, render_append, List.length_append] at inside
      by_cases here : place < (render fill [piece]).length
      · exact ⟨[], piece, rest, rfl, Nat.zero_le _, here⟩
      · obtain ⟨front, other, back, rfl, least, most⟩ :=
          @ih (place - (render fill [piece]).length) (by omega)
        refine ⟨piece :: front, other, back, rfl, ?_, ?_⟩
        · rw [← List.singleton_append, render_append, List.length_append]
          omega
        · rw [List.cons_append, ← List.singleton_append, render_append, List.length_append]
          omega

theorem render_congr {fill other : Found → List Letter} {pieces : List (Letter ⊕ Found)}
    (same : ∀ found, .inr found ∈ pieces → fill found = other found) :
    render fill pieces = render other pieces := by
  refine List.flatMap_congr fun piece member => ?_
  cases piece with
  | inl letter => rfl
  | inr found => exact same found member

section Matcher

variable {matcher : Matcher Letter Found}

/-- A text with the texts of its matches in their places is the text itself. -/
theorem render_scan_self {fill : Found → List Letter}
    (own : ∀ text found length, matcher text = some (found, length) →
      fill found ≠ [] ∧ length = (fill found).length ∧ fill found <+: text)
    (text : List Letter) : render fill (scan matcher text) = text := by
  induction length : text.length using Nat.strong_induction_on generalizing text with
  | _ size ih =>
      subst length
      cases text with
      | nil => rfl
      | cons letter rest =>
          cases here : matcher (letter :: rest) with
          | none =>
              rw [scan_letter here, render_letter, ih rest.length (Nat.lt_succ_self _) rest rfl]
          | some result =>
              obtain ⟨found, length⟩ := result
              obtain ⟨some, rfl, back, split⟩ := own _ _ _ here
              rw [← split] at here ⊢
              have shorter : back.length < (letter :: rest).length := by
                rw [← split, List.length_append]
                exact Nat.lt_add_of_pos_left (List.length_pos_iff.mpr some)
              rw [scan_match here some, render_match, ih back.length shorter back rfl]

theorem length_render_scan_le {fill : Found → List Letter}
    (small : ∀ text found length, matcher text = some (found, length) →
      0 < length ∧ length ≤ text.length ∧ (fill found).length ≤ length)
    (text : List Letter) : (render fill (scan matcher text)).length ≤ text.length := by
  induction length : text.length using Nat.strong_induction_on generalizing text with
  | _ size ih =>
      subst length
      cases text with
      | nil => exact Nat.le_refl _
      | cons letter rest =>
          cases here : matcher (letter :: rest) with
          | none =>
              rw [scan_letter here, render_letter]
              exact Nat.succ_le_succ (ih rest.length (Nat.lt_succ_self _) rest rfl)
          | some result =>
              obtain ⟨found, length⟩ := result
              obtain ⟨positive, fits, short⟩ := small _ _ _ here
              have split := (List.take_append_drop length (letter :: rest)).symm
              have taken : ((letter :: rest).take length).length = length :=
                List.length_take_of_le fits
              have behind : ((letter :: rest).drop length).length + length =
                  (letter :: rest).length := by
                rw [List.length_drop]
                omega
              have again : matcher ((letter :: rest).take length ++ (letter :: rest).drop length) =
                  some (found, ((letter :: rest).take length).length) := by
                rw [← split, taken, here]
              have some : (letter :: rest).take length ≠ [] :=
                List.ne_nil_of_length_pos (by rw [taken]; exact positive)
              rw [split, scan_match again some, render_match, ← split, List.length_append]
              have bound := ih _ (by omega) ((letter :: rest).drop length) rfl
              omega

theorem scan_eq_cons {text : List Letter} {piece : Letter ⊕ Found}
    {pieces : List (Letter ⊕ Found)} (scanned : scan matcher text = piece :: pieces) :
    (∃ rest, pieces = scan matcher rest) ∧
      ∀ letter, piece = .inl letter → matcher text = none ∧
        ∃ rest, text = letter :: rest ∧ pieces = scan matcher rest := by
  cases text with
  | nil => cases scanned
  | cons first rest =>
      cases here : matcher (first :: rest) with
      | none =>
          rw [scan_letter here] at scanned
          cases scanned
          refine ⟨⟨rest, rfl⟩, ?_⟩
          rintro letter ⟨⟩
          exact ⟨rfl, rest, rfl, rfl⟩
      | some result =>
          obtain ⟨found, length⟩ := result
          rw [scan, scanFrom, here] at scanned
          cases scanned
          refine ⟨⟨rest.drop (length - 1), (scanFrom_eq_scan_drop (length - 1) rest)⟩, ?_⟩
          rintro letter ⟨⟩

/-- The pieces behind some others are those of a text of their own. -/
theorem exists_scan_of_append {text : List Letter} {front back : List (Letter ⊕ Found)}
    (scanned : scan matcher text = front ++ back) : ∃ rest, back = scan matcher rest := by
  induction front generalizing text with
  | nil => exact ⟨text, scanned.symm⟩
  | cons piece front ih =>
      obtain ⟨⟨rest, same⟩, -⟩ := scan_eq_cons scanned
      exact ih same.symm

/-- At a letter between the matches nothing is found. -/
theorem unmatched {fill : Found → List Letter}
    (own : ∀ text found length, matcher text = some (found, length) →
      fill found ≠ [] ∧ length = (fill found).length ∧ fill found <+: text)
    {text : List Letter} {letter : Letter} {front back : List (Letter ⊕ Found)}
    (scanned : scan matcher text = front ++ .inl letter :: back) :
    matcher (letter :: render fill back) = none := by
  obtain ⟨rest, same⟩ := exists_scan_of_append scanned
  obtain ⟨none, after, rfl, rfl⟩ := (scan_eq_cons same.symm).2 letter rfl
  rwa [render_scan_self own]

/-- Two patterns that find the same in every part of a text. -/
theorem scan_congr {Other : Type} {other : Matcher Letter Other} {name : Other → Found}
    {text : List Letter}
    (same : ∀ back, back <:+ text →
      matcher back = (other back).map fun found => (name found.1, found.2)) :
    scan matcher text = (scan other text).map (Sum.map id name) := by
  have every : ∀ skipped, scanFrom matcher skipped text =
      (scanFrom other skipped text).map (Sum.map id name) := by
    induction text with
    | nil => exact fun skipped => by cases skipped <;> rfl
    | cons letter rest ih =>
        have later := ih fun back suffix => same back (suffix.trans (List.suffix_cons _ _))
        intro skipped
        cases skipped with
        | succ skipped => exact later skipped
        | zero =>
            rw [scanFrom, scanFrom, same _ List.suffix_rfl]
            cases other (letter :: rest) with
            | none => exact congrArg _ (later 0)
            | some found => exact congrArg _ (later _)
  exact every 0

theorem render_map {Other : Type} (fill : Found → List Letter) (name : Other → Found)
    (pieces : List (Letter ⊕ Other)) :
    render fill (pieces.map (Sum.map id name)) = render (fill ∘ name) pieces := by
  rw [render, List.flatMap_map]
  refine List.flatMap_congr fun piece _ => ?_
  cases piece <;> rfl

end Matcher

variable [DecidableEq Letter]

def matchText (pattern : List Letter) : Matcher Letter Unit := fun text =>
  if pattern.isPrefixOf text then some ((), pattern.length) else none

/-- Every occurrence of the pattern is replaced by the value. -/
def replaceAll (pattern value text : List Letter) : List Letter :=
  render (fun _ => value) (scan (matchText pattern) text)

section ReplaceAll

variable {pattern value : List Letter}

@[simp] theorem replaceAll_nil : replaceAll pattern value [] = [] := rfl

theorem replaceAll_match (some : pattern ≠ []) (rest : List Letter) :
    replaceAll pattern value (pattern ++ rest) = value ++ replaceAll pattern value rest := by
  have here : matchText pattern (pattern ++ rest) = .some ((), pattern.length) :=
    if_pos (List.isPrefixOf_iff_prefix.mpr (List.prefix_append _ _))
  rw [replaceAll, scan_match here some, render_match]
  rfl

theorem replaceAll_letter {letter : Letter} {rest : List Letter}
    (absent : ¬ pattern <+: letter :: rest) :
    replaceAll pattern value (letter :: rest) = letter :: replaceAll pattern value rest := by
  have none : matchText pattern (letter :: rest) = none :=
    if_neg fun starts => absent (List.isPrefixOf_iff_prefix.mp starts)
  rw [replaceAll, scan_letter none, render_letter]
  rfl

/-- A text at the start of which the pattern stands, or not. -/
theorem replaceAll_cases (some : pattern ≠ []) (letter : Letter) (rest : List Letter) :
    (∃ back, letter :: rest = pattern ++ back ∧ back.length < (letter :: rest).length ∧
        replaceAll pattern value (letter :: rest) = value ++ replaceAll pattern value back) ∨
      (¬ pattern <+: letter :: rest ∧
        replaceAll pattern value (letter :: rest) = letter :: replaceAll pattern value rest) := by
  by_cases starts : pattern <+: letter :: rest
  · obtain ⟨back, split⟩ := starts
    refine .inl ⟨back, split.symm, ?_, ?_⟩
    · rw [← split, List.length_append]
      exact Nat.lt_add_of_pos_left (List.length_pos_iff.mpr some)
    · rw [← split, replaceAll_match some]
  · exact .inr ⟨starts, replaceAll_letter starts⟩

theorem replaceAll_absent {text : List Letter} (absent : ¬ pattern <:+: text) :
    replaceAll pattern value text = text := by
  induction text with
  | nil => rfl
  | cons letter rest ih =>
      rw [replaceAll_letter fun starts => absent starts.isInfix,
        ih fun inside => absent (inside.trans (List.suffix_cons letter rest).isInfix)]

theorem replaceAll_self (some : pattern ≠ []) (text : List Letter) :
    replaceAll pattern pattern text = text := by
  induction length : text.length using Nat.strong_induction_on generalizing text with
  | _ size ih =>
      subst length
      cases text with
      | nil => rfl
      | cons letter rest =>
          rcases @replaceAll_cases _ _ pattern pattern some letter rest with
            ⟨back, split, shorter, replaced⟩ | ⟨_, replaced⟩
          · rw [replaced, ih back.length shorter back rfl, ← split]
          · rw [replaced, ih rest.length (Nat.lt_succ_self _) rest rfl]

/-- The text before the first occurrence of the pattern stays. -/
theorem replaceAll_first (some : pattern ≠ []) {text : List Letter} (inside : pattern <:+: text) :
    ∃ front back, text = front ++ pattern ++ back ∧
      replaceAll pattern value text = front ++ value ++ replaceAll pattern value back := by
  induction text with
  | nil => exact absurd (List.infix_nil.mp inside) some
  | cons letter rest ih =>
      rcases @replaceAll_cases _ _ pattern value some letter rest with
        ⟨back, split, _, replaced⟩ | ⟨absent, replaced⟩
      · exact ⟨[], back, split, replaced⟩
      · obtain ⟨front, back, split, later⟩ :=
          ih ((List.infix_cons_iff.mp inside).resolve_left absent)
        refine ⟨letter :: front, back, ?_, ?_⟩
        · rw [split]
          rfl
        · rw [replaced, later]
          rfl

/-- Two texts between which the pattern does not stand are replaced one by one. -/
theorem replaceAll_append (some : pattern ≠ []) {front back : List Letter}
    (apart : ∀ left right, left ≠ [] → right ≠ [] → pattern = left ++ right → left <:+ front →
      ¬ right <+: back) :
    replaceAll pattern value (front ++ back) =
      replaceAll pattern value front ++ replaceAll pattern value back := by
  induction length : front.length using Nat.strong_induction_on generalizing front with
  | _ size ih =>
      subst length
      cases front with
      | nil => rfl
      | cons letter rest =>
          have later {part : List Letter} (suffix : part <:+ letter :: rest)
              (shorter : part.length < (letter :: rest).length) :
              replaceAll pattern value (part ++ back) =
                replaceAll pattern value part ++ replaceAll pattern value back :=
            ih part.length shorter
              (fun left right one two split ends => apart left right one two split
                (ends.trans suffix)) rfl
          rcases @replaceAll_cases _ _ pattern value some letter rest with
            ⟨part, split, shorter, replaced⟩ | ⟨absent, replaced⟩
          · rw [replaced, List.append_assoc, ← later ⟨pattern, split.symm⟩ shorter, split,
              List.append_assoc, replaceAll_match some]
          · have none : ¬ pattern <+: letter :: (rest ++ back) := by
              rw [← List.cons_append]
              intro starts
              rcases List.prefix_or_prefix_of_prefix starts (List.prefix_append _ _) with
                within | ⟨right, split⟩
              · exact absent within
              · refine apart (letter :: rest) right (List.cons_ne_nil _ _) ?_ split.symm
                  List.suffix_rfl ?_
                · rintro rfl
                  rw [List.append_nil] at split
                  exact absent (split ▸ List.prefix_rfl)
                · rw [← split] at starts
                  exact (List.prefix_append_right_inj _).mp starts
            rw [replaced, List.cons_append, replaceAll_letter none,
              later (List.suffix_cons letter rest) (Nat.lt_succ_self _)]
            rfl

theorem length_replaceAll_le (small : value.length ≤ pattern.length) (some : pattern ≠ [])
    (text : List Letter) : (replaceAll pattern value text).length ≤ text.length := by
  induction length : text.length using Nat.strong_induction_on generalizing text with
  | _ size ih =>
      subst length
      cases text with
      | nil => exact Nat.le_refl _
      | cons letter rest =>
          rcases @replaceAll_cases _ _ pattern value some letter rest with
            ⟨back, split, shorter, replaced⟩ | ⟨_, replaced⟩
          · have bound := ih back.length shorter back rfl
            rw [replaced, split, List.length_append, List.length_append]
            omega
          · rw [replaced]
            exact Nat.succ_le_succ (ih rest.length (Nat.lt_succ_self _) rest rfl)

end ReplaceAll

end Lib.Replacing
