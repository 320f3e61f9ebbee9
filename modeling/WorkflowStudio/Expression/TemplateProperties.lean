import WorkflowStudio.Expression.Resolver

/-! The templates of a text: where they stand in it, and when it has one. -/

set_option autoImplicit false

namespace WorkflowStudio.Expression

open Lib

theorem closeTemplate_spec {text inner after : List Char}
    (closed : closeTemplate text = some (inner, after)) :
    text = inner ++ '}' :: '}' :: after := by
  induction text using closeTemplate.induct generalizing inner after with
  | case1 rest =>
      cases closed
      rfl
  | case2 rest =>
      simp [closeTemplate] at closed
  | case3 value rest notClose notBreak ih =>
      rw [closeTemplate] at closed
      · obtain ⟨found, closes, same⟩ := Option.map_eq_some_iff.mp closed
        obtain ⟨innerRest, afterRest⟩ := found
        cases same
        rw [ih closes]
        rfl
      · exact notClose
      · exact notBreak
  | case4 => cases closed

theorem openTemplate_spec {text inner after : List Char}
    (opened : openTemplate text = some (inner, after)) :
    text = inner ++ '}' :: '}' :: after := by
  cases text with
  | nil => cases opened
  | cons value rest =>
      by_cases isBreak : value = '\n'
      · subst isBreak
        cases opened
      · rw [openTemplate] at opened
        · obtain ⟨found, closes, same⟩ := Option.map_eq_some_iff.mp opened
          obtain ⟨innerRest, afterRest⟩ := found
          cases same
          rw [closeTemplate_spec closes]
          rfl
        · exact isBreak

theorem template_within {fuel : Nat} {text inner : List Char}
    (listed : .template inner ∈ piecesFrom fuel text) :
    '{' :: '{' :: (inner ++ ['}', '}']) <:+: text := by
  induction fuel, text using piecesFrom.induct with
  | case1 | case2 => simp [piecesFrom] at listed
  | case3 fuel rest found after opened ih =>
      have whole := openTemplate_spec opened
      rw [piecesFrom, opened] at listed
      rcases List.mem_cons.mp listed with here | later
      · cases here
        exact ⟨[], after, by simp [whole]⟩
      · have tail : after <:+: '{' :: '{' :: rest :=
          ⟨'{' :: '{' :: found ++ ['}', '}'], [], by simp [whole]⟩
        exact (ih later).trans tail
  | case4 fuel rest unopened ih =>
      rw [piecesFrom, unopened] at listed
      rcases List.mem_cons.mp listed with here | later
      · cases here
      · exact (ih later).trans (List.suffix_cons _ _).isInfix
  | case5 fuel value rest noTemplate ih =>
      rw [piecesFrom] at listed
      · rcases List.mem_cons.mp listed with here | later
        · cases here
        · exact (ih later).trans (List.suffix_cons _ _).isInfix
      · exact noTemplate

theorem inner_within (inner : List Char) : inner <:+: '{' :: '{' :: (inner ++ ['}', '}']) :=
  ⟨['{', '{'], ['}', '}'], by simp⟩

theorem fullTemplate_spec {stripped inner : List Char}
    (full : fullTemplate stripped = some inner) :
    stripped = '{' :: '{' :: (inner ++ ['}', '}']) := by
  unfold fullTemplate at full
  split at full
  · next rest =>
      split at full
      · next reversed flipped =>
          split at full
          · cases full
          · cases full
            have straight := congrArg List.reverse flipped
            rw [List.reverse_reverse] at straight
            rw [straight]
            simp
      · cases full
  · cases full

theorem fullTemplate_inner {stripped inner : List Char}
    (full : fullTemplate stripped = some inner) : inner ≠ [] ∧ '\n' ∉ inner := by
  unfold fullTemplate at full
  split at full
  · split at full
    · split at full
      · cases full
      · next fine =>
          cases full
          rw [not_or] at fine
          exact ⟨fun empty => fine.1 (List.reverse_eq_nil_iff.mp empty),
            fun among => fine.2 (List.mem_reverse.mp among)⟩
    · cases full
  · cases full

theorem closeTemplate_isSome {inner : List Char} (after : List Char) (oneLine : '\n' ∉ inner) :
    (closeTemplate (inner ++ '}' :: '}' :: after)).isSome := by
  induction inner with
  | nil => rfl
  | cons value rest ih =>
      obtain ⟨notBreak, restOneLine⟩ := List.ne_and_not_mem_of_not_mem_cons oneLine
      unfold closeTemplate
      split
      · rfl
      · next same => exact absurd (List.cons.inj same).1.symm notBreak
      · next same =>
          obtain ⟨-, rfl⟩ := List.cons.inj same
          rw [Option.isSome_map]
          exact ih restOneLine
      · next same => cases same

theorem openTemplate_isSome {inner : List Char} (after : List Char) (some : inner ≠ [])
    (oneLine : '\n' ∉ inner) : (openTemplate (inner ++ '}' :: '}' :: after)).isSome := by
  cases inner with
  | nil => exact absurd rfl some
  | cons value rest =>
      obtain ⟨notBreak, restOneLine⟩ := List.ne_and_not_mem_of_not_mem_cons oneLine
      rw [List.cons_append, openTemplate]
      · rw [Option.isSome_map]
        exact closeTemplate_isSome after restOneLine
      · exact fun isBreak => notBreak isBreak.symm

theorem template_after_space {fuel : Nat} {space rest : List Char}
    (blank : ∀ value ∈ space, isSpace value = true) (opens : (openTemplate rest).isSome)
    (enough : space.length < fuel) :
    (piecesFrom fuel (space ++ '{' :: '{' :: rest)).any Piece.isTemplate = true := by
  induction space generalizing fuel with
  | nil =>
      obtain ⟨found, opened⟩ := Option.isSome_iff_exists.mp opens
      cases fuel with
      | zero => cases enough
      | succ fuel =>
          rw [List.nil_append, piecesFrom, opened]
          rfl
  | cons value others ih =>
      cases fuel with
      | zero => cases enough
      | succ fuel =>
          have noBrace : value ≠ '{' := by
            rintro rfl
            exact absurd (blank _ List.mem_cons_self) (by decide)
          rw [List.cons_append, piecesFrom]
          · rw [List.any_cons, ih (fun other member => blank other (List.mem_cons_of_mem _ member))
              (Nat.lt_of_succ_lt_succ enough), Bool.or_true]
          · intro _ same _
            exact noBrace same

theorem hasTemplateMarkers_of_fullTemplate {body : String} {inner : List Char}
    (full : fullTemplate (stripChars body.toList) = some inner) :
    hasTemplateMarkers body = true := by
  obtain ⟨some, oneLine⟩ := fullTemplate_inner full
  obtain ⟨after, front⟩ : stripChars body.toList <+: body.toList.dropWhile isSpace :=
    trim_front body.toList
  rw [fullTemplate_spec full] at front
  have whole : body.toList = body.toList.takeWhile isSpace ++
      '{' :: '{' :: (inner ++ '}' :: '}' :: after) := by
    conv_lhs => rw [← List.takeWhile_append_dropWhile (p := isSpace) (l := body.toList), ← front]
    simp
  unfold hasTemplateMarkers pieces
  rw [whole]
  refine template_after_space (fun value member => ?_) (openTemplate_isSome after some oneLine) ?_
  · exact List.all_eq_true.mp List.all_takeWhile value member
  · rw [List.length_append, List.length_cons]
    omega

theorem fullTemplate_eq_none {text : String}
    (unmarked : hasTemplateMarkers text = false) :
    fullTemplate (stripChars text.toList) = none := by
  cases full : fullTemplate (stripChars text.toList) with
  | none => rfl
  | some inner =>
      rw [hasTemplateMarkers_of_fullTemplate full] at unmarked
      cases unmarked

theorem stripped_ne_nil {body : String} (marked : hasTemplateMarkers body = true) :
    stripChars body.toList ≠ [] := by
  obtain ⟨piece, among, isTemplate⟩ := List.any_eq_true.mp marked
  cases piece with
  | text value => cases isTemplate
  | template inner =>
      obtain ⟨before, after, whole⟩ := template_within among
      intro empty
      have kept : ['{'] <:+: stripChars body.toList := by
        have parts : body.toList = before ++ ['{'] ++ ('{' :: (inner ++ ['}', '}']) ++ after) := by
          rw [← whole]
          simp
        rw [parts]
        refine trim_keeps (by simp) fun value member => ?_
        cases List.mem_singleton.mp member
        decide
      rw [empty] at kept
      exact absurd (List.eq_nil_of_infix_nil kept) (by simp)

end WorkflowStudio.Expression
