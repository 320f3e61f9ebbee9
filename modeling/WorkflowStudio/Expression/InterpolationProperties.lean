import WorkflowStudio.Expression.InjectionProperties
import WorkflowStudio.Lib.Separated

/-! Which texts with templates are interpolated template by template. -/

set_option autoImplicit false

namespace WorkflowStudio.Expression

open Lib

/-!
## Scanning
-/

/-- The template at the start of a text. -/
def templateAt : List Char → Option (List Char × List Char)
  | '{' :: '{' :: rest => openTemplate rest
  | _ => none

/-- The pieces of a text, without a bound on the scan. -/
inductive Scans : List Char → List Piece → Prop
  | done : Scans [] []
  | template {text inner after : List Char} {later : List Piece}
      (opened : templateAt text = some (inner, after)) (scans : Scans after later) :
      Scans text (.template inner :: later)
  | text {value : Char} {rest : List Char} {later : List Piece}
      (unopened : templateAt (value :: rest) = none) (scans : Scans rest later) :
      Scans (value :: rest) (.text value :: later)

theorem templateAt_of_other {value : Char} {rest : List Char}
    (other : ∀ tail, value = '{' → rest = '{' :: tail → False) :
    templateAt (value :: rest) = none := by
  unfold templateAt
  split
  · rename_i tail same
    obtain ⟨rfl, rfl⟩ := List.cons.inj same
    exact (other tail rfl rfl).elim
  · rfl

theorem scans_piecesFrom {fuel : Nat} {text : List Char} (enough : text.length ≤ fuel) :
    Scans text (piecesFrom fuel text) := by
  induction fuel, text using piecesFrom.induct with
  | case1 text =>
      rw [List.eq_nil_of_length_eq_zero (Nat.le_zero.mp enough)]
      exact .done
  | case2 => simpa [piecesFrom] using Scans.done
  | case3 fuel rest inner after opened ih =>
      have whole := congrArg List.length (openTemplate_spec opened)
      rw [piecesFrom, opened]
      refine .template opened (ih ?_)
      simp only [List.length_cons, List.length_append] at whole enough
      omega
  | case4 fuel rest unopened ih =>
      rw [piecesFrom, unopened]
      exact .text unopened (ih (Nat.le_of_succ_le_succ enough))
  | case5 fuel value rest noTemplate ih =>
      rw [piecesFrom]
      · exact .text (templateAt_of_other noTemplate) (ih (Nat.le_of_succ_le_succ enough))
      · exact noTemplate

theorem scans_pieces (text : String) : Scans text.toList (pieces text) :=
  scans_piecesFrom le_rfl

theorem Scans.unique {text : List Char} {left right : List Piece} (first : Scans text left)
    (second : Scans text right) : left = right := by
  induction first generalizing right with
  | done =>
      cases second with
      | done => rfl
      | template opened _ => cases opened
  | template opened _ ih =>
      cases second with
      | done => cases opened
      | template other scans =>
          rw [opened] at other
          cases other
          rw [ih scans]
      | text unopened _ =>
          rw [opened] at unopened
          cases unopened
  | text unopened _ ih =>
      cases second with
      | template opened _ =>
          rw [unopened] at opened
          cases opened
      | text _ scans => rw [ih scans]

/-- No template starts in the front of a text. -/
def Silent (front rest : List Char) : Prop :=
  ∀ before after, front = before ++ after → after ≠ [] → templateAt (after ++ rest) = none

theorem Silent.tail {value : Char} {front rest : List Char}
    (silent : Silent (value :: front) rest) : Silent front rest := by
  rintro before after rfl some
  exact silent (value :: before) after rfl some

theorem scans_silent_iff {front rest : List Char} (silent : Silent front rest)
    {found : List Piece} :
    Scans (front ++ rest) found ↔
      ∃ later, found = front.map .text ++ later ∧ Scans rest later := by
  induction front generalizing found with
  | nil => simp
  | cons value front ih =>
      have unopened := silent [] (value :: front) rfl (List.cons_ne_nil _ _)
      constructor
      · intro scans
        cases scans with
        | template opened _ =>
            rw [unopened] at opened
            cases opened
        | text _ scans =>
            obtain ⟨later, rfl, rest⟩ := (ih silent.tail).mp scans
            exact ⟨later, rfl, rest⟩
      · rintro ⟨later, rfl, scans⟩
        exact .text unopened ((ih silent.tail).mpr ⟨later, rfl, scans⟩)

/-!
## Texts with templates
-/

def noOpening (text : List Char) : Prop := ¬ ['{', '{'] <:+: text

def noClosing (text : List Char) : Prop := ¬ ['}', '}'] <:+: text

theorem noOpening.of_part {text part : List Char} (unopened : noOpening text)
    (within : part <:+: text) : noOpening part := fun among => unopened (among.trans within)

theorem noClosing.of_part {text part : List Char} (unclosed : noClosing text)
    (within : part <:+: text) : noClosing part := fun among => unclosed (among.trans within)

/-- A front without opening braces is silent, unless its last brace opens a template
together with the brace after it. -/
theorem silent_of_apart {front rest : List Char} (unopened : noOpening front)
    (apart : front.getLast? ≠ some '{' ∨ rest.head? ≠ some '{') : Silent front rest := by
  rintro before after rfl some
  cases after with
  | nil => exact absurd rfl some
  | cons value after =>
      refine templateAt_of_other ?_
      rintro tail rfl opens
      cases after with
      | nil =>
          have starts : rest = '{' :: tail := opens
          rcases apart with last | head
          · exact last (by simp)
          · exact head (by rw [starts]; rfl)
      | cons next after =>
          obtain ⟨rfl, _⟩ := List.cons.inj opens
          exact unopened ⟨before, after, by simp⟩

theorem closeTemplate_exact {inner : List Char} (oneLine : '\n' ∉ inner)
    (unclosed : noClosing inner) (last : inner.getLast? ≠ some '}') (after : List Char) :
    closeTemplate (inner ++ '}' :: '}' :: after) = some (inner, after) := by
  induction inner with
  | nil => rfl
  | cons value inner ih =>
      obtain ⟨notBreak, restOneLine⟩ := List.ne_and_not_mem_of_not_mem_cons oneLine
      have restUnclosed : noClosing inner := unclosed.of_part (List.suffix_cons _ _).isInfix
      have restLast : inner.getLast? ≠ some '}' := by
        cases inner with
        | nil => simp
        | cons next inner => rwa [List.getLast?_cons_cons] at last
      rw [List.cons_append, closeTemplate, ih restOneLine restUnclosed restLast]
      · rfl
      · rintro tail rfl same
        cases inner with
        | nil => exact last rfl
        | cons next inner =>
            obtain ⟨rfl, _⟩ := List.cons.inj same
            exact unclosed ⟨[], inner, rfl⟩
      · exact fun isBreak => notBreak isBreak.symm

/-- A line break stops the search for the end of a template. -/
theorem closeTemplate_break {front : List Char} (unclosed : noClosing front) (rest : List Char) :
    closeTemplate (front ++ '\n' :: rest) = none := by
  induction front with
  | nil => rfl
  | cons value front ih =>
      have restUnclosed : noClosing front := unclosed.of_part (List.suffix_cons _ _).isInfix
      by_cases isBreak : value = '\n'
      · subst isBreak
        rfl
      · rw [List.cons_append, closeTemplate, ih restUnclosed]
        · rfl
        · rintro tail rfl same
          cases front with
          | nil => cases same
          | cons next front =>
              obtain ⟨rfl, _⟩ := List.cons.inj same
              exact unclosed ⟨[], front, rfl⟩
        · exact fun same => isBreak same

theorem openTemplate_break {front : List Char} (unclosed : noClosing front) (rest : List Char) :
    openTemplate (front ++ '\n' :: rest) = none := by
  cases front with
  | nil => rfl
  | cons value front =>
      by_cases isBreak : value = '\n'
      · subst isBreak
        rfl
      · have restUnclosed : noClosing front := unclosed.of_part (List.suffix_cons _ _).isInfix
        rw [List.cons_append, openTemplate, closeTemplate_break restUnclosed]
        · rfl
        · exact fun same => isBreak same

theorem openTemplate_exact {expression : List Char} (some : expression ≠ [])
    (oneLine : '\n' ∉ expression) (unclosed : noClosing expression)
    (last : expression.tail.getLast? ≠ .some '}') (after : List Char) :
    openTemplate (expression ++ '}' :: '}' :: after) = .some (expression, after) := by
  cases expression with
  | nil => exact absurd rfl some
  | cons value rest =>
      obtain ⟨notBreak, restOneLine⟩ := List.ne_and_not_mem_of_not_mem_cons oneLine
      have restUnclosed : noClosing rest := unclosed.of_part (List.suffix_cons _ _).isInfix
      rw [List.cons_append, openTemplate, closeTemplate_exact restOneLine restUnclosed last]
      · rfl
      · exact fun isBreak => notBreak isBreak.symm

theorem text_of_templateAt_none {value : Char} {rest : List Char} {found : List Piece}
    (unopened : templateAt (value :: rest) = none) (scans : Scans (value :: rest) found) :
    ∃ later, found = .text value :: later ∧ Scans rest later := by
  cases scans with
  | template opened _ =>
      rw [unopened] at opened
      cases opened
  | text _ scans => exact ⟨_, rfl, scans⟩

theorem template_of_templateAt {text inner after : List Char} {found : List Piece}
    (opened : templateAt text = some (inner, after)) (scans : Scans text found) :
    ∃ later, found = .template inner :: later ∧ Scans after later := by
  cases scans with
  | done => cases opened
  | template other scans =>
      rw [opened] at other
      cases other
      exact ⟨_, rfl, scans⟩
  | text unopened _ =>
      rw [opened] at unopened
      cases unopened

/-!
## Template bodies
-/

/-- A literal, and then every expression with the literal after it. -/
def templateBody (first : List Char) : List (List Char × List Char) → List Char
  | [] => first
  | (expression, literal) :: rest =>
      first ++ '{' :: '{' :: (expression ++ '}' :: '}' :: templateBody literal rest)

def IsLiteral (text : List Char) : Prop := noOpening text ∧ noClosing text

/-- In front of the last brace of a literal there is no other. -/
theorem IsLiteral.brace_front {front : List Char} (isLiteral : IsLiteral (front ++ ['{'])) :
    noOpening front ∧ front.getLast? ≠ some '{' := by
  refine ⟨isLiteral.1.of_part (List.prefix_append _ _).isInfix, ?_⟩
  intro doubled
  obtain ⟨start, rfl⟩ := List.getLast?_eq_some_iff.mp doubled
  exact isLiteral.1 ⟨start, [], by simp⟩

def IsExpression (text : List Char) : Prop :=
  (∃ value ∈ text, isSpace value = false) ∧ noClosing text

theorem IsExpression.ne_nil {text : List Char} (isExpression : IsExpression text) : text ≠ [] := by
  obtain ⟨value, member, _⟩ := isExpression.1
  exact List.ne_nil_of_mem member

/-- Every template ends where its expression ends, and starts where its literal ends. -/
def Separated (first : List Char) : List (List Char × List Char) → Prop
  | [] => True
  | (expression, literal) :: rest =>
      first.getLast? ≠ some '{' ∧ '\n' ∉ expression ∧ expression.tail.getLast? ≠ some '}' ∧
        Separated literal rest

def expectedPieces (first : List Char) (segments : List (List Char × List Char)) : List Piece :=
  first.map .text ++ segments.flatMap fun segment => .template segment.1 :: segment.2.map .text

theorem templateAt_exact {expression : List Char} (isExpression : IsExpression expression)
    (oneLine : '\n' ∉ expression) (last : expression.tail.getLast? ≠ some '}')
    (after : List Char) :
    templateAt ('{' :: '{' :: (expression ++ '}' :: '}' :: after)) = some (expression, after) :=
  openTemplate_exact isExpression.ne_nil oneLine isExpression.2 last after

theorem separated_first {first : List Char} {segments : List (List Char × List Char)}
    (some : segments ≠ []) (separated : Separated first segments) :
    first.getLast? ≠ .some '{' := by
  cases segments with
  | nil => exact absurd rfl some
  | cons segment rest => exact separated.1

theorem scans_separated {first : List Char} {segments : List (List Char × List Char)}
    (literal : IsLiteral first)
    (parts : ∀ segment ∈ segments, IsExpression segment.1 ∧ IsLiteral segment.2)
    (separated : Separated first segments) :
    Scans (templateBody first segments) (expectedPieces first segments) := by
  induction segments generalizing first with
  | nil =>
      have silent : Silent first [] := silent_of_apart literal.1 (.inr (by simp))
      have scans : Scans (first ++ []) (first.map .text ++ []) :=
        (scans_silent_iff silent).mpr ⟨[], rfl, .done⟩
      simpa [templateBody, expectedPieces] using scans
  | cons segment rest ih =>
      obtain ⟨expression, next⟩ := segment
      obtain ⟨apart, oneLine, last, separated⟩ := separated
      obtain ⟨isExpression, nextLiteral⟩ := parts _ List.mem_cons_self
      have later := ih nextLiteral (fun segment member => parts segment (.tail _ member)) separated
      refine (scans_silent_iff (silent_of_apart literal.1 (.inl apart))).mpr ⟨_, rfl, ?_⟩
      exact .template (templateAt_exact isExpression oneLine last _) later

/-!
## The text between the templates
-/

/-- The text before the first template, and the text after each. -/
def segmentsOf : List Piece → List Char × List (List Char)
  | [] => ([], [])
  | .text value :: rest => (value :: (segmentsOf rest).1, (segmentsOf rest).2)
  | .template _ :: rest => ([], (segmentsOf rest).1 :: (segmentsOf rest).2)

theorem segmentsOf_front (front : List Char) (later : List Piece) :
    segmentsOf (front.map .text ++ later) =
      (front ++ (segmentsOf later).1, (segmentsOf later).2) := by
  induction front with
  | nil => rfl
  | cons value front ih =>
      rw [List.map_cons, List.cons_append, segmentsOf, ih]
      rfl

/-- A literal either stands in front of what follows it, or its last brace belongs
to the template after it. -/
theorem literal_front {literal more : List Char} {found : List Piece}
    (isLiteral : IsLiteral literal) (scans : Scans (literal ++ more) found) :
    literal <+: (segmentsOf found).1 ∨
      ∃ front, literal = front ++ ['{'] ∧ front <+: (segmentsOf found).1 := by
  by_cases last : literal.getLast? = some '{'
  · obtain ⟨front, rfl⟩ := List.getLast?_eq_some_iff.mp last
    obtain ⟨unopened, apart⟩ := isLiteral.brace_front
    rw [List.append_assoc] at scans
    obtain ⟨later, rfl, _⟩ := (scans_silent_iff (silent_of_apart unopened (.inl apart))).mp scans
    refine .inr ⟨front, rfl, ?_⟩
    rw [segmentsOf_front]
    exact List.prefix_append _ _
  · obtain ⟨later, rfl, _⟩ :=
      (scans_silent_iff (silent_of_apart isLiteral.1 (.inl last))).mp scans
    rw [segmentsOf_front]
    exact .inl (List.prefix_append _ _)

theorem templateBody_eq (first : List Char) (segments : List (List Char × List Char)) :
    ∃ more, templateBody first segments = first ++ more := by
  cases segments with
  | nil => exact ⟨[], (List.append_nil _).symm⟩
  | cons segment rest => exact ⟨_, rfl⟩

/-- The text after a template does not start with a brace that the template left. -/
theorem no_brace_left {literal : List Char} {rest : List (List Char × List Char)}
    {found : List Piece} (isLiteral : IsLiteral literal)
    (scans : Scans ('}' :: templateBody literal rest) found) :
    (segmentsOf found).1 ≠ literal := by
  intro same
  obtain ⟨more, whole⟩ := templateBody_eq literal rest
  rw [whole] at scans
  obtain ⟨later, rfl, tailScans⟩ := text_of_templateAt_none rfl scans
  have shifted : '}' :: (segmentsOf later).1 = literal := same
  have long := congrArg List.length shifted
  rw [List.length_cons] at long
  rcases literal_front isLiteral tailScans with isFront | ⟨front, opens, isFront⟩
  · have short := isFront.length_le
    omega
  · have frontEq : front = (segmentsOf later).1 := by
      refine isFront.eq_of_length ?_
      rw [opens, List.length_append] at long
      simpa using long.symm
    -- A closing brace in front and an opening brace at the end are no rotation.
    have counted := congrArg (List.count '{') shifted
    rw [opens, ← frontEq] at counted
    simp at counted

/-- A line break in an expression keeps its braces in the text. -/
theorem templateAt_break {expression : List Char} (isExpression : IsExpression expression)
    (lineBreak : '\n' ∈ expression) (after : List Char) :
    templateAt ('{' :: '{' :: (expression ++ after)) = none := by
  obtain ⟨front, back, rfl⟩ := List.append_of_mem lineBreak
  have unclosed : noClosing front := isExpression.2.of_part (List.prefix_append _ _).isInfix
  rw [List.append_assoc]
  exact openTemplate_break unclosed _

/-- A literal that ends with an opening brace is cut short, or too long. -/
theorem literal_apart {first expression after : List Char} {found : List Piece}
    (isLiteral : IsLiteral first) (isExpression : IsExpression expression)
    (scans : Scans (first ++ '{' :: '{' :: (expression ++ '}' :: '}' :: after)) found)
    (same : (segmentsOf found).1 = first) : first.getLast? ≠ some '{' := by
  intro last
  obtain ⟨front, rfl⟩ := List.getLast?_eq_some_iff.mp last
  obtain ⟨unopened, apart⟩ := isLiteral.brace_front
  rw [List.append_assoc] at scans
  obtain ⟨later, rfl, braces⟩ := (scans_silent_iff (silent_of_apart unopened (.inl apart))).mp scans
  rw [segmentsOf_front, List.append_cancel_left_eq] at same
  by_cases lineBreak : '\n' ∈ expression
  · have longer : IsExpression ('{' :: expression) := by
      obtain ⟨⟨value, member, solid⟩, unclosed⟩ := isExpression
      refine ⟨⟨value, List.mem_cons_of_mem _ member, solid⟩, fun among => ?_⟩
      rcases List.infix_cons_iff.mp among with isFront | within
      · exact absurd (List.cons_prefix_cons.mp isFront).1 (by decide)
      · exact unclosed within
    obtain ⟨second, rfl, fewer⟩ := text_of_templateAt_none
      (templateAt_break longer (List.mem_cons_of_mem _ lineBreak) _) braces
    obtain ⟨third, rfl, _⟩ :=
      text_of_templateAt_none (templateAt_break isExpression lineBreak _) fewer
    cases same
  · have opens := openTemplate_isSome after (List.cons_ne_nil '{' expression) (by simp [lineBreak])
    obtain ⟨⟨inner, left⟩, opened⟩ := Option.isSome_iff_exists.mp opens
    have template : templateAt ('{' :: '{' :: ('{' :: expression ++ '}' :: '}' :: after)) =
      some (inner, left) := opened
    obtain ⟨second, rfl, _⟩ := template_of_templateAt template braces
    cases same

/-- A template ends at the first two closing braces, and leaves the third. -/
theorem expression_apart {expression literal : List Char} {rest : List (List Char × List Char)}
    {found : List Piece} (isExpression : IsExpression expression) (oneLine : '\n' ∉ expression)
    (isLiteral : IsLiteral literal)
    (scans : Scans ('{' :: '{' :: (expression ++ '}' :: '}' :: templateBody literal rest)) found)
    (same : (segmentsOf found).2.head? = some literal) : expression.tail.getLast? ≠ some '}' := by
  intro last
  obtain ⟨value, front, rfl⟩ : ∃ value front, expression = value :: (front ++ ['}']) := by
    cases expression with
    | nil => cases last
    | cons value rest =>
        obtain ⟨front, whole⟩ := List.getLast?_eq_some_iff.mp last
        exact ⟨value, front, congrArg _ whole⟩
  have unclosed : noClosing (value :: front) := isExpression.2.of_part ⟨[], ['}'], by simp⟩
  have restOneLine : '\n' ∉ value :: front := by
    intro among
    exact oneLine (List.mem_append_left ['}'] among)
  have lastSolid : front.getLast? ≠ some '}' := by
    intro doubled
    obtain ⟨start, rfl⟩ := List.getLast?_eq_some_iff.mp doubled
    exact isExpression.2 ⟨value :: start, [], by simp⟩
  have opened := openTemplate_exact (List.cons_ne_nil value front) restOneLine unclosed lastSolid
    ('}' :: templateBody literal rest)
  have template : templateAt ('{' :: '{' :: (value :: (front ++ ['}']) ++
      '}' :: '}' :: templateBody literal rest)) =
      some (value :: front, '}' :: templateBody literal rest) := by
    simpa [templateAt] using opened
  obtain ⟨later, rfl, left⟩ := template_of_templateAt template scans
  exact no_brace_left isLiteral left (Option.some.inj same)

/-- The text between the templates is the literals only where they are separated. -/
theorem separated_of_segmentsOf {first : List Char} {segments : List (List Char × List Char)}
    (literal : IsLiteral first)
    (parts : ∀ segment ∈ segments, IsExpression segment.1 ∧ IsLiteral segment.2)
    {found : List Piece} (scans : Scans (templateBody first segments) found)
    (same : segmentsOf found = (first, segments.map Prod.snd)) : Separated first segments := by
  induction segments generalizing first found with
  | nil => trivial
  | cons segment rest ih =>
      obtain ⟨expression, next⟩ := segment
      obtain ⟨isExpression, nextLiteral⟩ := parts _ List.mem_cons_self
      have apart := literal_apart literal isExpression scans (by rw [same])
      obtain ⟨later, rfl, template⟩ :=
        (scans_silent_iff (silent_of_apart literal.1 (.inl apart))).mp scans
      rw [segmentsOf_front] at same
      obtain ⟨empty, others⟩ := Prod.mk.inj same
      rw [List.append_right_eq_self] at empty
      have oneLine : '\n' ∉ expression := by
        intro lineBreak
        obtain ⟨after, rfl, _⟩ :=
          text_of_templateAt_none (templateAt_break isExpression lineBreak _) template
        cases empty
      have last := expression_apart isExpression oneLine nextLiteral template
        (by rw [others]; rfl)
      obtain ⟨after, rfl, restScans⟩ :=
        template_of_templateAt (templateAt_exact isExpression oneLine last _) template
      obtain ⟨here, there⟩ := List.cons.inj others
      exact ⟨apart, oneLine, last, ih nextLiteral
        (fun segment member => parts segment (.tail _ member)) restScans (Prod.ext here there)⟩

/-!
## Interpolation
-/

section Interpolation

variable (python : Python) (evaluator : Evaluator)

/-- The text of a value; there is none for `None` and for a failed evaluation. -/
def valueText (expression : List Char) : List Char :=
  match evaluator (String.ofList (stripChars expression)) with
  | .ok value => if value = .none then [] else (python.str value).toList
  | .error _ => []

def pieceText : Piece → List Char
  | .text value => [value]
  | .template inner => valueText python evaluator inner

theorem replacePiece_outcome (piece : Piece) :
    (replacePiece python evaluator piece).outcome = .ok (pieceText python evaluator piece) := by
  cases piece with
  | text value => rfl
  | template inner =>
      simp only [replacePiece, safeEval, Logged.bind, Logged.recover, pieceText, valueText]
      cases evaluator (String.ofList (stripChars inner)) <;> rfl

theorem interpolateTemplates_outcome (body : String) :
    (interpolateTemplates python evaluator body).outcome =
      .ok (.str (String.ofList ((pieces body).map (pieceText python evaluator)).flatten)) := by
  have ends := Logged.each_outcome (replacePiece_outcome python evaluator) (pieces body)
  simp only [interpolateTemplates, Logged.bind, ends]
  rfl

/-- The literals with the text of every value in place of its expression. -/
def interpolated (first : List Char) (segments : List (List Char × List Char)) : List Char :=
  first ++ segments.flatMap fun segment => valueText python evaluator segment.1 ++ segment.2

theorem flatten_front (text : List Char) :
    ((text.map Piece.text).map (pieceText python evaluator)).flatten = text := by
  induction text with
  | nil => rfl
  | cons value rest ih => exact congrArg (value :: ·) ih

theorem flatten_expectedPieces (first : List Char) (segments : List (List Char × List Char)) :
    ((expectedPieces first segments).map (pieceText python evaluator)).flatten =
      interpolated python evaluator first segments := by
  unfold expectedPieces interpolated
  rw [List.map_append, List.flatten_append, flatten_front]
  congr 1
  induction segments with
  | nil => rfl
  | cons segment rest ih =>
      rw [List.flatMap_cons, List.map_append, List.flatten_append, ih, List.flatMap_cons,
        List.map_cons, List.flatten_cons, flatten_front]
      rfl

theorem Scans.unmarked {text : List Char} {found : List Piece} (scans : Scans text found)
    (none : found.any Piece.isTemplate = false) : found = text.map .text := by
  induction scans with
  | done => rfl
  | template _ _ _ => cases none
  | text _ _ ih => exact congrArg _ (ih none)

theorem resolve_pieces {text : String} (mode : isExpressionMode text = true)
    (some : stripChars (stripExpressionPrefix text).toList ≠ [])
    (mixed : fullTemplate (stripChars (stripExpressionPrefix text).toList) = none) :
    (resolve python evaluator (.str text)).outcome =
      .ok (.str (String.ofList
        ((pieces (stripExpressionPrefix text)).map (pieceText python evaluator)).flatten)) := by
  simp only [resolve, resolveString, mode, if_true, resolvePrefixedExpression, some, if_false,
    mixed]
  split
  · exact interpolateTemplates_outcome python evaluator _
  · next unmarked =>
      rw [(scans_pieces _).unmarked (Bool.eq_false_of_not_eq_true unmarked), flatten_front,
        String.ofList_toList]
      rfl

end Interpolation

/-!
## Constant values
-/

section Constants

variable (python : Python)

theorem valueText_constantly (text : String) (expression : List Char) :
    valueText python (constantly (.str text)) expression = text.toList := by
  simp [valueText, constantly, python.str_str]

theorem flatten_constantly (mark : Char) (found : List Piece) :
    (found.map (pieceText python (constantly (.str (String.singleton mark))))).flatten =
      [mark].intercalate ((segmentsOf found).1 :: (segmentsOf found).2) := by
  induction found with
  | nil => rfl
  | cons piece rest ih =>
      rw [List.map_cons, List.flatten_cons, ih]
      cases piece with
      | text value =>
          cases others : (segmentsOf rest).2 with
          | nil => simp [segmentsOf, others, pieceText]
          | cons segment more =>
              simp [segmentsOf, others, pieceText, List.intercalate_cons_cons]
      | template inner =>
          simp [segmentsOf, pieceText, valueText_constantly, List.intercalate_cons_cons]

theorem interpolated_constantly (mark : Char) (first : List Char)
    (segments : List (List Char × List Char)) :
    interpolated python (constantly (.str (String.singleton mark))) first segments =
      [mark].intercalate (first :: segments.map Prod.snd) := by
  unfold interpolated
  induction segments generalizing first with
  | nil => simp
  | cons segment rest ih =>
      rw [List.map_cons, List.intercalate_cons_cons, ← ih, List.flatMap_cons,
        valueText_constantly]
      simp

end Constants

/-!
## Texts with templates
-/

structure IsTemplate (first : List Char) (segments : List (List Char × List Char)) : Prop where
  some : segments ≠ []
  first : IsLiteral first
  parts : ∀ segment ∈ segments, IsExpression segment.1 ∧ IsLiteral segment.2

def templateText (first : List Char) (segments : List (List Char × List Char)) : String :=
  String.ofList ('=' :: templateBody first segments)

/-- The expression that stands between two blank literals. -/
def alone (first : List Char) : List (List Char × List Char) → Option (List Char)
  | [(expression, last)] =>
      if first.all isSpace && last.all isSpace then some expression else none
  | _ => none

/-- The text from the first opening to the last closing braces. -/
def inside : List (List Char × List Char) → List Char
  | [] => []
  | [(expression, _)] => expression
  | (expression, literal) :: rest =>
      expression ++ '}' :: '}' :: (literal ++ '{' :: '{' :: inside rest)

def lastLiteral : List (List Char × List Char) → List Char
  | [] => []
  | [(_, literal)] => literal
  | _ :: rest => lastLiteral rest

/-- The templates and what is between them stand on one line, and nothing is around
them but one closing brace at most. -/
def Spanned (first : List Char) (segments : List (List Char × List Char)) : Prop :=
  first.all isSpace ∧ '\n' ∉ inside segments ∧
    ((lastLiteral segments).all isSpace ∨
      ∃ blanks, lastLiteral segments = '}' :: blanks ∧ blanks.all isSpace)

/-- An expression alone has no line break; otherwise the text is no template as a
whole, and its templates are separated. -/
def Apart (first : List Char) (segments : List (List Char × List Char)) : Prop :=
  match alone first segments with
  | some expression => '\n' ∉ expression
  | none => ¬ Spanned first segments ∧ Separated first segments

theorem templateBody_inside (first : List Char) {segments : List (List Char × List Char)}
    (some : segments ≠ []) :
    templateBody first segments =
      first ++ '{' :: '{' :: (inside segments ++ ['}', '}'] ++ lastLiteral segments) := by
  induction segments generalizing first with
  | nil => exact absurd rfl some
  | cons segment rest ih =>
      obtain ⟨expression, literal⟩ := segment
      cases rest with
      | nil => simp [templateBody, inside, lastLiteral]
      | cons next rest =>
          rw [templateBody, ih literal (List.cons_ne_nil _ _)]
          simp [inside, lastLiteral]

theorem lastLiteral_mem {segments : List (List Char × List Char)} (some : segments ≠ []) :
    ∃ segment ∈ segments, segment.2 = lastLiteral segments := by
  induction segments with
  | nil => exact absurd rfl some
  | cons segment rest ih =>
      cases rest with
      | nil => exact ⟨segment, List.mem_cons_self, rfl⟩
      | cons next rest =>
          obtain ⟨found, member, same⟩ := ih (List.cons_ne_nil _ _)
          exact ⟨found, List.mem_cons_of_mem _ member, same⟩

theorem inside_ne_nil {first : List Char} {segments : List (List Char × List Char)}
    (isTemplate : IsTemplate first segments) : inside segments ≠ [] := by
  obtain ⟨some, _, parts⟩ := isTemplate
  cases segments with
  | nil => exact absurd rfl some
  | cons segment rest =>
      have nonempty := (parts _ List.mem_cons_self).1.ne_nil
      cases rest with
      | nil => exact nonempty
      | cons next rest => simp [inside]

theorem fullTemplate_eq_some_iff {stripped inner : List Char} :
    fullTemplate stripped = some inner ↔
      stripped = '{' :: '{' :: (inner ++ ['}', '}']) ∧ inner ≠ [] ∧ '\n' ∉ inner := by
  constructor
  · exact fun full => ⟨fullTemplate_spec full, fullTemplate_inner full⟩
  · rintro ⟨rfl, nonempty, oneLine⟩
    simp [fullTemplate, nonempty, oneLine]

/-- Blank text in front of opening braces is the whole literal there. -/
theorem front_blank {first before rest other : List Char} (isLiteral : IsLiteral first)
    (apart : first.getLast? ≠ some '{') (blank : ∀ value ∈ before, isSpace value = true)
    (same : first ++ '{' :: rest = before ++ '{' :: '{' :: other) : first = before := by
  rcases List.append_eq_append_iff.mp same with ⟨left, rfl, starts⟩ | ⟨left, rfl, starts⟩
  · cases left with
    | nil => rw [List.append_nil]
    | cons value left =>
        have opens : '{' = value := (List.cons.inj starts).1
        have isBlank := blank value (List.mem_append_right _ List.mem_cons_self)
        rw [← opens] at isBlank
        exact absurd isBlank (by decide)
  · cases left with
    | nil => rw [List.append_nil]
    | cons value left =>
        obtain ⟨rfl, more⟩ := List.cons.inj starts
        cases left with
        | nil => exact absurd (by simp) apart
        | cons next left =>
            obtain ⟨rfl, _⟩ := List.cons.inj more
            exact absurd ⟨before, left, by simp⟩ isLiteral.1

/-- Blank text behind closing braces is the whole literal there, up to one brace. -/
theorem back_blank {inner whole after last : List Char} (isLiteral : IsLiteral last)
    (blank : ∀ value ∈ after, isSpace value = true)
    (same : inner ++ ['}', '}'] ++ last = whole ++ ['}', '}'] ++ after) :
    inner <+: whole ∧ (last = after ∨ last = '}' :: after) := by
  rcases List.append_eq_append_iff.mp same with ⟨left, longer, rfl⟩ | ⟨left, longer, rfl⟩
  · rcases List.eq_nil_or_concat left with rfl | ⟨left, value, rfl⟩
    · exact ⟨⟨[], by simpa using longer.symm⟩, .inl rfl⟩
    · obtain ⟨shorter, rfl⟩ : whole ++ ['}'] = inner ++ ['}', '}'] ++ left ∧ '}' = value := by
        have split : (whole ++ ['}']) ++ ['}'] = (inner ++ ['}', '}'] ++ left) ++ [value] := by
          simpa using longer
        exact ⟨(List.append_inj' split rfl).1, List.singleton_inj.mp (List.append_inj' split rfl).2⟩
      rcases List.eq_nil_or_concat left with rfl | ⟨left, value, rfl⟩
      · have split : whole ++ ['}'] = (inner ++ ['}']) ++ ['}'] := by simpa using shorter
        exact ⟨⟨['}'], (List.append_cancel_right split).symm⟩, .inr (by simp)⟩
      · have split : whole ++ ['}'] = (inner ++ ['}', '}'] ++ left) ++ [value] := by
          simpa using shorter
        obtain rfl : '}' = value := List.singleton_inj.mp (List.append_inj' split rfl).2
        exact absurd ⟨left, after, by simp⟩ isLiteral.2
  · rcases List.eq_nil_or_concat left with rfl | ⟨left, value, rfl⟩
    · exact ⟨⟨[], by simpa using longer⟩, .inl rfl⟩
    · have split : (inner ++ ['}']) ++ ['}'] = (whole ++ ['}', '}'] ++ left) ++ [value] := by
        simpa using longer
      obtain rfl : '}' = value := List.singleton_inj.mp (List.append_inj' split rfl).2
      have isBlank := blank '}' (by simp)
      exact absurd isBlank (by decide)

theorem stripChars_around {first inner last : List Char} (front : first.all isSpace = true)
    (back : last.all isSpace = true) :
    stripChars (first ++ '{' :: '{' :: (inner ++ ['}', '}'] ++ last)) =
      '{' :: '{' :: (inner ++ ['}', '}']) := by
  have around : trim isSpace (first ++ '{' :: '{' :: (inner ++ ['}', '}']) ++ last) =
      '{' :: '{' :: (inner ++ ['}', '}']) := by
    refine trim_around (List.all_eq_true.mp front) (List.all_eq_true.mp back) ?_ ?_
    · rintro value ⟨⟩
      decide
    · intro value isLast
      obtain rfl : '}' = value := by simpa [List.getLast?_cons] using isLast
      decide
  simpa [stripChars] using around

/-- The greedy pattern matches exactly the spanned texts. -/
theorem fullTemplate_eq_none_iff {first : List Char} {segments : List (List Char × List Char)}
    (isTemplate : IsTemplate first segments) (apart : first.getLast? ≠ some '{') :
    fullTemplate (stripChars (templateBody first segments)) = none ↔
      ¬ Spanned first segments := by
  obtain ⟨segment, member, same⟩ := lastLiteral_mem isTemplate.some
  have last : IsLiteral (lastLiteral segments) := same ▸ (isTemplate.parts segment member).2
  rw [← not_iff_not, not_not, ← ne_eq, Option.ne_none_iff_exists',
    templateBody_inside first isTemplate.some]
  constructor
  · rintro ⟨found, full⟩
    obtain ⟨stripped, _, oneLine⟩ := fullTemplate_eq_some_iff.mp full
    obtain ⟨before, after, whole, front, back⟩ := trim_split isSpace
      (first ++ '{' :: '{' :: (inside segments ++ ['}', '}'] ++ lastLiteral segments))
    rw [stripChars] at stripped
    rw [stripped] at whole
    obtain rfl := front_blank isTemplate.first apart front (by simpa using whole)
    obtain ⟨part, ends⟩ := back_blank last back (by simpa using whole)
    refine ⟨List.all_eq_true.mpr front, fun among => oneLine (part.subset among), ?_⟩
    rcases ends with rfl | brace
    · exact .inl (List.all_eq_true.mpr back)
    · exact .inr ⟨after, brace, List.all_eq_true.mpr back⟩
  · rintro ⟨front, oneLine, back | ⟨blanks, brace, back⟩⟩
    · refine ⟨inside segments, fullTemplate_eq_some_iff.mpr ⟨?_, inside_ne_nil isTemplate, oneLine⟩⟩
      exact stripChars_around front back
    · refine ⟨inside segments ++ ['}'], fullTemplate_eq_some_iff.mpr ⟨?_, by simp, ?_⟩⟩
      · rw [brace, ← stripChars_around front back]
        simp
      · simp [oneLine]

section Resolving

variable (python : Python)

/-- Whatever the expressions evaluate to, their values take the places of their
templates; an expression alone is its value. -/
def Interpolates (first : List Char) (segments : List (List Char × List Char)) : Prop :=
  ∀ evaluator,
    match alone first segments with
    | some expression => ∀ value, evaluator (String.ofList (stripChars expression)) = .ok value →
        (resolve python evaluator (.str (templateText first segments))).outcome = .ok value
    | none =>
        (resolve python evaluator (.str (templateText first segments))).outcome =
          .ok (.str (String.ofList (interpolated python evaluator first segments)))

theorem isExpressionMode_templateText (first : List Char)
    (segments : List (List Char × List Char)) :
    isExpressionMode (templateText first segments) = true := by
  simp [isExpressionMode, templateText]

theorem toList_stripExpressionPrefix (first : List Char) (segments : List (List Char × List Char)) :
    (stripExpressionPrefix (templateText first segments)).toList = templateBody first segments := by
  unfold stripExpressionPrefix
  rw [if_pos (isExpressionMode_templateText first segments)]
  simp [templateText]

theorem stripChars_templateBody_ne_nil {first : List Char}
    {segments : List (List Char × List Char)} (some : segments ≠ []) :
    stripChars (templateBody first segments) ≠ [] := by
  cases segments with
  | nil => exact absurd rfl some
  | cons segment rest =>
      have solid : ∀ value ∈ ['{'], isSpace value = false := by
        intro value member
        cases List.mem_singleton.mp member
        decide
      have whole : templateBody first (segment :: rest) = first ++ ['{'] ++
          '{' :: (segment.1 ++ '}' :: '}' :: templateBody segment.2 rest) := by
        simp [templateBody]
      have kept : ['{'] <:+: stripChars (templateBody first (segment :: rest)) := by
        rw [whole]
        exact trim_keeps (List.cons_ne_nil _ _) solid
      exact fun empty => by simp [empty] at kept

theorem resolve_templateText {first : List Char} {segments : List (List Char × List Char)}
    (some : segments ≠ [])
    (mixed : fullTemplate (stripChars (templateBody first segments)) = none)
    (evaluator : Evaluator) :
    (resolve python evaluator (.str (templateText first segments))).outcome =
      .ok (.str (String.ofList ((pieces (stripExpressionPrefix
        (templateText first segments))).map (pieceText python evaluator)).flatten)) := by
  refine resolve_pieces python evaluator (isExpressionMode_templateText first segments) ?_ ?_
  · rw [toList_stripExpressionPrefix]
    exact stripChars_templateBody_ne_nil some
  · rw [toList_stripExpressionPrefix]
    exact mixed

theorem scans_templateText (first : List Char) (segments : List (List Char × List Char)) :
    Scans (templateBody first segments)
      (pieces (stripExpressionPrefix (templateText first segments))) := by
  rw [← toList_stripExpressionPrefix]
  exact scans_pieces _

theorem resolve_separated {first : List Char} {segments : List (List Char × List Char)}
    (isTemplate : IsTemplate first segments)
    (mixed : fullTemplate (stripChars (templateBody first segments)) = none)
    (separated : Separated first segments) (evaluator : Evaluator) :
    (resolve python evaluator (.str (templateText first segments))).outcome =
      .ok (.str (String.ofList (interpolated python evaluator first segments))) := by
  have found := (scans_templateText first segments).unique
    (scans_separated isTemplate.first isTemplate.parts separated)
  rw [resolve_templateText python isTemplate.some mixed, found, flatten_expectedPieces]

/-- Two constants tell where the templates of a text are. -/
theorem separated_of_constants {first : List Char} {segments : List (List Char × List Char)}
    (isTemplate : IsTemplate first segments)
    (mixed : fullTemplate (stripChars (templateBody first segments)) = none)
    (interpolates : ∀ evaluator,
      (resolve python evaluator (.str (templateText first segments))).outcome =
        .ok (.str (String.ofList (interpolated python evaluator first segments)))) :
    Separated first segments := by
  have scans := scans_templateText first segments
  generalize found : pieces (stripExpressionPrefix (templateText first segments)) = listed at scans
  have same (mark : Char) : [mark].intercalate ((segmentsOf listed).1 :: (segmentsOf listed).2) =
      [mark].intercalate (first :: segments.map Prod.snd) := by
    have outcome := interpolates (constantly (.str (String.singleton mark)))
    rw [resolve_templateText python isTemplate.some mixed, found, flatten_constantly,
      interpolated_constantly] at outcome
    have texts := Value.str.inj (Except.ok.inj outcome)
    simpa using congrArg String.toList texts
  have between := eq_of_intercalate (show 'a' ≠ 'b' by decide) (List.cons_ne_nil _ _)
    (List.cons_ne_nil _ _) (same 'a') (same 'b')
  obtain ⟨here, there⟩ := List.cons.inj between
  exact separated_of_segmentsOf isTemplate.first isTemplate.parts scans (Prod.ext here there)

theorem resolve_whole {first : List Char} {segments : List (List Char × List Char)}
    {inner : List Char}
    (whole : fullTemplate (stripChars (templateBody first segments)) = some inner)
    (value : Value) :
    (resolve python (constantly value) (.str (templateText first segments))).outcome =
      .ok value := by
  rw [← toList_stripExpressionPrefix] at whole
  exact resolve_full python (isExpressionMode_templateText first segments) whole value

theorem alone_eq_some {first expression : List Char} {segments : List (List Char × List Char)}
    (found : alone first segments = some expression) :
    ∃ last, segments = [(expression, last)] ∧ first.all isSpace = true ∧
      last.all isSpace = true := by
  match segments, found with
  | [(inner, last)], found =>
      rw [alone, Option.ite_none_right_eq_some, Bool.and_eq_true] at found
      obtain ⟨⟨front, back⟩, same⟩ := found
      cases same
      exact ⟨last, rfl, front, back⟩

theorem fullTemplate_alone {first expression last : List Char}
    (isTemplate : IsTemplate first [(expression, last)]) (front : first.all isSpace = true)
    (back : last.all isSpace = true) :
    fullTemplate (stripChars (templateBody first [(expression, last)])) =
      if '\n' ∈ expression then none else some expression := by
  rw [templateBody_inside first isTemplate.some, inside, lastLiteral, stripChars_around front back]
  simp [fullTemplate, (isTemplate.parts _ List.mem_cons_self).1.ne_nil]

/-- The value of an expression alone is returned unless it has a line break. -/
theorem interpolates_alone_iff {first expression last : List Char}
    (isTemplate : IsTemplate first [(expression, last)]) (front : first.all isSpace = true)
    (back : last.all isSpace = true) :
    (∀ evaluator value, evaluator (String.ofList (stripChars expression)) = .ok value →
        (resolve python evaluator (.str (templateText first [(expression, last)]))).outcome =
          .ok value) ↔ '\n' ∉ expression := by
  have full := fullTemplate_alone isTemplate front back
  constructor
  · intro returns lineBreak
    rw [if_pos lineBreak] at full
    have outcome := returns (constantly (.int 7)) (.int 7) rfl
    rw [resolve_templateText python isTemplate.some full] at outcome
    cases outcome
  · intro oneLine evaluator value evaluates
    rw [if_neg oneLine, ← toList_stripExpressionPrefix] at full
    exact resolve_full_ok python (isExpressionMode_templateText _ _) full evaluates

/-- Templates are interpolated exactly where they stand apart. -/
theorem interpolates_iff {first : List Char} {segments : List (List Char × List Char)}
    (isTemplate : IsTemplate first segments) :
    Interpolates python first segments ↔ Apart first segments := by
  unfold Interpolates Apart
  cases found : alone first segments with
  | some expression =>
      obtain ⟨last, rfl, front, back⟩ := alone_eq_some found
      exact interpolates_alone_iff python isTemplate front back
  | none =>
      constructor
      · intro interpolates
        have mixed : fullTemplate (stripChars (templateBody first segments)) = none := by
          cases full : fullTemplate (stripChars (templateBody first segments)) with
          | none => rfl
          | some inner =>
              have outcome := interpolates (constantly (.int 7))
              rw [resolve_whole python full] at outcome
              cases outcome
        have separated := separated_of_constants python isTemplate mixed interpolates
        exact ⟨(fullTemplate_eq_none_iff isTemplate (separated_first isTemplate.some separated)).mp
          mixed, separated⟩
      · rintro ⟨unspanned, separated⟩ evaluator
        have mixed := (fullTemplate_eq_none_iff isTemplate
          (separated_first isTemplate.some separated)).mpr unspanned
        exact resolve_separated python isTemplate mixed separated evaluator

end Resolving

instance (text : List Char) : Decidable (IsLiteral text) :=
  inferInstanceAs (Decidable (¬ _ <:+: _ ∧ ¬ _ <:+: _))

instance (text : List Char) : Decidable (noClosing text) := inferInstanceAs (Decidable (¬ _))

theorem isExpression_iff {text : List Char} :
    text.all isSpace = false ∧ noClosing text ↔ IsExpression text := by
  simp [IsExpression]

instance (text : List Char) : Decidable (IsExpression text) := decidable_of_iff _ isExpression_iff

def greeting : List (List Char × List Char) := [(" name ".toList, "!".toList)]

theorem isTemplate_greeting : IsTemplate "Dear ".toList greeting :=
  ⟨List.cons_ne_nil _ _, by decide, by decide⟩

/-- A name in a sentence stands apart. -/
theorem greeting_interpolated : Interpolates textPython "Dear ".toList greeting := by
  refine (interpolates_iff textPython isTemplate_greeting).mpr
    ⟨?_, by decide, by decide, by decide, trivial⟩
  rintro ⟨blank, _⟩
  exact absurd blank (by decide)

def fullName : List (List Char × List Char) := [("first".toList, " ".toList), ("last".toList, [])]

def nameEvaluator : Evaluator := fun text =>
  if text = "first" then .ok (.str "Ann")
  else if text = "last" then .ok (.str "Lee")
  else .error "SyntaxError"

/-- Two templates with nothing around them are taken as one expression, which fails. -/
theorem fullName_not_interpolated :
    IsTemplate [] fullName ∧
      (resolve textPython nameEvaluator (.str (templateText [] fullName))).outcome =
        .ok (.str "\x7b\x7bfirst\x7d\x7d \x7b\x7blast\x7d\x7d") ∧
      interpolated textPython nameEvaluator [] fullName = "Ann Lee".toList ∧
      ¬ Interpolates textPython [] fullName := by
  have outcome : (resolve textPython nameEvaluator (.str (templateText [] fullName))).outcome =
      .ok (.str "\x7b\x7bfirst\x7d\x7d \x7b\x7blast\x7d\x7d") := by decide +kernel
  have expected : interpolated textPython nameEvaluator [] fullName = "Ann Lee".toList := by
    decide +kernel
  refine ⟨⟨List.cons_ne_nil _ _, by decide, by decide⟩, outcome, expected, ?_⟩
  intro interpolates
  have returned := interpolates nameEvaluator
  rw [outcome] at returned
  have same := Value.str.inj (Except.ok.inj returned)
  rw [expected] at same
  exact absurd same (by decide)

end WorkflowStudio.Expression
