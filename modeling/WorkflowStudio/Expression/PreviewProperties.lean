import WorkflowStudio.Expression.Preview

/-! The text of a preview: the templates are replaced one by one in the text that is already filled
in part, and each gets its own value unless an earlier value brings its text along or has a
replacement pattern in it. -/

set_option autoImplicit false

namespace WorkflowStudio.Expression

open Editor Lib Lib.Scanning Lib.Replacing

/-!
## Templates in their places
-/

theorem beforeClosing_eq_some {text inner : List Char} (closed : beforeClosing text = some inner) :
    (∀ letter ∈ inner, isLineEnd letter = false) ∧ inner ++ closingBraces <+: text := by
  induction text generalizing inner with
  | nil => cases closed
  | cons letter rest ih =>
      rw [beforeClosing] at closed
      split at closed
      next here =>
        cases closed
        exact ⟨List.forall_mem_nil _, List.isPrefixOf_iff_prefix.mp here⟩
      next =>
        split at closed
        next => cases closed
        next goesOn =>
          obtain ⟨later, closedLater, rfl⟩ := Option.map_eq_some_iff.mp closed
          obtain ⟨line, starts⟩ := ih closedLater
          refine ⟨List.forall_mem_cons.mpr ⟨Bool.eq_false_iff.mpr goesOn, line⟩, ?_⟩
          exact (List.prefix_cons_inj letter).mpr starts

theorem matchTemplate_eq_some {text inner : List Char} {length : Nat}
    (here : matchTemplate text = some (inner, length)) :
    fullText inner ≠ [] ∧ length = (fullText inner).length ∧ fullText inner <+: text := by
  unfold matchTemplate at here
  split at here
  next first rest =>
    split at here
    next => cases here
    next =>
      obtain ⟨later, closed, same⟩ := Option.map_eq_some_iff.mp here
      cases same
      refine ⟨List.cons_ne_nil _ _, ?_, ?_⟩
      · rw [fullText, List.length_cons, List.length_cons, List.length_append, List.length_cons]
        rfl
      · refine (List.prefix_cons_inj '{').mpr ((List.prefix_cons_inj '{').mpr ?_)
        exact (List.prefix_cons_inj first).mpr (beforeClosing_eq_some closed).2
  next => cases here

/-- The text with its templates in their places is the text itself. -/
theorem render_templates (source : List Char) :
    render fullText (scan matchTemplate source) = source :=
  render_scan_self (fun _ _ _ here => matchTemplate_eq_some here) source

/-- What a template can have between its braces. -/
def TemplateInner (inner : List Char) : Prop :=
  inner ≠ [] ∧ ∀ letter ∈ inner, isLineEnd letter = false

theorem templateInner_of_match {text inner : List Char} {length : Nat}
    (here : matchTemplate text = some (inner, length)) : TemplateInner inner := by
  unfold matchTemplate at here
  split at here
  next first rest =>
    split at here
    next => cases here
    next goesOn =>
      obtain ⟨later, closed, same⟩ := Option.map_eq_some_iff.mp here
      cases same
      exact ⟨List.cons_ne_nil _ _, List.forall_mem_cons.mpr
        ⟨Bool.eq_false_iff.mpr goesOn, (beforeClosing_eq_some closed).1⟩⟩
  next => cases here

theorem templateInner_of_mem (source : List Char) {inner : List Char}
    (member : .inr inner ∈ scan matchTemplate source) : TemplateInner inner := by
  obtain ⟨_, _, _, _, here⟩ := exists_of_mem_scanFrom member
  exact templateInner_of_match here

/-!
## No template between the templates
-/

theorem beforeClosing_isSome {run : List Char} (line : ∀ letter ∈ run, isLineEnd letter = false)
    (after : List Char) : (beforeClosing (run ++ (closingBraces ++ after))).isSome = true := by
  induction run with
  | nil => rfl
  | cons letter run ih =>
      obtain ⟨goesOn, later⟩ := List.forall_mem_cons.mp line
      rw [List.cons_append, beforeClosing, goesOn]
      split
      · rfl
      · rw [if_neg Bool.false_ne_true, Option.isSome_map]
        exact ih later

theorem fullText_append (inner after : List Char) :
    fullText inner ++ after = '{' :: '{' :: (inner ++ (closingBraces ++ after)) := by
  rw [fullText, List.cons_append, List.cons_append, List.append_assoc]

/-- There is a template wherever braces open and close on one line. -/
theorem matchTemplate_ne_none (run after : List Char) (inner : TemplateInner run) :
    matchTemplate ('{' :: '{' :: (run ++ (closingBraces ++ after))) ≠ none := by
  obtain ⟨nonempty, line⟩ := inner
  cases run with
  | nil => exact absurd rfl nonempty
  | cons first run =>
      obtain ⟨goesOn, later⟩ := List.forall_mem_cons.mp line
      rw [List.cons_append, matchTemplate, goesOn, if_neg Bool.false_ne_true,
        ← Option.isSome_iff_ne_none, Option.isSome_map]
      exact beforeClosing_isSome later after

theorem render_letters (value : List Char → List Char) (letters : List Char) :
    render value (letters.map .inl) = letters := by
  induction letters with
  | nil => rfl
  | cons letter letters ih => exact congrArg (letter :: ·) ih

/-- The letters up to the next template. -/
theorem exists_letters (pieces : List (Char ⊕ List Char)) (inner : List Char)
    (back : List (Char ⊕ List Char)) :
    ∃ letters next more, pieces ++ .inr inner :: back = letters.map .inl ++ .inr next :: more ∧
      ∀ value, letters <+: render value pieces := by
  induction pieces with
  | nil => exact ⟨[], inner, back, rfl, fun _ => List.nil_prefix⟩
  | cons piece pieces ih =>
      cases piece with
      | inr next => exact ⟨[], next, _, rfl, fun _ => List.nil_prefix⟩
      | inl letter =>
          obtain ⟨letters, next, more, same, starts⟩ := ih
          refine ⟨letter :: letters, next, more, ?_, fun value => ?_⟩
          · rw [List.cons_append, same]
            rfl
          · exact (List.prefix_cons_inj letter).mpr (starts value)

/-- The text of a template does not start at a letter between the templates. -/
theorem not_starts_at_letter {source inner : List Char} {value : List Char → List Char}
    {letter : Char} {front between back : List (Char ⊕ List Char)}
    (scanned : scan matchTemplate source =
      front ++ .inl letter :: (between ++ .inr inner :: back)) :
    ¬ fullText inner <+: letter :: (render value between ++ fullText inner) := by
  intro starts
  obtain ⟨letters, next, more, same, leading⟩ := exists_letters between inner back
  have isInner : TemplateInner inner := by
    refine templateInner_of_mem source ?_
    rw [scanned]
    simp
  have isNext : TemplateInner next := by
    refine templateInner_of_mem source ?_
    rw [scanned, same]
    simp
  have absent := unmatched (fun _ _ _ here => matchTemplate_eq_some here) scanned
  rw [same, render_append, render_letters, render_match, fullText_append] at absent
  obtain ⟨rfl, behind⟩ := List.cons_prefix_cons.mp starts
  have leads : letters <+: render value between ++ fullText inner :=
    (leading value).trans (List.prefix_append _ _)
  cases letters with
  | nil =>
      -- One more brace in front of a template belongs to it.
      refine matchTemplate_ne_none ('{' :: next) (render fullText more)
        ⟨List.cons_ne_nil _ _, List.forall_mem_cons.mpr ⟨rfl, isNext.2⟩⟩ ?_
      exact absent
  | cons second letters =>
      rcases List.prefix_or_prefix_of_prefix behind leads with within | before
      · obtain ⟨rfl, rest, rfl⟩ := List.cons_prefix_cons.mp within
        exact matchTemplate_ne_none inner _ isInner (by simpa using absent)
      · -- The braces are closed by the next template at the latest.
        obtain ⟨rfl, inFront⟩ := List.cons_prefix_cons.mp before
        have line : ∀ letter ∈ letters, isLineEnd letter = false := by
          intro letter member
          rcases List.mem_append.mp (inFront.subset member) with inside | closing
          · exact isInner.2 letter inside
          · obtain rfl : letter = '}' := by simpa [closingBraces] using closing
            rfl
        refine matchTemplate_ne_none (letters ++ '{' :: '{' :: next) (render fullText more)
          ⟨by simp, fun letter member => ?_⟩ (by simpa using absent)
        simp only [List.mem_append, List.mem_cons] at member
        rcases member with member | rfl | rfl | member
        · exact line letter member
        · rfl
        · rfl
        · exact isNext.2 letter member

/-- With values in which no brace opens each template stays the first of its text. -/
theorem inPlace_of_values {source : List Char} {value : List Char → List Char}
    (closed : ∀ inner ∈ extractExpressions source, '{' ∉ value inner) :
    InPlace fullText value (scan matchTemplate source) := by
  intro front inner back scanned start rest same
  by_contra more
  have lengths := congrArg List.length same
  simp only [List.length_append] at lengths
  have inside : start.length < (render value front).length := by
    have := List.length_pos_iff.mpr more
    omega
  obtain ⟨before, piece, between, rfl, least, most⟩ := render_at inside
  rw [List.append_assoc, List.cons_append] at scanned
  rw [render_append, List.append_assoc, List.append_assoc] at same
  rw [render_append, List.length_append] at most
  obtain ⟨tail, rfl⟩ : render value before <+: start :=
    List.prefix_of_prefix_length_le ⟨_, same⟩ (List.prefix_append _ _) least
  rw [List.append_assoc, List.append_cancel_left_eq] at same
  rw [List.length_append] at most
  cases piece with
  | inl letter =>
      have none : tail = [] := List.eq_nil_of_length_eq_zero (by simpa [render] using most)
      subst none
      exact not_starts_at_letter scanned ⟨rest, same.symm⟩
  | inr found =>
      have member : found ∈ extractExpressions source := by
        rw [extractExpressions, matchesOf, scanned]
        simp [asMatch]
      rw [render_match, List.append_assoc] at same
      have short : tail.length < (value found).length := by simpa [render] using most
      have opens : tail ++ ['{'] <+: value found := by
        refine @List.prefix_of_prefix_length_le _ _ _ (value found ++ _) ?_
          (List.prefix_append _ (render value between ++ fullText inner)) ?_
        · rw [same]
          exact (List.prefix_append_right_inj tail).mpr (List.prefix_append ['{'] _)
        · rw [List.length_append]
          exact short
      exact closed found member (opens.subset (List.mem_append_right tail List.mem_cons_self))

/-!
## Replacement patterns
-/

def isPatternLetter (letter : Char) : Bool :=
  letter == '$' || letter == '&' || letter.toNat == 0x60 || letter == '\''

/-- No dollar sign has a letter behind it with which it is a pattern. -/
def WithoutPatterns (text : List Char) : Prop :=
  ∀ letter, isPatternLetter letter = true → ¬ ['$', letter] <:+: text

theorem WithoutPatterns.tail {letter : Char} {text : List Char}
    (plain : WithoutPatterns (letter :: text)) : WithoutPatterns text :=
  fun special isPattern within =>
    plain special isPattern (within.trans (List.suffix_cons letter text).isInfix)

theorem withoutPatterns_of_not_mem {text : List Char} (absent : '$' ∉ text) :
    WithoutPatterns text :=
  fun _ _ within => absent (within.subset List.mem_cons_self)

theorem patternText_eq_none {matched before after : List Char} {letter : Char}
    (plain : ¬ isPatternLetter letter = true) : patternText matched before after letter = none := by
  simp only [isPatternLetter, Bool.or_eq_true, beq_iff_eq, not_or] at plain
  obtain ⟨⟨⟨notDollar, notAnd⟩, notBack⟩, notQuote⟩ := plain
  rw [patternText, if_neg notDollar, if_neg notAnd, if_neg notBack, if_neg notQuote]

theorem getSubstitution_plain (matched before after : List Char) {text : List Char}
    (plain : WithoutPatterns text) : getSubstitution matched before after text = text := by
  induction text with
  | nil => rfl
  | cons letter rest ih =>
      cases rest with
      | nil => rfl
      | cons special rest =>
          have later := ih plain.tail
          rw [getSubstitution]
          split
          next isDollar =>
            subst isDollar
            have notPattern : ¬ isPatternLetter special = true := fun isPattern =>
              plain special isPattern (List.prefix_append ['$', special] rest).isInfix
            rw [patternText_eq_none notPattern]
            exact congrArg _ later
          next => exact congrArg _ later

/-!
## Filling in
-/

section Evaluate

variable {script : Script} {context : SelectorContext} {value : List Char → List Char}

/-- If each template has a text, the loop goes through all of them. -/
theorem fillTemplates_eq {templates : List (List Char)} {result : List Char}
    (own : ∀ inner ∈ templates, previewText script context inner = .ok (value inner)) :
    fillTemplates script context templates result =
      .ok (replaceEach fullText
        (fun inner before after => getSubstitution (fullText inner) before after (value inner))
        templates result) := by
  induction templates generalizing result with
  | nil => rfl
  | cons inner rest ih =>
      obtain ⟨here, later⟩ := List.forall_mem_cons.mp own
      rw [fillTemplates, here]
      exact ih later

theorem mem_extractExpressions {source inner : List Char}
    (member : .inr inner ∈ scan matchTemplate source) : inner ∈ extractExpressions source :=
  List.mem_filterMap.mpr ⟨_, member, rfl⟩

/-- All templates of a text at once, each with its own text. -/
def filledAtOnce (value : List Char → List Char) (source : List Char) : List Char :=
  render value (scan matchTemplate source)

theorem fillTemplates_eq_filledAtOnce {source : List Char}
    (own : ∀ inner ∈ extractExpressions source,
      previewText script context inner = .ok (value inner))
    (plain : ∀ inner ∈ extractExpressions source, WithoutPatterns (value inner))
    (placed : InPlace fullText value (scan matchTemplate source)) :
    fillTemplates script context (extractExpressions source) source =
      .ok (filledAtOnce value source) := by
  have replaced := replaceEach_eq_render placed fun inner member before after =>
    getSubstitution_plain (fullText inner) before after
      (plain inner (mem_extractExpressions member))
  rw [render_templates] at replaced
  rw [fillTemplates_eq own]
  exact congrArg _ replaced

theorem evaluateExpression_prefixed (source : String) :
    evaluateExpression script context (.str ("=" ++ source)) =
      caught (evaluateSource script context source.toList) := by
  have letters : ("=" ++ source).toList = '=' :: source.toList := String.toList_append
  have mode : isExpressionMode ("=" ++ source) = true := by
    rw [isExpressionMode, letters]
    rfl
  have stripped : (stripExpressionPrefix ("=" ++ source)).toList = source.toList := by
    rw [stripExpressionPrefix, if_pos mode, letters, String.toList_ofList, List.tail_cons]
  rw [evaluateExpression, if_pos mode, stripped]

/-- Several templates, or one with other text around it. -/
def MixedTemplates (source : List Char) : Prop :=
  extractExpressions source ≠ [] ∧
    ∀ inner, extractExpressions source = [inner] → fullText inner ≠ source

theorem evaluateSource_mixed {source : List Char} (mixed : MixedTemplates source) :
    evaluateSource script context source =
      evaluateMixed script context (extractExpressions source) source := by
  obtain ⟨nonempty, notSingle⟩ := mixed
  unfold evaluateSource
  split
  next none => exact absurd none nonempty
  next inner single => rw [if_neg (notSingle inner single), single]
  next => rfl

/-- A preview has the value of each template in its place if no value has a replacement pattern
in it and no template occurs before its own place among the values and the text in front. -/
theorem preview_simultaneous (source : String) (mixed : MixedTemplates source.toList)
    (own : ∀ inner ∈ extractExpressions source.toList,
      previewText script context inner = .ok (value inner))
    (plain : ∀ inner ∈ extractExpressions source.toList, WithoutPatterns (value inner))
    (placed : InPlace fullText value (scan matchTemplate source.toList)) :
    evaluateExpression script context (.str ("=" ++ source)) =
      ⟨some (.str (String.ofList (filledAtOnce value source.toList))), none, some "str"⟩ := by
  rw [evaluateExpression_prefixed, evaluateSource_mixed mixed, evaluateMixed,
    fillTemplates_eq_filledAtOnce own plain placed]
  rfl

end Evaluate

/-- A browser that shows texts only. -/
def textScript : Script where
  inherited := fun _ _ => none
  newFunction := fun _ _ => .error "SyntaxError"
  string := fun value => match value with
    | .str text => .ok text
    | _ => .ok ""
  objectLabel := fun _ _ => none

def twoTemplates : String := "{{ _json.a }} {{ _json.b }}"

def twoTexts (first second : String) : SelectorContext :=
  { json := .dict [(.str "a", .str first), (.str "b", .str second)] }

def ownText (first second : String) (inner : List Char) : List Char :=
  if inner = " _json.a ".toList then first.toList else second.toList

theorem extract_twoTemplates : extractExpressions twoTemplates.toList =
    [" _json.a ".toList, " _json.b ".toList] := by decide +kernel

theorem mixed_twoTemplates : MixedTemplates twoTemplates.toList := by
  rw [MixedTemplates, extract_twoTemplates]
  refine ⟨List.cons_ne_nil _ _, ?_⟩
  rintro inner ⟨⟩

/-- The second value is put into the first one. -/
theorem preview_changes_first_value :
    MixedTemplates twoTemplates.toList ∧
      (∀ inner ∈ extractExpressions twoTemplates.toList,
        previewText textScript (twoTexts "{{ _json.b }}" "x") inner =
          .ok (ownText "{{ _json.b }}" "x" inner)) ∧
      evaluateExpression textScript (twoTexts "{{ _json.b }}" "x") (.str ("=" ++ twoTemplates)) =
        ⟨some (.str "x {{ _json.b }}"), none, some "str"⟩ ∧
      filledAtOnce (ownText "{{ _json.b }}" "x") twoTemplates.toList = "{{ _json.b }} x".toList := by
  refine ⟨mixed_twoTemplates, ?_, by decide +kernel, by decide +kernel⟩
  rw [extract_twoTemplates]
  intro inner member
  rcases List.mem_pair.mp member with rfl | rfl
  · decide +kernel
  · decide +kernel

theorem preview_simultaneous_names :
    evaluateExpression textScript (twoTexts "Ada" "Bob") (.str ("=" ++ twoTemplates)) =
      ⟨some (.str (String.ofList (filledAtOnce (ownText "Ada" "Bob") twoTemplates.toList))), none,
        some "str"⟩ := by
  refine preview_simultaneous _ mixed_twoTemplates ?_
    (fun inner member => withoutPatterns_of_not_mem ?_) (inPlace_of_values fun inner member => ?_)
  · rw [extract_twoTemplates]
    intro inner member
    rcases List.mem_pair.mp member with rfl | rfl
    · decide +kernel
    · decide +kernel
  all_goals
    rw [extract_twoTemplates] at member
    rcases List.mem_pair.mp member with rfl | rfl
    · decide +kernel
    · decide +kernel

end WorkflowStudio.Expression
