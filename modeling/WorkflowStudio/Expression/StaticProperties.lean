import WorkflowStudio.Expression.RecordOperation
import WorkflowStudio.Expression.TemplateProperties

/-! The texts that the leaves of a domain and single values bring to evaluation
are known before the run, and stand in the configuration. A configuration whose
domain and values are no expressions as a whole brings no others. -/

set_option autoImplicit false

namespace WorkflowStudio.Expression

open Lib

/-!
## The expressions of a configuration
-/

def templateTexts (found : List Piece) : List String :=
  found.flatMap fun
    | .text _ => []
    | .template inner => [String.ofList (stripChars inner)]

theorem templateTexts_eq_nil {text : String} (plain : hasTemplateMarkers text = false) :
    templateTexts (pieces text) = [] := by
  refine List.flatMap_eq_nil_iff.mpr fun piece among => ?_
  cases piece with
  | text value => rfl
  | template inner =>
      have marked := List.any_eq_false.mp plain _ among
      exact absurd rfl marked

/-- The texts that the resolution of a string evaluates. -/
def expressionsOf (text : String) : List String :=
  let body := stripExpressionPrefix text
  let stripped := stripChars body.toList
  if isExpressionMode text = false ∨ stripped = [] then []
  else
    match fullTemplate stripped with
    | some inner => [String.ofList (stripChars inner)]
    | none => templateTexts (pieces body)

theorem body_suffix (text : String) : (stripExpressionPrefix text).toList <:+ text.toList := by
  unfold stripExpressionPrefix
  split
  · rw [String.toList_ofList]
    exact List.tail_suffix _
  · exact List.suffix_rfl

theorem expressionsOf_within {text expression : String}
    (listed : expression ∈ expressionsOf text) : expression.toList <:+: text.toList := by
  have body := (body_suffix text).isInfix
  unfold expressionsOf at listed
  simp only at listed
  split at listed
  · cases listed
  · split at listed
    · next inner full =>
        cases List.mem_singleton.mp listed
        have inside : inner <:+: stripChars (stripExpressionPrefix text).toList := by
          rw [fullTemplate_spec full]
          exact inner_within inner
        rw [String.toList_ofList]
        exact ((trim_within inner).trans inside).trans ((trim_within _).trans body)
    · obtain ⟨piece, among, here⟩ := List.mem_flatMap.mp listed
      cases piece with
      | text value => cases here
      | template inner =>
          cases List.mem_singleton.mp here
          rw [String.toList_ofList]
          exact ((trim_within inner).trans
            ((inner_within inner).trans (template_within among))).trans body

mutual

def valExpressions : Value → List String
  | .dict entries => entryExpressions entries
  | .list items => itemExpressions items
  | .str text => expressionsOf text
  | _ => []

def itemExpressions : List Value → List String
  | [] => []
  | item :: rest => valExpressions item ++ itemExpressions rest

def entryExpressions : List (Value × Value) → List String
  | [] => []
  | (.str key, item) :: rest =>
      expressionsOf key ++ (valExpressions item ++ entryExpressions rest)
  | (_, item) :: rest => valExpressions item ++ entryExpressions rest

end

def leafExpressions : Value → List String
  | .list [_, _, .str text] | .tuple [_, _, .str text] => expressionsOf text
  | _ => []

section Logs

variable (python : Python) (evaluator : Evaluator)

theorem replacePiece_logs (piece : Piece) :
    (replacePiece python evaluator piece).Logs (templateTexts [piece]) := by
  cases piece with
  | text value => exact Logged.logs_done _
  | template inner =>
      have logs := Logged.logs_recover_done
        ((safeEval evaluator (String.ofList (stripChars inner))).bind fun result =>
          .done (if result = .none then [] else (python.str result).toList)) []
      rw [Logged.log_bind_done] at logs
      exact logs

theorem interpolateTemplates_logs (text : String) :
    (interpolateTemplates python evaluator text).Logs (templateTexts (pieces text)) := by
  have each : (Logged.each (replacePiece python evaluator) (pieces text)).Logs
      ((pieces text).flatMap fun piece => templateTexts [piece]) :=
    Logged.logs_each fun piece _ => replacePiece_logs python evaluator piece
  have flat : (pieces text).flatMap (fun piece => templateTexts [piece]) =
      templateTexts (pieces text) := by
    simp [templateTexts]
  rw [flat] at each
  exact each.bind_done _

theorem resolveString_logs (text : String) :
    (resolveString python evaluator text).Logs (expressionsOf text) := by
  unfold resolveString resolvePrefixedExpression expressionsOf
  cases mode : isExpressionMode text with
  | false => exact Logged.logs_done _
  | true =>
      simp only [if_true, Bool.true_eq_false, false_or]
      split
      · exact Logged.logs_done _
      · cases full : fullTemplate (stripChars (stripExpressionPrefix text).toList) with
        | some inner => exact Logged.logs_recover_done _ _
        | none =>
            simp only
            cases markers : hasTemplateMarkers (stripExpressionPrefix text) with
            | true => exact interpolateTemplates_logs python evaluator _
            | false =>
                rw [templateTexts_eq_nil markers]
                exact Logged.logs_done _

theorem resolve_logs (value : Value) :
    (resolve python evaluator value).Logs
      (match value with | .str text => expressionsOf text | _ => []) := by
  cases value with
  | str text => exact resolveString_logs python evaluator text
  | _ => exact Logged.logs_done _

theorem resolveDomainLeaf_logs (item : Value) :
    (resolveDomainLeaf python evaluator item).Logs (leafExpressions item) := by
  unfold resolveDomainLeaf
  split
  · next field operator value =>
      have logs := (resolve_logs python evaluator value).bind_done
        fun resolved => Value.tuple [field, operator, resolved]
      cases value <;> exact logs
  · next field operator value =>
      have logs := (resolve_logs python evaluator value).bind_done
        fun resolved => Value.tuple [field, operator, resolved]
      cases value <;> exact logs
  · next notList notTuple =>
      have nothing : leafExpressions item = [] := by
        unfold leafExpressions
        split
        · exact absurd rfl (notList _ _ _)
        · exact absurd rfl (notTuple _ _ _)
        · rfl
      rw [nothing]
      exact Logged.logs_done _

theorem resolveDomainLeaves_logs (items : List Value) :
    (resolveDomainLeaves python evaluator items).Logs (items.flatMap leafExpressions) :=
  (Logged.logs_each fun item _ => resolveDomainLeaf_logs python evaluator item).bind_done _

theorem resolveValKey_logs (key : Value) :
    (resolveValKey python evaluator key).Logs
      (match key with | .str text => expressionsOf text | _ => []) := by
  cases key with
  | str text => exact (resolveString_logs python evaluator text).bind_done _
  | _ => exact Logged.logs_done _

mutual

theorem resolveValItem_logs : (value : Value) →
    (resolveValItem python evaluator value).Logs (valExpressions value)
  | .dict entries => by
      rw [resolveValItem, valExpressions]
      exact (resolveValEntries_logs entries).bind_done _
  | .list items => by
      rw [resolveValItem, valExpressions]
      exact (resolveValItems_logs items).bind_done _
  | .str text => by
      rw [resolveValItem, valExpressions]
      exact resolveString_logs python evaluator text
  | .none | .bool _ | .int _ | .tuple _ | .object _ _ => by
      simp only [resolveValItem, valExpressions]
      exact Logged.logs_done _

theorem resolveValItems_logs : (items : List Value) →
    (resolveValItems python evaluator items).Logs (itemExpressions items)
  | [] => by
      rw [resolveValItems, itemExpressions]
      exact Logged.logs_done _
  | item :: rest => by
      rw [resolveValItems, itemExpressions]
      exact (resolveValItem_logs item).bind fun _ => (resolveValItems_logs rest).bind_done _

theorem resolveValEntries_logs : (entries : List (Value × Value)) →
    (resolveValEntries python evaluator entries).Logs (entryExpressions entries)
  | [] => by
      rw [resolveValEntries, entryExpressions]
      exact Logged.logs_done _
  | (key, item) :: rest => by
      have logs := (resolveValKey_logs python evaluator key).bind fun resolvedKey =>
        (resolveValItem_logs item).bind fun resolved =>
          (resolveValEntries_logs rest).bind_done fun others => (resolvedKey, resolved) :: others
      rw [resolveValEntries]
      cases key <;> simpa only [entryExpressions, List.nil_append] using logs

end

variable (coercion : Coercion)

theorem evalValsItem_logs (item : Value) :
    (evalValsItem python evaluator coercion item).Logs (valExpressions item) := by
  cases item with
  | dict entries =>
      rw [valExpressions]
      exact (resolveValEntries_logs python evaluator entries).bind_done _
  | _ => exact resolveValItem_logs python evaluator _

theorem itemExpressions_eq_flatMap (items : List Value) :
    itemExpressions items = items.flatMap valExpressions := by
  induction items with
  | nil => simp [itemExpressions]
  | cons item rest ih => simp [itemExpressions, ih]

theorem payload_logs {value : Value} {resolution : Resolution Value}
    (isPayload : payload python evaluator coercion value = some resolution) :
    resolution.Logs (valExpressions value) := by
  cases value with
  | dict entries =>
      cases isPayload
      exact evalValsItem_logs python evaluator coercion (.dict entries)
  | list items =>
      cases isPayload
      rw [valExpressions, itemExpressions_eq_flatMap]
      exact (Logged.logs_each fun item _ =>
        evalValsItem_logs python evaluator coercion item).bind_done _
  | _ => cases isPayload

end Logs

/-!
## Where the expressions come from
-/

mutual

def stringsIn : Value → List String
  | .str text => [text]
  | .list items | .tuple items => itemStrings items
  | .dict entries => entryStrings entries
  | _ => []

def itemStrings : List Value → List String
  | [] => []
  | item :: rest => stringsIn item ++ itemStrings rest

def entryStrings : List (Value × Value) → List String
  | [] => []
  | (key, item) :: rest => stringsIn key ++ (stringsIn item ++ entryStrings rest)

end

def FromText (texts : List String) (expression : String) : Prop :=
  ∃ text ∈ texts, expression.toList <:+: text.toList

theorem FromText.mono {texts others : List String} {expression : String}
    (among : ∀ text ∈ texts, text ∈ others) (fromText : FromText texts expression) :
    FromText others expression := by
  obtain ⟨text, member, part⟩ := fromText
  exact ⟨text, among text member, part⟩

theorem expressionsOf_fromText {text expression : String}
    (listed : expression ∈ expressionsOf text) : FromText [text] expression :=
  ⟨text, List.mem_singleton_self _, expressionsOf_within listed⟩

mutual

theorem valExpressions_fromText {expression : String} : (value : Value) →
    expression ∈ valExpressions value → FromText (stringsIn value) expression
  | .dict entries, listed => by
      rw [valExpressions] at listed
      rw [stringsIn]
      exact entryExpressions_fromText entries listed
  | .list items, listed => by
      rw [valExpressions] at listed
      rw [stringsIn]
      exact itemExpressions_fromText items listed
  | .str text, listed => by
      rw [valExpressions] at listed
      rw [stringsIn]
      exact expressionsOf_fromText listed
  | .none, listed | .bool _, listed | .int _, listed | .tuple _, listed
  | .object _ _, listed => by simp [valExpressions] at listed

theorem itemExpressions_fromText {expression : String} : (items : List Value) →
    expression ∈ itemExpressions items → FromText (itemStrings items) expression
  | [], listed => by simp [itemExpressions] at listed
  | item :: rest, listed => by
      rw [itemExpressions] at listed
      rw [itemStrings]
      rcases List.mem_append.mp listed with here | later
      · exact (valExpressions_fromText item here).mono fun _ => List.mem_append_left _
      · exact (itemExpressions_fromText rest later).mono fun _ => List.mem_append_right _

theorem entryExpressions_fromText {expression : String} : (entries : List (Value × Value)) →
    expression ∈ entryExpressions entries → FromText (entryStrings entries) expression
  | [], listed => by simp [entryExpressions] at listed
  | (key, item) :: rest, listed => by
      have parts : (∃ text, key = .str text ∧ expression ∈ expressionsOf text) ∨
          expression ∈ valExpressions item ∨ expression ∈ entryExpressions rest := by
        cases key <;> simpa [entryExpressions] using listed
      rw [entryStrings]
      rcases parts with ⟨text, rfl, inKey⟩ | inItem | later
      · refine (expressionsOf_fromText inKey).mono fun _ among => List.mem_append_left _ ?_
        rwa [stringsIn]
      · exact (valExpressions_fromText item inItem).mono fun _ among =>
          List.mem_append_right _ (List.mem_append_left _ among)
      · exact (entryExpressions_fromText rest later).mono fun _ among =>
          List.mem_append_right _ (List.mem_append_right _ among)

end

theorem leafExpressions_fromText {expression : String} {item : Value}
    (listed : expression ∈ leafExpressions item) : FromText (stringsIn item) expression := by
  unfold leafExpressions at listed
  split at listed
  · refine (expressionsOf_fromText listed).mono fun text among => ?_
    cases List.mem_singleton.mp among
    simp [stringsIn, itemStrings]
  · refine (expressionsOf_fromText listed).mono fun text among => ?_
    cases List.mem_singleton.mp among
    simp [stringsIn, itemStrings]
  · cases listed

theorem itemStrings_eq_flatMap (items : List Value) :
    itemStrings items = items.flatMap stringsIn := by
  induction items with
  | nil => simp [itemStrings]
  | cons item rest ih => simp [itemStrings, ih]

/-!
## Configurations that data cannot reach
-/

section Configuration

variable (python : Python)

/-- The texts of a field: its strings, and those of the literal or the document
that its text is. -/
def textsOf (decode : String → Option Value) : Value → List String
  | .str text => text :: ((decode (strip text)).map stringsIn).getD []
  | value => stringsIn value

def configTexts (config : NodeConfig) : List String :=
  textsOf python.literalEval (config.domainExpr.orElse (.str "[]")) ++
    textsOf python.jsonLoads (config.valsExpr.orElse (.str "\x7b\x7d"))

/-- The domain is no expression as a whole. -/
def DomainStatic : Value → Prop
  | .str text => isLiteralPrefixedString (.str text) = true ∨
      (isExpressionMode text = false ∧
        (strip text = "" ∨ strip text = "[]" ∨ (python.literalEval (strip text)).isSome))
  | _ => True

def isPayload : Value → Bool
  | .dict _ | .list _ => true
  | _ => false

/-- The values are no expression as a whole. -/
def ValsStatic : Value → Prop
  | .str text => isLiteralPrefixedString (.str text) = true ∨
      (isExpressionMode text = false ∧
        (strip text = "" ∨ strip text = "\x7b\x7d" ∨ strip text = "[]" ∨
          (python.jsonLoads (strip text)).any isPayload = true))
  | _ => True

def Static (config : NodeConfig) : Prop :=
  DomainStatic python (config.domainExpr.orElse (.str "[]")) ∧
    ValsStatic python (config.valsExpr.orElse (.str "\x7b\x7d"))

def itemsOf : Value → List Value
  | .list items => items
  | _ => []

def domainExpressions : Value → List String
  | .str text =>
      if isExpressionMode text = true ∨ strip text = "" ∨ strip text = "[]" then []
      else ((python.literalEval (strip text)).map fun parsed =>
        (itemsOf parsed).flatMap leafExpressions).getD []
  | value => (itemsOf value).flatMap leafExpressions

def valsExpressions : Value → List String
  | .str text =>
      if isExpressionMode text = true ∨ strip text = "" ∨ strip text = "\x7b\x7d" ∨
          strip text = "[]" then []
      else ((python.jsonLoads (strip text)).map valExpressions).getD []
  | value => valExpressions value

theorem domainOf_log (evaluator : Evaluator) (resolved value : Value) :
    (domainOf python evaluator resolved value).log = (itemsOf value).flatMap leafExpressions := by
  cases value with
  | list items => exact (resolveDomainLeaves_logs python evaluator items).1
  | _ => rfl

theorem resolve_plain {text : String} (plain : isExpressionMode text = false)
    (evaluator : Evaluator) :
    resolve python evaluator (.str text) = .done (.str text) := by
  simp [resolve, resolveString, plain]

theorem not_literalPrefixed {text : String} (plain : isExpressionMode text = false) :
    isLiteralPrefixedString (.str text) = false := by
  simp [isLiteralPrefixedString, plain]

theorem resolveDomain_static {raw : Value} (static : DomainStatic python raw)
    (evaluator : Evaluator) :
    (resolveDomain python evaluator raw).log = domainExpressions python raw := by
  cases raw with
  | str text =>
      simp only [resolveDomain, domainExpressions]
      rcases static with literal | ⟨plain, known⟩
      · have mode : isExpressionMode text = true := (Bool.and_eq_true_iff.mp literal).1
        rw [if_neg (by simp), if_pos literal, if_pos (Or.inl mode)]
        rfl
      · rw [if_neg (by simp), not_literalPrefixed plain, if_neg (by simp),
          resolve_plain python plain, Logged.log_bind_ok rfl]
        simp only [resolvedDomain, plain, Bool.false_eq_true, false_or]
        split
        · rfl
        · next unknown =>
            obtain ⟨parsed, decoded⟩ := Option.isSome_iff_exists.mp
              ((known.resolve_left fun blank => unknown (.inl blank)).resolve_left
                fun empty => unknown (.inr empty))
            rw [decoded]
            exact domainOf_log python evaluator _ parsed
  | none => rfl
  | _ => exact domainOf_log python evaluator _ _

/-- No text in expression mode is deferred: it starts with no bracket. -/
theorem not_deferred {text : String} (mode : isExpressionMode text = true) :
    shouldDeferValsStringResolution (.str text) = false := by
  obtain ⟨rest, split⟩ : ∃ rest, text.toList = '=' :: rest := by
    cases chars : text.toList with
    | nil => simp [isExpressionMode, chars] at mode
    | cons first rest =>
        simp only [isExpressionMode, chars, List.head?_cons, beq_iff_eq, Option.some.injEq] at mode
        exact ⟨rest, by rw [mode]⟩
  have start : stripChars text.toList <+: '=' :: rest := by
    have front : stripChars text.toList <+: text.toList.dropWhile isSpace :=
      trim_front text.toList
    rw [split, List.dropWhile_cons_of_neg (by decide)] at front
    rwa [split]
  simp only [shouldDeferValsStringResolution]
  cases stripped : stripChars text.toList with
  | nil => rfl
  | cons first others =>
      rw [stripped] at start
      obtain ⟨rfl, -⟩ := List.cons_prefix_cons.mp start
      simp [isFullTemplateString, List.isPrefixOf]

/-- What is deferred would be kept as it is. -/
theorem defer_eq_resolve (evaluator : Evaluator) (raw : Value) :
    (if shouldDeferValsStringResolution raw then Logged.done raw
      else resolve python evaluator raw) = resolve python evaluator raw := by
  cases raw with
  | str text =>
      cases mode : isExpressionMode text with
      | true => rw [not_deferred mode, if_neg (by simp)]
      | false => rw [resolve_plain python mode, ite_self]
  | _ => rfl

theorem resolve_literalPrefixed {text : String}
    (literal : isLiteralPrefixedString (.str text) = true) (evaluator : Evaluator) :
    ∃ body, resolve python evaluator (.str text) = .done (.str body) := by
  obtain ⟨mode, unmarked⟩ := Bool.and_eq_true_iff.mp literal
  rw [Bool.not_eq_true'] at unmarked
  simp only [resolve, resolveString, resolvePrefixedExpression, mode, if_true,
    fullTemplate_eq_none unmarked, unmarked, Bool.false_eq_true, if_false]
  split
  · exact ⟨"", rfl⟩
  · exact ⟨_, rfl⟩

theorem payloadOf_log (evaluator : Evaluator) (coercion : Coercion) {value : Value}
    (known : ∀ text, value ≠ .str text) :
    (payloadOf python evaluator coercion value).log = valExpressions value := by
  unfold payloadOf
  cases found : payload python evaluator coercion value with
  | some resolution => exact (payload_logs python evaluator coercion found).1
  | none =>
      cases value with
      | str text => exact absurd rfl (known text)
      | dict entries => cases found
      | list items => cases found
      | _ => simp [valExpressions, Logged.fail]

theorem resolveVals_eq (evaluator : Evaluator) (coercion : Coercion) (config : NodeConfig) :
    resolveVals python evaluator coercion config =
      (resolve python evaluator (config.valsExpr.orElse (.str "\x7b\x7d"))).bind
        (resolvedVals python evaluator coercion (config.valsExpr.orElse (.str "\x7b\x7d"))) := by
  unfold resolveVals
  simp only [defer_eq_resolve]

theorem resolveVals_static (coercion : Coercion) {config : NodeConfig}
    (static : ValsStatic python (config.valsExpr.orElse (.str "\x7b\x7d")))
    (evaluator : Evaluator) :
    (resolveVals python evaluator coercion config).log =
      valsExpressions python (config.valsExpr.orElse (.str "\x7b\x7d")) := by
  rw [resolveVals_eq]
  cases raw : config.valsExpr.orElse (.str "\x7b\x7d") with
  | str text =>
      rw [raw] at static
      simp only [valsExpressions]
      rcases static with literal | ⟨plain, known⟩
      · have mode : isExpressionMode text = true := (Bool.and_eq_true_iff.mp literal).1
        obtain ⟨body, resolved⟩ := resolve_literalPrefixed python literal evaluator
        rw [resolved, Logged.log_bind_ok rfl, if_pos (Or.inl mode)]
        simp only [resolvedVals, resolveValsText, literal, if_true]
        split <;> rfl
      · rw [resolve_plain python plain, Logged.log_bind_ok rfl]
        simp only [resolvedVals, resolveValsText, plain, Bool.false_eq_true, false_or,
          not_literalPrefixed plain, if_false]
        split
        · rfl
        · next unknown =>
            simp only [not_or] at unknown
            obtain ⟨value, decoded, given⟩ := (Option.any_eq_true _ _).mp
              (((known.resolve_left unknown.1).resolve_left unknown.2.1).resolve_left unknown.2.2)
            obtain ⟨resolution, found⟩ : ∃ resolution,
                payload python evaluator coercion value = some resolution := by
              cases value with
              | dict entries => exact ⟨_, rfl⟩
              | list items => exact ⟨_, rfl⟩
              | _ => cases given
            simp only [decoded, Option.bind_some, found]
            exact (payload_logs python evaluator coercion found).1
  | none =>
      simp only [valsExpressions, valExpressions]
      rfl
  | _ => exact payloadOf_log python evaluator coercion (by simp)

end Configuration

end WorkflowStudio.Expression
