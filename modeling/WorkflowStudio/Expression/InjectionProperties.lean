import Mathlib.Algebra.Order.BigOperators.Group.List
import Mathlib.Algebra.Order.Group.Nat
import WorkflowStudio.Expression.StaticProperties

/-! Which texts are evaluated for a record operation. What a whole expression
returns is searched for expressions again, so that data can bring its own. -/

set_option autoImplicit false

namespace WorkflowStudio.Expression

open Lib

/-!
## Data that brings its own expression
-/

/-- A string in expression mode whose template is longer than the bound. -/
def injected (bound : Nat) : String :=
  String.ofList ('=' :: '{' :: '{' :: (List.replicate (bound + 1) 'x' ++ ['}', '}']))

def injectedExpression (bound : Nat) : String := String.ofList (List.replicate (bound + 1) 'x')

theorem expressionsOf_injected (bound : Nat) :
    expressionsOf (injected bound) = [injectedExpression bound] := by
  have mode : isExpressionMode (injected bound) = true := by
    simp [isExpressionMode, injected]
  have body : (stripExpressionPrefix (injected bound)).toList =
      '{' :: '{' :: (List.replicate (bound + 1) 'x' ++ ['}', '}']) := by
    unfold stripExpressionPrefix
    rw [if_pos mode]
    simp [injected]
  have stripped : stripChars (stripExpressionPrefix (injected bound)).toList =
      '{' :: '{' :: (List.replicate (bound + 1) 'x' ++ ['}', '}']) := by
    rw [body]
    refine trim_eq_self ?_ ?_
    · rintro value ⟨⟩
      decide
    · intro value last
      have : value = '}' := by simpa [List.getLast?_cons] using last.symm
      subst this
      decide
  have full : fullTemplate ('{' :: '{' :: (List.replicate (bound + 1) 'x' ++ ['}', '}'])) =
      some (List.replicate (bound + 1) 'x') := by
    simp [fullTemplate, List.mem_replicate]
  have inside : stripChars (List.replicate (bound + 1) 'x') = List.replicate (bound + 1) 'x' := by
    refine trim_eq_self ?_ ?_
    · intro value first
      have : value = 'x' := List.eq_of_mem_replicate (List.mem_of_mem_head? first)
      subst this
      decide
    · intro value last
      have : value = 'x' := List.eq_of_mem_replicate (List.mem_of_mem_getLast? last)
      subst this
      decide
  simp [expressionsOf, mode, stripped, full, inside, injectedExpression]

theorem bound_lt_injectedExpression (bound : Nat) :
    bound < (injectedExpression bound).length := by
  simp [injectedExpression]

section Injection

variable (python : Python)

def constantly (value : Value) : Evaluator := fun _ => .ok value

def replacement (text : String) : Piece → List Char
  | .text value => [value]
  | .template _ => text.toList

theorem replacePiece_constantly (text : String) (piece : Piece) :
    (replacePiece python (constantly (.str text)) piece).outcome =
      .ok (replacement text piece) := by
  cases piece with
  | text value => rfl
  | template inner =>
      simp [replacePiece, safeEval, constantly, Logged.bind, Logged.recover, Logged.done,
        python.str_str, replacement]

theorem each_constantly (text : String) (found : List Piece) :
    (Logged.each (replacePiece python (constantly (.str text))) found).outcome =
      .ok (found.map (replacement text)) :=
  Logged.each_outcome (replacePiece_constantly python text) found

theorem interpolateTemplates_constantly {body : String} (text : String)
    (marked : hasTemplateMarkers body = true) :
    ∃ mixed, (interpolateTemplates python (constantly (.str text)) body).outcome =
        .ok (.str mixed) ∧ text.toList <:+: mixed.toList := by
  obtain ⟨piece, among, isTemplate⟩ := List.any_eq_true.mp marked
  cases piece with
  | text value => cases isTemplate
  | template inner =>
      refine ⟨String.ofList ((pieces body).map (replacement text)).flatten, ?_, ?_⟩
      · simp [interpolateTemplates, Logged.bind, each_constantly, Logged.done]
      · rw [String.toList_ofList]
        obtain ⟨before, after, whole⟩ := List.append_of_mem among
        rw [whole]
        exact ⟨(before.map (replacement text)).flatten, (after.map (replacement text)).flatten,
          by simp [replacement]⟩

theorem resolve_full_ok {text : String} {inner : List Char} (mode : isExpressionMode text = true)
    (full : fullTemplate (stripChars (stripExpressionPrefix text).toList) = some inner)
    {evaluator : Evaluator} {value : Value}
    (evaluates : evaluator (String.ofList (stripChars inner)) = .ok value) :
    (resolve python evaluator (.str text)).outcome = .ok value := by
  have nonempty := stripped_ne_nil (hasTemplateMarkers_of_fullTemplate full)
  simp only [resolve, resolveString, mode, if_true, resolvePrefixedExpression, nonempty, if_false,
    full, safeEval, Logged.recover, evaluates]

theorem resolve_full {text : String} {inner : List Char} (mode : isExpressionMode text = true)
    (full : fullTemplate (stripChars (stripExpressionPrefix text).toList) = some inner)
    (value : Value) :
    (resolve python (constantly value) (.str text)).outcome = .ok value :=
  resolve_full_ok python mode full rfl

theorem resolve_mixed {text : String} (mode : isExpressionMode text = true)
    (marked : hasTemplateMarkers (stripExpressionPrefix text) = true)
    (mixed : fullTemplate (stripChars (stripExpressionPrefix text).toList) = none)
    (returned : String) :
    ∃ final, (resolve python (constantly (.str returned)) (.str text)).outcome =
        .ok (.str final) ∧ returned.toList <:+: final.toList := by
  have nonempty := stripped_ne_nil marked
  simp only [resolve, resolveString, mode, if_true, resolvePrefixedExpression, nonempty, if_false,
    mixed, marked]
  exact interpolateTemplates_constantly python returned marked

/-- A text that is no literal and no document, longer than the bound. -/
def unreadable (bound : Nat) : String := String.ofList ('\x00' :: List.replicate bound 'x')

theorem unreadable_solid (bound : Nat) :
    ∀ value ∈ (unreadable bound).toList, isSpace value = false := by
  intro value member
  rw [unreadable, String.toList_ofList] at member
  rcases List.mem_cons.mp member with rfl | among
  · decide
  · cases List.eq_of_mem_replicate among
    decide

theorem unreadable_strip {bound : Nat} {final : String}
    (part : (unreadable bound).toList <:+: final.toList) :
    '\x00' ∈ (strip final).toList ∧ bound < (strip final).length := by
  obtain ⟨before, after, whole⟩ := part
  have kept : (unreadable bound).toList <:+: (strip final).toList := by
    rw [strip, String.toList_ofList, ← whole]
    exact trim_keeps (by simp [unreadable]) (unreadable_solid bound)
  refine ⟨kept.subset (by simp [unreadable]), ?_⟩
  have long := kept.length_le
  simp only [unreadable, String.toList_ofList, List.length_cons, List.length_replicate,
    String.length_toList] at long
  exact long

theorem ne_of_null {text : String} (null : '\x00' ∈ text.toList) (other : String)
    (without : '\x00' ∉ other.toList) : text ≠ other := by
  rintro rfl
  exact without null

def injectedDomain (bound : Nat) : Value :=
  .list [.tuple [.str "name", .str "=", .str (injected bound)]]

def injectedVals (bound : Nat) : Value := .dict [(.str "name", .str (injected bound))]

theorem domainOf_injected (evaluator : Evaluator) (resolved : Value) (bound : Nat) :
    injectedExpression bound ∈
      (domainOf python evaluator resolved (injectedDomain bound)).log := by
  rw [domainOf_log]
  simp [injectedDomain, itemsOf, leafExpressions, expressionsOf_injected]

theorem payloadOf_injected (evaluator : Evaluator) (coercion : Coercion) (bound : Nat) :
    injectedExpression bound ∈
      (payloadOf python evaluator coercion (injectedVals bound)).log := by
  rw [payloadOf_log python evaluator coercion (by simp [injectedVals])]
  simp [injectedVals, valExpressions, entryExpressions, expressionsOf_injected]

/-- What is left when a text is not static: a template of the whole text, text
around templates, or a text that is evaluated because it cannot be read. -/
theorem not_literalPrefixed_cases {text : String}
    (notLiteral : ¬ isLiteralPrefixedString (.str text) = true) :
    (isExpressionMode text = true ∧
        ∃ inner, fullTemplate (stripChars (stripExpressionPrefix text).toList) = some inner) ∨
      (isExpressionMode text = true ∧
        hasTemplateMarkers (stripExpressionPrefix text) = true ∧
        fullTemplate (stripChars (stripExpressionPrefix text).toList) = none) ∨
      isExpressionMode text = false := by
  cases mode : isExpressionMode text with
  | false => exact .inr (.inr rfl)
  | true =>
      have marked : hasTemplateMarkers (stripExpressionPrefix text) = true := by
        simpa [isLiteralPrefixedString, mode] using notLiteral
      cases full : fullTemplate (stripChars (stripExpressionPrefix text).toList) with
      | some inner => exact .inl ⟨rfl, inner, rfl⟩
      | none => exact .inr (.inl ⟨rfl, marked, rfl⟩)

theorem resolveDomain_injected {raw : Value} (reachable : ¬ DomainStatic python raw)
    (bound : Nat) :
    ∃ evaluator, ∃ text ∈ (resolveDomain python evaluator raw).log, bound < text.length := by
  cases raw with
  | str text =>
      obtain ⟨notLiteral, unknown⟩ := not_or.mp reachable
      have resolves (evaluator : Evaluator) : resolveDomain python evaluator (.str text) =
          (resolve python evaluator (.str text)).bind (resolvedDomain python evaluator) := by
        rw [resolveDomain, if_neg (by simp), if_neg notLiteral]
      rcases not_literalPrefixed_cases notLiteral with
        ⟨mode, inner, full⟩ | ⟨mode, marked, mixed⟩ | plain
      · refine ⟨constantly (injectedDomain bound), _, ?_, bound_lt_injectedExpression bound⟩
        rw [resolves]
        exact Logged.mem_log_bind_ok (resolve_full python mode full _)
          (domainOf_injected python _ (injectedDomain bound) bound)
      · obtain ⟨final, outcome, part⟩ := resolve_mixed python mode marked mixed (unreadable bound)
        obtain ⟨null, long⟩ := unreadable_strip part
        refine ⟨constantly (.str (unreadable bound)), strip final, ?_, long⟩
        rw [resolves]
        refine Logged.mem_log_bind_ok outcome ?_
        simp only [resolvedDomain, ne_of_null null "" (by decide),
          ne_of_null null "[]" (by decide), or_self, if_false, python.literalEval_null _ null]
        exact Logged.mem_log_bind (List.mem_singleton_self _)
      · refine ⟨constantly (injectedDomain bound), _, ?_, bound_lt_injectedExpression bound⟩
        simp only [plain, true_and, not_or] at unknown
        have unread : python.literalEval (strip text) = none :=
          Option.not_isSome_iff_eq_none.mp unknown.2.2
        rw [resolves, resolve_plain python plain]
        refine Logged.mem_log_bind_ok rfl ?_
        simp only [resolvedDomain, unknown.1, unknown.2.1, or_self, if_false, unread]
        exact Logged.mem_log_bind_ok rfl (domainOf_injected python _ _ bound)
  | _ => exact absurd trivial reachable

theorem resolveVals_injected (coercion : Coercion) {config : NodeConfig}
    (reachable : ¬ ValsStatic python (config.valsExpr.orElse (.str "\x7b\x7d"))) (bound : Nat) :
    ∃ evaluator, ∃ text ∈ (resolveVals python evaluator coercion config).log,
      bound < text.length := by
  cases raw : config.valsExpr.orElse (.str "\x7b\x7d") with
  | str text =>
      rw [raw] at reachable
      obtain ⟨notLiteral, unknown⟩ := not_or.mp reachable
      rcases not_literalPrefixed_cases notLiteral with
        ⟨mode, inner, full⟩ | ⟨mode, marked, mixed⟩ | plain
      · refine ⟨constantly (injectedVals bound), _, ?_, bound_lt_injectedExpression bound⟩
        rw [resolveVals_eq, raw]
        exact Logged.mem_log_bind_ok (resolve_full python mode full _)
          (payloadOf_injected python _ coercion bound)
      · obtain ⟨final, outcome, part⟩ := resolve_mixed python mode marked mixed (unreadable bound)
        obtain ⟨null, long⟩ := unreadable_strip part
        refine ⟨constantly (.str (unreadable bound)), strip final, ?_, long⟩
        rw [resolveVals_eq, raw]
        refine Logged.mem_log_bind_ok outcome ?_
        simp only [resolvedVals, resolveValsText, ne_of_null null "" (by decide),
          ne_of_null null "\x7b\x7d" (by decide), ne_of_null null "[]" (by decide), or_self,
          if_false, notLiteral, Bool.false_eq_true, python.jsonLoads_null _ null, Option.bind_none]
        exact Logged.mem_log_bind (List.mem_singleton_self _)
      · refine ⟨constantly (injectedVals bound), _, ?_, bound_lt_injectedExpression bound⟩
        simp only [plain, true_and, not_or] at unknown
        obtain ⟨notBlank, notObject, notList, unread⟩ := unknown
        rw [resolveVals_eq, raw, resolve_plain python plain]
        refine Logged.mem_log_bind_ok rfl ?_
        have nothing : (python.jsonLoads (strip text)).bind
            (payload python (constantly (injectedVals bound)) coercion) = none := by
          cases decoded : python.jsonLoads (strip text) with
          | none => rfl
          | some value =>
              rw [decoded, Option.any_some] at unread
              cases value with
              | dict entries => exact absurd rfl unread
              | list items => exact absurd rfl unread
              | _ => rfl
        simp only [resolvedVals, resolveValsText, notBlank, notObject, notList, or_self, if_false,
          notLiteral, Bool.false_eq_true, nothing]
        exact Logged.mem_log_bind_ok rfl (payloadOf_injected python _ coercion bound)
  | _ =>
      rw [raw] at reachable
      exact absurd trivial reachable

/-- Data can bring texts of any length to evaluation. -/
theorem evaluated_injected (coercion : Coercion) {config : NodeConfig}
    (reachable : ¬ Static python config) (bound : Nat) :
    ∃ evaluator, ∃ text ∈ evaluated python evaluator coercion config, bound < text.length := by
  rcases not_and_or.mp reachable with inDomain | inVals
  · obtain ⟨evaluator, text, logged, long⟩ := resolveDomain_injected python inDomain bound
    exact ⟨evaluator, text, List.mem_append_left _ logged, long⟩
  · obtain ⟨evaluator, text, logged, long⟩ := resolveVals_injected python coercion inVals bound
    exact ⟨evaluator, text, List.mem_append_right _ logged, long⟩

theorem exists_longest (texts : List String) : ∃ bound, ∀ text ∈ texts, text.length ≤ bound :=
  ⟨(texts.map String.length).sum, fun _ member =>
    List.le_sum_of_mem (List.mem_map_of_mem member)⟩

end Injection

/-!
## The evaluated texts
-/

section Evaluated

variable (python : Python) (coercion : Coercion)

/-- In a static configuration the expressions are known before the run. -/
theorem evaluated_static {config : NodeConfig} (static : Static python config)
    (evaluator : Evaluator) :
    evaluated python evaluator coercion config =
      domainExpressions python (config.domainExpr.orElse (.str "[]")) ++
        valsExpressions python (config.valsExpr.orElse (.str "\x7b\x7d")) := by
  unfold evaluated resolveNodeDomain
  rw [resolveDomain_static python static.1, resolveVals_static python coercion static.2]

theorem leaves_fromText {value : Value} {expression : String}
    (listed : expression ∈ (itemsOf value).flatMap leafExpressions) :
    FromText (stringsIn value) expression := by
  cases value with
  | list items =>
      obtain ⟨item, member, here⟩ := List.mem_flatMap.mp listed
      rw [stringsIn, itemStrings_eq_flatMap]
      exact (leafExpressions_fromText here).mono fun _ among =>
        List.mem_flatMap.mpr ⟨item, member, among⟩
  | _ => cases listed

theorem domainExpressions_fromText {raw : Value} {expression : String}
    (listed : expression ∈ domainExpressions python raw) :
    FromText (textsOf python.literalEval raw) expression := by
  cases raw with
  | str text =>
      simp only [domainExpressions] at listed
      split at listed
      · cases listed
      · cases decoded : python.literalEval (strip text) with
        | none =>
            rw [decoded] at listed
            cases listed
        | some parsed =>
            rw [decoded] at listed
            simp only [textsOf, decoded]
            exact (leaves_fromText listed).mono fun _ => List.mem_cons_of_mem _
  | _ => exact leaves_fromText listed

theorem valsExpressions_fromText {raw : Value} {expression : String}
    (listed : expression ∈ valsExpressions python raw) :
    FromText (textsOf python.jsonLoads raw) expression := by
  cases raw with
  | str text =>
      simp only [valsExpressions] at listed
      split at listed
      · cases listed
      · cases decoded : python.jsonLoads (strip text) with
        | none =>
            rw [decoded] at listed
            cases listed
        | some value =>
            rw [decoded] at listed
            simp only [textsOf, decoded]
            exact (valExpressions_fromText value listed).mono fun _ => List.mem_cons_of_mem _
  | _ => exact valExpressions_fromText _ listed

/-- Whatever the data, only parts of the configuration are evaluated. -/
def OnlyOwnText (config : NodeConfig) : Prop :=
  ∀ evaluator, ∀ text ∈ evaluated python evaluator coercion config,
    FromText (configTexts python config) text

/-- The data has no influence on what is evaluated. -/
def DataIndependent (config : NodeConfig) : Prop :=
  ∀ first second, evaluated python first coercion config =
    evaluated python second coercion config

theorem onlyOwnText_of_static {config : NodeConfig} (static : Static python config) :
    OnlyOwnText python coercion config := by
  intro evaluator text listed
  rw [evaluated_static python coercion static] at listed
  rcases List.mem_append.mp listed with inDomain | inVals
  · exact (domainExpressions_fromText python inDomain).mono fun _ => List.mem_append_left _
  · exact (valsExpressions_fromText python inVals).mono fun _ => List.mem_append_right _

theorem static_of_onlyOwnText {config : NodeConfig} (only : OnlyOwnText python coercion config) :
    Static python config := by
  by_contra reachable
  obtain ⟨bound, longest⟩ := exists_longest (configTexts python config)
  obtain ⟨evaluator, text, listed, long⟩ := evaluated_injected python coercion reachable bound
  obtain ⟨own, among, part⟩ := only evaluator text listed
  have short := part.length_le
  rw [String.length_toList, String.length_toList] at short
  exact absurd (short.trans (longest own among)) (Nat.not_le.mpr long)

theorem static_of_dataIndependent {config : NodeConfig}
    (independent : DataIndependent python coercion config) : Static python config := by
  by_contra reachable
  -- One run bounds the texts of every other.
  obtain ⟨bound, longest⟩ := exists_longest
    (evaluated python (constantly .none) coercion config)
  obtain ⟨evaluator, text, listed, long⟩ := evaluated_injected python coercion reachable bound
  rw [independent evaluator (constantly .none)] at listed
  exact absurd (longest text listed) (Nat.not_le.mpr long)

def payloadConfig : NodeConfig where
  domainExpr := .none
  valsExpr := .str "=\x7b\x7b dict(name=_json.name) \x7d\x7d"

/-- `_json` of a dictionary: a read-only mapping, which is no `dict`. -/
def readonlyPayload : Value := .object true 1

/-- The input payload is a dictionary with one field, `name`. -/
def payloadEvaluator (name : String) : Evaluator := fun text =>
  if text = "_json" then .ok readonlyPayload
  else if text = "dict(name=_json.name)" then .ok (.dict [(.str "name", .str name)])
  else if text = "env" then .ok (.object true 0)
  else .error "NameError"

end Evaluated

end WorkflowStudio.Expression
