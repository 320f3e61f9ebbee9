import WorkflowStudio.Expression.Resolver
import WorkflowStudio.Lib.OrderedMap

/-! The domain and the values of a record operation node, with the passes that
look for expressions in what an expression returned. -/

set_option autoImplicit false

namespace WorkflowStudio.Expression

open Lib

/-- The fields of a node configuration that a record operation resolves; a field
that is missing is `None`. -/
structure NodeConfig where
  domainExpr : Value
  valsExpr : Value

abbrev Coercion := Option (String → Value → Value)

def isFullTemplateString (stripped : List Char) : Bool :=
  ['{', '{'].isPrefixOf stripped && ['}', '}'].isSuffixOf stripped

/-- JSON texts are parsed before their templates are resolved. -/
def shouldDeferValsStringResolution : Value → Bool
  | .str text =>
      let stripped := stripChars text.toList
      if stripped = [] ∨ isFullTemplateString stripped then false
      else
        (['{'].isPrefixOf stripped && ['}'].isSuffixOf stripped) ||
          (['['].isPrefixOf stripped && [']'].isSuffixOf stripped && stripped.contains '{')
  | _ => false

section Values

variable (python : Python) (evaluator : Evaluator)

def keyText (value : Value) : Value :=
  .str (if value = .none then "" else python.str value)

def resolveValKey : Value → Resolution Value
  | .str text => (resolveString python evaluator text).bind fun resolved =>
      .done (keyText python resolved)
  | key => .done (keyText python key)

/-- A dict from its entries; a later entry replaces an earlier one. -/
def assemble (entries : List (Value × Value)) : List (Value × Value) :=
  entries.foldl (fun built entry => OrderedMap.setEntries entry.1 entry.2 built) []

mutual

def resolveValItem : Value → Resolution Value
  | .dict entries => (resolveValEntries entries).bind fun resolved =>
      .done (.dict (assemble resolved))
  | .list items => (resolveValItems items).bind fun resolved => .done (.list resolved)
  | .str text => resolveString python evaluator text
  | value => .done value

def resolveValItems : List Value → Resolution (List Value)
  | [] => .done []
  | item :: rest => (resolveValItem item).bind fun resolved =>
      (resolveValItems rest).bind fun others => .done (resolved :: others)

def resolveValEntries : List (Value × Value) → Resolution (List (Value × Value))
  | [] => .done []
  | (key, item) :: rest => (resolveValKey python evaluator key).bind fun resolvedKey =>
      (resolveValItem item).bind fun resolved =>
        (resolveValEntries rest).bind fun others => .done ((resolvedKey, resolved) :: others)

end

def coerceFieldValue (coercion : Coercion) (key value : Value) : Value :=
  match coercion, key with
  | some coerce, .str fieldName => coerce fieldName value
  | _, _ => value

variable (coercion : Coercion)

def evalValExpressions (entries : List (Value × Value)) : Resolution Value :=
  (resolveValEntries python evaluator entries).bind fun resolved =>
    .done (.dict (assemble (resolved.map fun entry =>
      (entry.1, coerceFieldValue coercion entry.1 entry.2))))

def evalValsItem : Value → Resolution Value
  | .dict entries => evalValExpressions python evaluator coercion entries
  | item => resolveValItem python evaluator item

def payload : Value → Option (Resolution Value)
  | .dict entries => some (evalValExpressions python evaluator coercion entries)
  | .list items => some ((Logged.each (evalValsItem python evaluator coercion) items).bind
      fun values => .done (.list values))
  | _ => none

def payloadOf (value : Value) : Resolution Value :=
  (payload python evaluator coercion value).getD
    (.fail "vals_expr must evaluate to an object or list of objects")

def resolveValsText (raw : Value) (text : String) : Resolution Value :=
  let stripped := strip text
  if stripped = "" ∨ stripped = "\x7b\x7d" ∨ stripped = "[]" then .done (.dict [])
  else if isLiteralPrefixedString raw then
    .fail "Values expressions must wrap dynamic content in \x7b\x7b ... \x7d\x7d when using '=' prefix"
  else
    match (python.jsonLoads stripped).bind (payload python evaluator coercion) with
    | some resolution => resolution
    | none => (safeEval evaluator stripped).bind (payloadOf python evaluator coercion)

def resolvedVals (raw : Value) : Value → Resolution Value
  | .none => .done (.dict [])
  | .str text => resolveValsText python evaluator coercion raw text
  | value => payloadOf python evaluator coercion value

def resolveVals (config : NodeConfig) : Resolution Value :=
  let raw := config.valsExpr.orElse (.str "\x7b\x7d")
  (if shouldDeferValsStringResolution raw then Logged.done raw
    else resolve python evaluator raw).bind (resolvedVals python evaluator coercion raw)

def resolveNodeDomain (config : NodeConfig) : Resolution Value :=
  resolveDomain python evaluator (config.domainExpr.orElse (.str "[]"))

/-- The texts that are evaluated for the domain and for the values of a node. -/
def evaluated (config : NodeConfig) : List String :=
  (resolveNodeDomain python evaluator config).log ++
    (resolveVals python evaluator coercion config).log

end Values

end WorkflowStudio.Expression
