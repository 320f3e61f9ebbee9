import WorkflowStudio.Data.Value
import WorkflowStudio.Lib.Logged
import WorkflowStudio.Lib.Trim

/-! The expression resolver of the node runners. Every text that is handed to
`safe_eval` is logged; the run-time data is known only through the values that
`safe_eval` gives to the texts. -/

set_option autoImplicit false

namespace WorkflowStudio.Expression

open Lib

/-- The Python functions that read and print values. No literal and no JSON
document has a null character. -/
structure Python where
  str : Value → String
  literalEval : String → Option Value
  jsonLoads : String → Option Value
  str_str : ∀ text, str (.str text) = text
  literalEval_null : ∀ text : String, '\x00' ∈ text.toList → literalEval text = none
  jsonLoads_null : ∀ text : String, '\x00' ∈ text.toList → jsonLoads text = none

/-- A reader and printer that knows texts only. -/
def textPython : Python where
  str
    | .str text => text
    | _ => ""
  literalEval _ := none
  jsonLoads _ := none
  str_str _ := rfl
  literalEval_null _ _ := rfl
  jsonLoads_null _ _ := rfl

/-- `safe_eval` in the context of the node: a value, or the error it raises. The
read-only mappings of the context are no `dict`, so they are objects here. -/
abbrev Evaluator := String → Except String Value

abbrev Resolution := Logged String String

def safeEval (evaluator : Evaluator) (text : String) : Resolution Value :=
  ⟨[text], evaluator text⟩

/-!
## Text
-/

def isSpace (value : Char) : Bool :=
  (0x09 ≤ value.toNat && value.toNat ≤ 0x0d) || (0x1c ≤ value.toNat && value.toNat ≤ 0x20) ||
    [0x85, 0xa0, 0x1680, 0x2028, 0x2029, 0x202f, 0x205f, 0x3000].contains value.toNat ||
    (0x2000 ≤ value.toNat && value.toNat ≤ 0x200a)

def stripChars (text : List Char) : List Char := trim isSpace text

def strip (text : String) : String := String.ofList (stripChars text.toList)

/-!
## Templates
-/

/-- The rest of a template up to its closing braces; a dot of the pattern is no
line break. -/
def closeTemplate : List Char → Option (List Char × List Char)
  | '}' :: '}' :: rest => some ([], rest)
  | '\n' :: _ => none
  | value :: rest => (closeTemplate rest).map fun found => (value :: found.1, found.2)
  | [] => none

/-- The inside of a template after its opening braces, one character at least,
and the text after it. -/
def openTemplate : List Char → Option (List Char × List Char)
  | '\n' :: _ => none
  | value :: rest => (closeTemplate rest).map fun found => (value :: found.1, found.2)
  | [] => none

inductive Piece where
  | text (value : Char)
  | template (inner : List Char)

/-- The matches of `_TEMPLATE_RE` and the text between them. -/
def piecesFrom : Nat → List Char → List Piece
  | 0, _ => []
  | _, [] => []
  | fuel + 1, '{' :: '{' :: rest =>
      match openTemplate rest with
      | some (inner, after) => .template inner :: piecesFrom fuel after
      | none => .text '{' :: piecesFrom fuel ('{' :: rest)
  | fuel + 1, value :: rest => .text value :: piecesFrom fuel rest

def pieces (text : String) : List Piece := piecesFrom text.toList.length text.toList

def Piece.isTemplate : Piece → Bool
  | .template _ => true
  | .text _ => false

def hasTemplateMarkers (text : String) : Bool := (pieces text).any Piece.isTemplate

/-- `_FULL_TEMPLATE_RE` on a stripped text: what stands between the braces. -/
def fullTemplate (stripped : List Char) : Option (List Char) :=
  match stripped with
  | '{' :: '{' :: rest =>
      match rest.reverse with
      | '}' :: '}' :: inner =>
          if inner = [] ∨ '\n' ∈ inner then none else some inner.reverse
      | _ => none
  | _ => none

/-!
## Resolution
-/

def isExpressionMode (text : String) : Bool := text.toList.head? == some '='

def stripExpressionPrefix (text : String) : String :=
  if isExpressionMode text then String.ofList text.toList.tail else text

def isLiteralPrefixedString : Value → Bool
  | .str text => isExpressionMode text && !hasTemplateMarkers (stripExpressionPrefix text)
  | _ => false

section Resolver

variable (python : Python) (evaluator : Evaluator)

/-- The replacement of a match; an expression that raises leaves nothing. -/
def replacePiece : Piece → Resolution (List Char)
  | .text value => .done [value]
  | .template inner =>
      ((safeEval evaluator (String.ofList (stripChars inner))).bind fun result =>
        .done (if result = .none then [] else (python.str result).toList)).recover
          fun _ => .done []

def interpolateTemplates (text : String) : Resolution Value :=
  (Logged.each (replacePiece python evaluator) (pieces text)).bind fun replaced =>
    .done (.str (String.ofList replaced.flatten))

def resolvePrefixedExpression (text : String) : Resolution Value :=
  let body := stripExpressionPrefix text
  let stripped := stripChars body.toList
  if stripped = [] then .done (.str "")
  else
    match fullTemplate stripped with
    | some inner =>
        (safeEval evaluator (String.ofList (stripChars inner))).recover fun _ => .done (.str body)
    | none =>
        if hasTemplateMarkers body then interpolateTemplates python evaluator body
        else .done (.str body)

def resolveString (text : String) : Resolution Value :=
  if isExpressionMode text then resolvePrefixedExpression python evaluator text
  else .done (.str text)

def resolve : Value → Resolution Value
  | .str text => resolveString python evaluator text
  | value => .done value

def resolveLeafValue (value : Value) : Resolution Value := resolve python evaluator value

def resolveDomainLeaf : Value → Resolution Value
  | .list [field, operator, value] | .tuple [field, operator, value] =>
      (resolveLeafValue python evaluator value).bind fun resolved =>
        .done (.tuple [field, operator, resolved])
  | item => .done item

def resolveDomainLeaves (items : List Value) : Resolution Value :=
  (Logged.each (resolveDomainLeaf python evaluator) items).bind fun leaves => .done (.list leaves)

def typeName : Value → String
  | .none => "NoneType"
  | .bool _ => "bool"
  | .int _ => "int"
  | .str _ => "str"
  | .list _ => "list"
  | .tuple _ => "tuple"
  | .dict _ => "dict"
  | .object _ _ => "object"

/-- The domain of a parsed or evaluated value, or the error for the value that
the expression resolved to. -/
def domainOf (resolved : Value) : Value → Resolution Value
  | .list items => resolveDomainLeaves python evaluator items
  | _ => .fail s!"Domain must evaluate to a list, got: '{typeName resolved}'"

/-- The domain that a resolved value stands for. -/
def resolvedDomain : Value → Resolution Value
  | .none => .done (.list [])
  | .str text =>
      let stripped := strip text
      if stripped = "" ∨ stripped = "[]" then .done (.list [])
      else
        match python.literalEval stripped with
        | some parsed => domainOf python evaluator (.str text) parsed
        | none => (safeEval evaluator stripped).bind (domainOf python evaluator (.str text))
  | resolved => domainOf python evaluator resolved resolved

def resolveDomain (raw : Value) : Resolution Value :=
  if raw = .none then .done (.list [])
  else if isLiteralPrefixedString raw then
    .fail "Domain expressions must wrap dynamic content in \x7b\x7b ... \x7d\x7d when using '=' prefix"
  else (resolve python evaluator raw).bind (resolvedDomain python evaluator)

end Resolver

end WorkflowStudio.Expression
