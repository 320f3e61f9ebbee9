import WorkflowStudio.Editor.LiteralSeed
import WorkflowStudio.Expression.Selector
import WorkflowStudio.Lib.FirstOccurrence

/-! The preview of an expression in the editor: its templates are evaluated in the browser, and
their texts are put into the text around them. -/

set_option autoImplicit false

namespace WorkflowStudio.Expression

open Editor Lib Lib.Scanning Lib.Replacing

/-!
## Templates
-/

/-- A letter for which the dot of a pattern does not stand. -/
def isLineEnd (letter : Char) : Bool :=
  [0x0A, 0x0D, 0x2028, 0x2029].contains letter.toNat

def closingBraces : List Char := ['}', '}']

/-- The letters before the next closing braces, on the same line. -/
def beforeClosing : List Char → Option (List Char)
  | [] => none
  | letter :: rest =>
      if closingBraces.isPrefixOf (letter :: rest) then some []
      else if isLineEnd letter then none
      else (beforeClosing rest).map (letter :: ·)

/-- `/\{\{(.+?)\}\}/`: what stands between the braces, one letter at least. -/
def matchTemplate : Matcher Char (List Char)
  | '{' :: '{' :: first :: rest =>
      if isLineEnd first then none
      else (beforeClosing rest).map fun inner => (first :: inner, inner.length + 5)
  | _ => none

/-- The whole match. -/
def fullText (inner : List Char) : List Char := '{' :: '{' :: (inner ++ closingBraces)

def extractExpressions (source : List Char) : List (List Char) := matchesOf matchTemplate source

/-- The first group without the spaces around it. -/
def templateExpression (inner : List Char) : List Char := trim isScriptSpace inner

/-!
## Evaluating a template
-/

/-- What the browser brings along. -/
structure Script where
  /-- The properties of values besides their own. -/
  inherited : Value → String → Option Value
  /-- A function with these arguments and this body is built and called; `none` is `undefined`. -/
  newFunction : List (String × Option Value) → String → Except String (Option Value)
  /-- `String(value)`. -/
  string : Value → Except String String
  /-- The label of a value without a plain form. -/
  objectLabel : Bool → Nat → Option String

def matchDotted : Matcher Char (List Char)
  | '.' :: rest => (matchName rest).map fun found => (found.1, found.2 + 1)
  | _ => none

def matchAccess : Matcher Char (List Char) := fun text =>
  ((matchDotted text).or (matchIndex text)).or
    ((matchQuoted '\'' text).or (matchQuoted '"' text))

/-- `SIMPLE_SELECTOR_PATTERN`: a namespace, and nothing but accesses behind it. -/
def isSimpleSelectorExpression (expression : List Char) : Bool :=
  let selector := trim isScriptSpace expression
  namespaces.any fun nameSpace => nameSpace.toList.isPrefixOf selector &&
    (scan matchAccess (selector.drop nameSpace.toList.length)).all Sum.isRight

/-- `/\s+word\s+/`. -/
def matchSpaced (word : List Char) : Matcher Char Unit := fun text =>
  let spaces := text.takeWhile isScriptSpace
  let after := text.dropWhile isScriptSpace
  let spacesAfter := (after.drop word.length).takeWhile isScriptSpace
  if spaces ≠ [] ∧ word.isPrefixOf after ∧ spacesAfter ≠ [] then
    some ((), spaces.length + word.length + spacesAfter.length)
  else none

/-- `/not\s+/`, and its length. -/
def matchNot (text : List Char) : Option Nat :=
  let spaces := (text.drop 3).takeWhile isScriptSpace
  if ['n', 'o', 't'].isPrefixOf text ∧ spaces ≠ [] then some (3 + spaces.length) else none

/-- `/([\s(])not\s+/`. -/
def matchInnerNot : Matcher Char Char
  | [] => none
  | letter :: rest =>
      if isScriptSpace letter ∨ letter = '(' then
        (matchNot rest).map fun length => (letter, length + 1)
      else none

/-- `.replace(/(^|[\s(])not\s+/g, '$1!')`. -/
def replaceNot (text : List Char) : List Char :=
  let replaceInner := fun part => render (fun letter => [letter, '!']) (scan matchInnerNot part)
  match matchNot text with
  | some length => '!' :: replaceInner (text.drop length)
  | none => replaceInner text

def normalizePreviewExpression (expression : List Char) : List Char :=
  let trimmed := trim isScriptSpace expression
  let conjunctions := render (fun _ => [' ', '&', '&', ' '])
    (scan (matchSpaced ['a', 'n', 'd']) trimmed)
  let disjunctions := render (fun _ => [' ', '|', '|', ' '])
    (scan (matchSpaced ['o', 'r']) conjunctions)
  replaceNot disjunctions

def buildPreviewScope (context : SelectorContext) : List (String × Option Value) :=
  (namespaces.map fun nameSpace => (nameSpace, context.source nameSpace)) ++
    [("True", some (.bool true)), ("False", some (.bool false)), ("None", some .none),
      ("globalThis", none), ("window", none), ("document", none), ("Function", none)]

def containsSupportedNamespaceReference (expression : List Char) : Bool :=
  namespaces.any fun nameSpace => expression.tails.any nameSpace.toList.isPrefixOf

section Evaluate

variable (script : Script) (context : SelectorContext)

def evaluatePreviewExpression (expression : List Char) : Except String (Option Value) :=
  script.newFunction (buildPreviewScope context)
    ("\"use strict\"; return (" ++ String.ofList (normalizePreviewExpression expression) ++ ");")

def resolvePreviewTemplate (expression : List Char) : Except String (Option Value) :=
  if isSimpleSelectorExpression expression then
    resolveExpression script.inherited (String.ofList expression) context
  else evaluatePreviewExpression script context expression

/-- `value === undefined ? '' : String(value)`. -/
def stringValue : Option Value → Except String (List Char)
  | none => .ok []
  | some value => (script.string value).map String.toList

/-- The text of a template. -/
def previewText (inner : List Char) : Except String (List Char) :=
  (resolvePreviewTemplate script context (templateExpression inner)).bind (stringValue script)

/-!
## Filling in
-/

/-- What a dollar sign and the letter behind it stand for in a replacement. -/
def patternText (matched before after : List Char) (special : Char) : Option (List Char) :=
  if special = '$' then some ['$']
  else if special = '&' then some matched
  else if special.toNat = 0x60 then some before
  else if special = '\'' then some after
  else none

/-- The replacement of `String.replace` with its patterns expanded. -/
def getSubstitution (matched before after : List Char) : List Char → List Char
  | [] => []
  | [letter] => [letter]
  | letter :: special :: rest =>
      if letter = '$' then
        match patternText matched before after special with
        | some text => text ++ getSubstitution matched before after rest
        | none => letter :: getSubstitution matched before after (special :: rest)
      else letter :: getSubstitution matched before after (special :: rest)

/-- `text.replace(matched, value)`. -/
def replaceText (matched value text : List Char) : List Char :=
  replaceFirst matched (fun before after => getSubstitution matched before after value) text

/-- The loop over the templates. -/
def fillTemplates : List (List Char) → List Char → Except String (List Char)
  | [], result => .ok result
  | inner :: rest, result =>
      (previewText script context inner).bind fun value =>
        fillTemplates rest (replaceText (fullText inner) value result)

structure EvaluationResult where
  /-- `none` is `undefined`. -/
  value : Option Value
  error : Option String
  type : Option String
  deriving DecidableEq

def typeLabel : Option Value → Option String
  | none | some .none => some "null"
  | some (.bool _) => some "bool"
  | some (.int _) => some "int"
  | some (.str _) => some "str"
  | some (.list _) | some (.tuple _) => some "list"
  | some (.dict _) => some "object"
  | some (.object truth identity) => script.objectLabel truth identity

/-- The value of an expression that is one template. -/
def evaluateSingle (inner : List Char) : Except String EvaluationResult :=
  match resolvePreviewTemplate script context (templateExpression inner) with
  | .ok value => .ok ⟨value, none, typeLabel script value⟩
  | .error message =>
      if containsSupportedNamespaceReference (templateExpression inner) then .ok ⟨none, none, none⟩
      else .error message

/-- The text of an expression with several templates, or with other text around one. -/
def evaluateMixed (templates : List (List Char)) (source : List Char) :
    Except String EvaluationResult :=
  (fillTemplates script context templates source).map fun result =>
    ⟨some (.str (String.ofList result)), none, some "str"⟩

def evaluateSource (source : List Char) : Except String EvaluationResult :=
  match extractExpressions source with
  | [] =>
      if trim isScriptSpace source = [] then .ok ⟨some (.str ""), none, some "str"⟩
      else .ok ⟨some (.str (String.ofList source)), none, some "str"⟩
  | [inner] =>
      if fullText inner = source then evaluateSingle script context inner
      else evaluateMixed script context [inner] source
  | templates => evaluateMixed script context templates source

/-- The result, or the message of what was thrown. -/
def caught : Except String EvaluationResult → EvaluationResult
  | .ok result => result
  | .error message => ⟨some .none, some message, none⟩

def evaluateExpression (expression : Value) : EvaluationResult :=
  let rawExpression := match expression with
    | .str text => text
    | _ => ""
  if isExpressionMode rawExpression then
    caught (evaluateSource script context (stripExpressionPrefix rawExpression).toList)
  else ⟨some (.str rawExpression), none, some "str"⟩

end Evaluate

end WorkflowStudio.Expression
