import WorkflowStudio.Data.Value
import WorkflowStudio.Lib.Scanning

/-! The selectors of the editor: the path that is written for a place in a document, the parts
that are read back from it, and the value to which it leads. -/

set_option autoImplicit false

namespace WorkflowStudio.Expression

open Lib.Scanning

/-!
## Writing a path
-/

def isWordPart (value : Char) : Bool := value.isAlphanum || value == '_'

def isWordStart (value : Char) : Bool := value.isAlpha || value == '_'

/-- `/^\d+$/`. -/
def isIndexPart (part : List Char) : Bool := !part.isEmpty && part.all Char.isDigit

/-- `/[^a-zA-Z0-9_]/`. -/
def isSpecialPart (part : List Char) : Bool := part.any fun value => !isWordPart value

def pathSegment (part : List Char) : List Char :=
  if isIndexPart part then '[' :: (part ++ [']'])
  else if isSpecialPart part then '[' :: '\'' :: (part ++ ['\'', ']'])
  else '.' :: part

def pathSegments (pathParts : List String) : List Char :=
  pathParts.flatMap fun part => pathSegment part.toList

def generateExpressionPath (pathParts : List String) (root : String) : String :=
  String.ofList (root.toList ++ pathSegments pathParts)

/-!
## Reading a path
-/

/-- `[a-zA-Z_][a-zA-Z0-9_]*`. -/
def matchName : Matcher Char (List Char)
  | first :: rest =>
      if isWordStart first then
        some (first :: rest.takeWhile isWordPart, (rest.takeWhile isWordPart).length + 1)
      else none
  | [] => none

/-- A name after a dot, or without one. -/
def matchProperty : Matcher Char (List Char)
  | '.' :: rest => (matchName rest).map fun found => (found.1, found.2 + 1)
  | text => matchName text

def matchIndex : Matcher Char (List Char) := matchEnclosed ['['] Char.isDigit [']']

def matchQuoted (quote : Char) : Matcher Char (List Char) :=
  matchEnclosed ['[', quote] (· != quote) [quote, ']']

def matchPart : Matcher Char (List Char) := fun text =>
  (((matchProperty text).or (matchIndex text)).or (matchQuoted '\'' text)).or
    (matchQuoted '"' text)

structure ParsedPath where
  nameSpace : Option String
  parts : List String
  deriving DecidableEq

/-- `/^_(\w+)/`, and the rest of the path. -/
def matchNamespace (path : List Char) : Option (List Char × List Char) :=
  match path with
  | '_' :: rest =>
      if rest.takeWhile isWordPart = [] then none
      else some ('_' :: rest.takeWhile isWordPart, rest.dropWhile isWordPart)
  | _ => none

def dropDot : List Char → List Char
  | '.' :: rest => rest
  | path => path

def pathPartsOf (path : List Char) : List String := (matchesOf matchPart path).map String.ofList

/-- `parseExpressionPath`; the empty path has neither. -/
def parseExpressionPath (path : String) : ParsedPath :=
  match matchNamespace path.toList with
  | none => ⟨none, pathPartsOf path.toList⟩
  | some (nameSpace, rest) => ⟨some (String.ofList nameSpace), pathPartsOf (dropDot rest)⟩

/-!
## Following a path
-/

/-- The run-time data under the namespaces; `None` where there is none. -/
structure SelectorContext where
  json : Value := .none
  input : Value := .none
  vars : Value := .none
  loop : Value := .none
  node : Value := .none
  execution : Value := .none
  workflow : Value := .none
  now : Value := .none
  today : Value := .none

def namespaces : List String :=
  ["_json", "_vars", "_loop", "_node", "_input", "_execution", "_workflow", "_now", "_today"]

/-- The source of a namespace, if it is supported. -/
def SelectorContext.source (context : SelectorContext) : String → Option Value
  | "_json" => some (context.json.scriptOr (.dict []))
  | "_input" => some (context.input.scriptOr (.dict []))
  | "_vars" => some (context.vars.scriptOr (.dict []))
  | "_loop" => some (context.loop.scriptOr (.dict []))
  | "_node" => some (context.node.scriptOr (.dict []))
  | "_execution" => some (context.execution.scriptOr (.dict []))
  | "_workflow" => some (context.workflow.scriptOr (.dict []))
  | "_now" => some (context.now.scriptOr .none)
  | "_today" => some (context.today.scriptOr .none)
  | _ => none

/-- The item of a list under its index as it is written without leading zeros. -/
def itemAt (items : List Value) (part : String) : Option Value :=
  (items.zipIdx.find? fun item => toString item.2 == part).map Prod.fst

/-- What an object or a list has under a key or an index of its own. -/
def ownProperty (value : Value) (part : String) : Option Value :=
  match value with
  | .dict entries => entries.lookup (.str part)
  | .list items => itemAt items part
  | _ => none

/-- Where the parts lead through objects and lists. -/
def valueAt (document : Value) : List String → Option Value
  | [] => some document
  | part :: rest => (ownProperty document part).bind fun value => valueAt value rest

section Resolve

-- The properties that values have besides their own: lengths, characters, methods.
variable (inherited : Value → String → Option Value)

/-- `current[part]` from part to part; `none` is `undefined`. -/
def navigate : Option Value → List String → Option Value
  | current, [] => current
  | none, _ :: _ => none
  | some current, part :: rest =>
      if current = .none then none
      else navigate ((ownProperty current part).or (inherited current part)) rest

def resolveExpression (expression : String) (context : SelectorContext) :
    Except String (Option Value) :=
  let parsed := parseExpressionPath expression
  match parsed.nameSpace with
  | none =>
      .error ("Invalid expression namespace. Use one of: " ++ ", ".intercalate namespaces)
  | some nameSpace =>
      match context.source nameSpace with
      | none => .error ("Unsupported namespace " ++ nameSpace ++ ". Use one of: " ++
          ", ".intercalate namespaces)
      | some source => .ok (navigate inherited (some source) parsed.parts)

end Resolve

end WorkflowStudio.Expression
