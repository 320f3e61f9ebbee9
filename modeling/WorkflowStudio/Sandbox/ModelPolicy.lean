import Mathlib.Data.List.Basic
import Mathlib.Data.List.Infix
import WorkflowStudio.Data.Value

/-! Which models a workflow may use: the allow and deny lists of shell patterns. -/

set_option autoImplicit false

namespace WorkflowStudio.Sandbox

/-!
## Shell patterns
-/

/-- One element of a shell pattern; a class is a list of ranges. -/
inductive PatternItem where
  | anyText
  | anyChar
  | char (value : Char)
  | oneOf (negated : Bool) (ranges : List (Char × Char))

/-- The ranges of a character class; a `-` at either end stands for itself. -/
def classRanges : List Char → List (Char × Char)
  | low :: '-' :: high :: rest => (low, high) :: classRanges rest
  | value :: rest => (value, value) :: classRanges rest
  | [] => []

/-- The text of a class up to its closing bracket, and the rest; a bracket that
comes first belongs to the class. -/
def splitClass : List Char → Option (List Char × List Char)
  | first :: rest => go rest [first]
  | [] => none
where
  go : List Char → List Char → Option (List Char × List Char)
    | ']' :: rest, taken => some (taken.reverse, rest)
    | value :: rest, taken => go rest (value :: taken)
    | [], _ => none

/-- The items of a pattern; the fuel is the length of the pattern. -/
def patternItems : Nat → List Char → List PatternItem
  | 0, _ => []
  | _, [] => []
  | fuel + 1, '*' :: rest => .anyText :: patternItems fuel rest
  | fuel + 1, '?' :: rest => .anyChar :: patternItems fuel rest
  | fuel + 1, '[' :: '!' :: rest =>
      match splitClass rest with
      | some (text, after) => .oneOf true (classRanges text) :: patternItems fuel after
      | none => .char '[' :: patternItems fuel ('!' :: rest)
  | fuel + 1, '[' :: rest =>
      match splitClass rest with
      | some (text, after) => .oneOf false (classRanges text) :: patternItems fuel after
      | none => .char '[' :: patternItems fuel rest
  | fuel + 1, value :: rest => .char value :: patternItems fuel rest

def PatternItem.admits (value : Char) : PatternItem → Bool
  | .anyText | .anyChar => true
  | .char expected => value == expected
  | .oneOf negated ranges =>
      negated != ranges.any fun range => range.1 ≤ value && value ≤ range.2

def matchesItems : List PatternItem → List Char → Bool
  | [], text => text.isEmpty
  | .anyText :: rest, text => text.tails.any fun left => matchesItems rest left
  | item :: rest, value :: left => item.admits value && matchesItems rest left
  | _ :: _, [] => false

def fnmatch (name : String) (pattern : List Char) : Bool :=
  matchesItems (patternItems pattern.length pattern) name.toList

/-!
## Allow and deny lists
-/

def fnmatchPattern (pattern : String) : List Char :=
  pattern.toList.map fun value => if value = '%' then '*' else value

/-- The allow and deny lists. They come out of the security settings of a workflow, texts that
may hold any JSON, and what these hold is used as a list as far as Python lets it. -/
structure SafeEnvProxy where
  allowlist : Value
  denylist : Value

/-- `pattern in denylist`: a text has parts, a dictionary has keys. -/
def contains (pattern : String) : Value → Except String Bool
  | .str text => .ok (decide (pattern.toList <:+: text.toList))
  | .list items | .tuple items => .ok (decide (Value.str pattern ∈ items))
  | .dict entries => .ok (decide (Value.str pattern ∈ entries.map Prod.fst))
  | .none | .bool _ | .int _ | .object _ _ => .error "argument is not iterable"

/-- `denylist.append(pattern)`. -/
def appendPattern (pattern : String) : Value → Except String Value
  | .list items => .ok (.list (items ++ [.str pattern]))
  | _ => .error "object has no attribute 'append'"

/-- The deny list with the pattern of the system models, unless it has one already. -/
def withSystemModels (denylist : Value) : Except String Value := do
  if ← contains "ir.%" denylist then return denylist
  if ← contains "ir.*" denylist then return denylist
  appendPattern "ir.%" denylist

/-- What `for pattern in value` goes through. -/
def patternsOf : Value → Except String (List Value)
  | .str text => .ok (text.toList.map fun letter => .str (String.ofList [letter]))
  | .list items | .tuple items => .ok items
  | .dict entries => .ok (entries.map Prod.fst)
  | .none | .bool _ | .int _ | .object _ _ => .error "object is not iterable"

/-- Whether one of the patterns matches; one that is no text has no `replace`. -/
def anyMatches (modelName : String) : List Value → Except String Bool
  | [] => .ok false
  | .str pattern :: rest =>
      if fnmatch modelName (fnmatchPattern pattern) then .ok true else anyMatches modelName rest
  | _ :: _ => .error "object has no attribute 'replace'"

/-- The loop over a list, with the exceptions that it raises. -/
def listMatches (modelName : String) (patterns : Value) : Except String Bool := do
  anyMatches modelName (← patternsOf patterns)

namespace SafeEnvProxy

/-- `__init__`. -/
def new (allowlist denylist : Value) : SafeEnvProxy where
  allowlist := allowlist.orElse (.list [])
  denylist := denylist.orElse (.list [.str "ir.%"])

section Settings

variable (jsonLoads : String → Option Value)

/-- A setting that is empty or no JSON leaves the default. -/
def setting (text : Option String) (default : Value) : Value :=
  match text.filter (· != "") with
  | none => default
  | some text => (jsonLoads text).getD default

/-- `from_workflow`. -/
def fromWorkflow (modelAllowlist modelDenylist : Option String) : Except String SafeEnvProxy := do
  let allowlist := setting jsonLoads modelAllowlist (.list [])
  let denylist := setting jsonLoads modelDenylist (.list [.str "ir.%"])
  return new allowlist (← withSystemModels denylist)

end Settings

/-- `_is_model_allowed`. -/
def isModelAllowed (proxy : SafeEnvProxy) (modelName : String) : Except String Bool := do
  if ← listMatches modelName proxy.denylist then return false
  if proxy.allowlist.truthy then listMatches modelName proxy.allowlist
  else return true

end SafeEnvProxy

end WorkflowStudio.Sandbox
