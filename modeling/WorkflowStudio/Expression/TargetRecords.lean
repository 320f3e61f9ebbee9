import WorkflowStudio.Expression.RecordOperation

/-! The records that a record operation node writes or deletes: the ids of its
expression, or what a search finds. -/

set_option autoImplicit false

namespace WorkflowStudio.Expression

open Lib

/-- `int(value)`, or the name of the exception it raises, and the members of an
object that is a set. -/
structure Integers where
  int : Value → Except String Int
  members : Value → Option (List Value)
  int_int : ∀ value, int (.int value) = .ok value
  int_bool : ∀ value, int (.bool value) = .ok (if value then 1 else 0)

/-- A model of the database. A search finds no more records than its limit, and the
database refuses a negative limit. -/
structure Model where
  coerceFieldValue : String → Value → Value
  search : Value → Option Int → Except String (List Int)
  search_limited : ∀ domain limit records,
    search domain (some limit) = .ok records → (records.length : Int) ≤ limit

structure RecordConfig extends NodeConfig where
  operation : Value
  model : Value
  idsExpr : Option Value
  limit : Value

section TargetRecords

variable (python : Python) (integers : Integers) (evaluator : Evaluator)

/-- An integer, or nothing for a value that `int` does not take. -/
def tryInt (value : Value) : Resolution (Option Int) :=
  match integers.int value with
  | .ok found => .done (some found)
  | .error raised =>
      if raised = "TypeError" ∨ raised = "ValueError" then .done none else .fail raised

def integersOf (items : List Value) : Resolution (List Int) :=
  (Logged.each (tryInt integers) items).bind fun found => .done found.reduceOption

def idsOfMembers : Option (List Value) → Resolution (List Int)
  | some items => integersOf integers items
  | none => .fail "Record IDs must evaluate to int or list of ints"

def idsOf : Value → Resolution (List Int)
  | .none | .str "" => .done []
  | .int value => .done [value]
  | .bool value => .done [if value then 1 else 0]
  | .list items | .tuple items => integersOf integers items
  | value => idsOfMembers integers (integers.members value)

def resolveIds (config : RecordConfig) : Resolution (List Int) :=
  (resolve python evaluator (config.idsExpr.getD (.str "=\x7b\x7b [] \x7d\x7d"))).bind
    (idsOf integers)

def resolveInt (raw : Value) (default : Option Int) : Resolution (Option Int) :=
  if isLiteralPrefixedString raw then .done default
  else
    (resolve python evaluator raw).bind fun result =>
      if result = .none ∨ result = .str "" then .done default
      else (tryInt integers result).bind fun found => .done (found.or default)

/-- `limit or None`. -/
def limitOrNone : Option Int → Option Int
  | some 0 => none
  | limit => limit

/-- `model.browse` takes the ids as they are. -/
def browse (ids : List Int) : List Int := ids

def resolveTargetRecords (model : Model) (config : RecordConfig) : Resolution (List Int) :=
  (resolveIds python integers evaluator config).bind fun ids =>
    if ids ≠ [] then .done (browse ids)
    else
      (resolveNodeDomain python evaluator config.toNodeConfig).bind fun domain =>
        (resolveInt python integers evaluator config.limit none).bind fun limit =>
          ⟨[], model.search domain (limitOrNone limit)⟩

/-- The records that `write` is called on. -/
def runWrite (model : Model) (config : RecordConfig) : Resolution (Option (List Int)) :=
  (resolveVals python evaluator (some model.coerceFieldValue) config.toNodeConfig).bind fun vals =>
    match vals with
    | .dict _ =>
        (resolveTargetRecords python integers evaluator model config).bind fun records =>
          .done (if records.length = 0 then none else some records)
    | _ => .fail "Write operation requires values object"

/-- `records.ids` leaves out what is no real id. -/
def realIds (records : List Int) : List Int := records.filter (· ≠ 0)

/-- The records that `unlink` is called on. -/
def runDelete (model : Model) (config : RecordConfig) : Resolution (Option (List Int)) :=
  (resolveTargetRecords python integers evaluator model config).bind fun records =>
    .done (if (realIds records).length = 0 then none else some records)

def resolveModelName (raw : Value) : Resolution String :=
  (resolve python evaluator raw).bind fun value =>
    .done (if value = .none then "" else strip (python.str value))

/-- The records that a node writes or deletes. A search and a creation touch no
record that is there already. -/
def execute (env : String → Except String Model) (config : RecordConfig) :
    Resolution (Option (List Int)) :=
  let operation := (strip (python.str (config.operation.orElse (.str "search")))).toLower
  (resolveModelName python evaluator config.model).bind fun modelName =>
    if modelName = "" then .fail "Model is required"
    else
      (⟨[], env modelName⟩ : Resolution Model).bind fun model =>
        if operation = "search" ∨ operation = "create" then .done none
        else if operation = "write" then runWrite python integers evaluator model config
        else if operation = "delete" then runDelete python integers evaluator model config
        else .fail s!"Unsupported operation: {operation}"

end TargetRecords

end WorkflowStudio.Expression
