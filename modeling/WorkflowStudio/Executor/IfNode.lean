import WorkflowStudio.Executor.Machine
import WorkflowStudio.Expression.Resolver

/-! The runner of `if` nodes. Both operands of a condition are turned into numbers
where both read as numbers; the text operators print what they are given. -/

set_option autoImplicit false

namespace WorkflowStudio.Executor

open Lib Expression

inductive Comparison where
  | gt
  | gte
  | lt
  | lte
  deriving DecidableEq

/-- The numbers of Python and its comparisons. A float is an object, and so is a set. -/
structure PythonNumbers where
  /-- `float(text)`, or nothing where it raises. -/
  float : String → Option Value
  isFloat : Value → Bool
  /-- The elements of a set. -/
  setElements : Value → Option (List Value)
  equal : Value → Value → Bool
  compare : Comparison → Value → Value → Except String Bool
  isFloat_float : ∀ text number, float text = some number → isFloat number = true
  float_object : ∀ number, isFloat number = true →
    setElements number = none ∧ ∃ truth identity, number = .object truth identity
  isSet_object : ∀ value elements, setElements value = some elements →
    ∃ truth identity, value = .object truth identity

/-!
## Text
-/

/-- `text.find(part)`, with nothing for -1. -/
def find? (part : List Char) : List Char → Option Nat
  | [] => if part.isPrefixOf [] then some 0 else none
  | first :: rest =>
      if part.isPrefixOf (first :: rest) then some 0 else (find? part rest).map (· + 1)

theorem find?_isSome (part text : List Char) : (find? part text).isSome ↔ part <:+: text := by
  induction text with
  | nil =>
      unfold find?
      split
      · rename_i found
        exact iff_of_true rfl (List.isPrefixOf_iff_prefix.mp found).isInfix
      · rename_i missing
        refine iff_of_false (by simp) ?_
        intro within
        rw [List.infix_nil.mp within] at missing
        exact missing rfl
  | cons first rest ih =>
      unfold find?
      rw [List.infix_cons_iff, ← ih]
      split
      · rename_i found
        exact iff_of_true rfl (.inl (List.isPrefixOf_iff_prefix.mp found))
      · rename_i missing
        rw [Option.isSome_map]
        constructor
        · exact .inr
        · rintro (front | within)
          · exact absurd (List.isPrefixOf_iff_prefix.mpr front) missing
          · exact within

/-!
## The condition
-/

mutual

/-- The part of a value for which it has no hash. -/
def unhashable : Value → Option Value
  | .list items => some (.list items)
  | .dict entries => some (.dict entries)
  | .tuple items => unhashableItem items
  | _ => none

def unhashableItem : List Value → Option Value
  | [] => none
  | item :: items => (unhashable item).or (unhashableItem items)

end

section Condition

variable (python : Python) (numbers : PythonNumbers)

/-- `isinstance(value, (int, float))`; a truth value is an integer. -/
def isNumber : Value → Bool
  | .bool _ | .int _ => true
  | value => numbers.isFloat value

def maybeNumber (value : Value) : Value :=
  if isNumber numbers value then value
  else
    match value with
    | .str text =>
        let stripped := strip text
        if stripped = "" then value else (numbers.float stripped).getD value
    | _ => value

def coerceNumbers (left right : Value) : Value × Value :=
  let leftNum := maybeNumber numbers left
  let rightNum := maybeNumber numbers right
  if isNumber numbers leftNum ∧ isNumber numbers rightNum then (leftNum, rightNum)
  else (left, right)

def isEmptyValue (value : Value) : Bool :=
  match value with
  | .none | .str "" | .list [] | .tuple [] | .dict [] => true
  | _ => numbers.setElements value == some []

/-- `right in left` for a dictionary or a set, which asks for a value with a hash. -/
def memberOf (right : Value) (members : List Value) : Except String Bool :=
  match unhashable right with
  | some part => .error s!"unhashable type: '{typeName part}'"
  | none => .ok (members.any fun member => numbers.equal right member)

def contains (left right : Value) : Except String Bool :=
  match left with
  | .list items | .tuple items => .ok (items.any fun item => numbers.equal right item)
  | .dict entries => memberOf numbers right (entries.map Prod.fst)
  | _ =>
      match numbers.setElements left with
      | some elements => memberOf numbers right elements
      | none => .ok (find? (python.str right).toList (python.str left).toList).isSome

def compareValues (operator : Value) (left right : Value) : Except String Bool :=
  match operator with
  | .str "eq" => .ok (numbers.equal left right)
  | .str "neq" => .ok (!numbers.equal left right)
  | .str "gt" => numbers.compare .gt left right
  | .str "gte" => numbers.compare .gte left right
  | .str "lt" => numbers.compare .lt left right
  | .str "lte" => numbers.compare .lte left right
  | .str "contains" => contains python numbers left right
  | .str "startsWith" =>
      .ok ((python.str right).toList.isPrefixOf (python.str left).toList)
  | .str "endsWith" =>
      .ok ((python.str right).toList.isSuffixOf (python.str left).toList)
  | .str "empty" => .ok (isEmptyValue numbers left)
  | .str "notEmpty" => .ok (!isEmptyValue numbers left)
  | .str "truthy" => .ok left.truthy
  | .str "falsy" => .ok (!left.truthy)
  | _ => .ok false

/-- `_to_bool`: no letter outside of ASCII is the capital of a letter of these words. -/
def toBool : Value → Bool
  | .bool value => value
  | .str text =>
      let lowered := (strip text).toLower
      if lowered ∈ ["true", "1", "yes", "y", "on"] then true
      else if lowered ∈ ["false", "0", "no", "n", "off", ""] then false
      else (Value.str text).truthy
  | value => value.truthy

end Condition

/-!
## The runner
-/

structure IfOutput where
  outputs : List (List Value)
  json : Value
  branch : String
  deriving DecidableEq

def IfOutput.toNodeOutput (output : IfOutput) : NodeOutput where
  outputs := some output.outputs
  json := some output.json

/-- The output that sends the input to the true socket or to the false one. -/
def branchOutput (inputData : Value) (taken : Bool) : IfOutput :=
  if taken then { outputs := [[inputData], []], json := inputData, branch := "true" }
  else { outputs := [[], [inputData]], json := inputData, branch := "false" }

section Runner

variable (python : Python) (numbers : PythonNumbers) (evaluator : Value → Evaluator)

/-- `node_config.get(key, default)`, resolved in the context of the input. -/
def resolveOperand (config : List (String × Value)) (key : String) (fallback inputData : Value) :
    Except String Value :=
  (resolve python (evaluator (inputData.orElse (.dict [])))
    ((config.lookup key).getD fallback)).outcome

/-- The condition of a node with operands; other nodes have an expression, which is
false where it raises. -/
def ifCondition (config : List (String × Value)) (inputData : Value) : Except String Bool :=
  if ["leftOperand", "operator", "rightOperand"].any fun key => (config.lookup key).isSome then
    match resolveOperand python evaluator config "leftOperand" (.str "") inputData with
    | .error error => .error error
    | .ok left =>
        match resolveOperand python evaluator config "rightOperand" (.str "") inputData with
        | .error error => .error error
        | .ok right =>
            let operator := (config.lookup "operator").getD (.str "eq")
            let coerced := coerceNumbers numbers left right
            compareValues python numbers operator coerced.1 coerced.2
  else
    match resolveOperand python evaluator config "condition" (.str "false") inputData with
    | .error _ => .ok false
    | .ok result => .ok (toBool result)

def executeIfNode (config : List (String × Value)) (inputData : Value) :
    Except String IfOutput :=
  (ifCondition python numbers evaluator config inputData).map (branchOutput inputData)

end Runner

end WorkflowStudio.Executor
