import WorkflowStudio.Executor.Machine
import WorkflowStudio.Expression.Resolver

/-! How node outputs are turned into plain values, and how the data of a pin is turned
back into the result of a node. -/

set_option autoImplicit false

namespace WorkflowStudio.Executor

open Lib Expression

/-!
## Normalisation
-/

/-- What normalisation makes of an object that is no container. -/
inductive ObjectForm where
  /-- A float. -/
  | itself
  /-- A date, bytes, or anything else that is printed. -/
  | text (printed : String)
  | records (model : String) (ids : List Int)
  | set (items : List Value)

/-- The objects that travel between nodes, as Python reads them. -/
structure Objects where
  form : Bool → Nat → ObjectForm
  /-- `int(value)`, or nothing where it raises. -/
  int : Value → Option Int
  /-- What a loop over an object goes through, or nothing where it raises. -/
  iterate : Bool → Nat → Option (List Value)

def recordRefsKey : String := "__wf_record_refs__"

def recordRefsCountKey : String := "__wf_record_refs_count__"

def recordRefsTruncatedKey : String := "__wf_record_refs_truncated__"

def recordRefsModelKey : String := "__wf_record_refs_model__"

def maxRecordRefs : Nat := 100

def maxNormalizeDepth : Nat := 20

/-- `value.get(key)` of a dictionary with text keys. -/
def dictGet (entries : List (Value × Value)) (key : String) : Value :=
  (entries.lookup (.str key)).getD .none

def recordRef (model : Value) (id : Int) : Value :=
  .dict [(.str "model", model), (.str "id", .int id)]

def recordRefsMarker (refs : List Value) (model count : Value) (truncated : Bool) : Value :=
  .dict [(.str recordRefsKey, .list refs), (.str recordRefsModelKey, model),
    (.str recordRefsCountKey, count), (.str recordRefsTruncatedKey, .bool truncated)]

def buildRecordRefsMarker (model : String) (ids : List Int) : Value :=
  recordRefsMarker ((ids.take maxRecordRefs).map (recordRef (.str model))) (.str model)
    (.int ids.length) (decide ((ids.take maxRecordRefs).length < ids.length))

section Normalize

variable (python : Python) (objects : Objects)

/-- `for item in value`. -/
def iterate : Value → Except String (List Value)
  | .list items | .tuple items => .ok items
  | .dict entries => .ok (entries.map Prod.fst)
  | .str text => .ok (text.toList.map fun letter => .str (String.ofList [letter]))
  | .object truth identity =>
      match objects.iterate truth identity with
      | some items => .ok items
      | none => .error "object is not iterable"
  | other => .error s!"'{typeName other}' object is not iterable"

/-- A reference of a marker, if it has a model and an integer id. -/
def normalizeRef : Value → Option Value
  | .dict ref =>
      if (dictGet ref "model").truthy then
        (objects.int (dictGet ref "id")).map (recordRef (dictGet ref "model"))
      else none
  | _ => none

def normalizeMarker (entries : List (Value × Value)) : Except String Value :=
  (iterate objects ((dictGet entries recordRefsKey).orElse (.list []))).map fun refs =>
    let normalizedRefs := refs.filterMap (normalizeRef objects)
    let count := match dictGet entries recordRefsCountKey with
      | .int count => .int count
      | .bool count => .bool count
      | _ => .int normalizedRefs.length
    recordRefsMarker normalizedRefs (dictGet entries recordRefsModelKey) count
      (dictGet entries recordRefsTruncatedKey).truthy

/-- `_normalize_output_value` of a value without a `MutableDotDict`, with as many levels
left as the depth leaves below the deepest one that is kept. -/
def normalizeLevels : Nat → Value → Except String Value
  | 0, value => .ok (.str (python.str value))
  | levels + 1, value =>
      match value with
      | .dict entries =>
          if (entries.lookup (.str recordRefsKey)).isSome then normalizeMarker objects entries
          else
            (entries.mapM fun entry =>
              (normalizeLevels levels entry.2).map fun item => (entry.1, item)).map .dict
      | .list items | .tuple items => (items.mapM (normalizeLevels levels)).map .list
      | .object truth identity =>
          match objects.form truth identity with
          | .itself => .ok value
          | .text printed => .ok (.str printed)
          | .records model ids => .ok (buildRecordRefsMarker model ids)
          | .set items => (items.mapM (normalizeLevels levels)).map .list
      | value => .ok value

def normalizeOutputValue (value : Value) : Except String Value :=
  normalizeLevels python objects (maxNormalizeDepth + 1) value

end Normalize

/-!
## Wrapped dictionaries
-/

/-- An output as the runners leave it. A dictionary may be a `MutableDotDict`, which looks
a name up among its keys before its methods. -/
inductive RawOutput where
  | none
  | bool (value : Bool)
  | int (value : Int)
  | str (value : String)
  | list (items : List RawOutput)
  | tuple (items : List RawOutput)
  | dict (keyFirst : Bool) (entries : List (Value × RawOutput))
  | object (truth : Bool) (identity : Nat)

/-- What calls of objects give, or nothing where they raise. -/
structure Calls where
  /-- The pairs that a loop over `value()` goes through. -/
  items : Bool → Nat → Option (List (Value × RawOutput))
  /-- `value(key)`. -/
  get : Bool → Nat → String → Option RawOutput

namespace RawOutput

mutual

def ofValue : Value → RawOutput
  | .none => .none
  | .bool value => .bool value
  | .int value => .int value
  | .str value => .str value
  | .list items => .list (ofItems items)
  | .tuple items => .tuple (ofItems items)
  | .dict entries => .dict false (ofEntries entries)
  | .object truth identity => .object truth identity

def ofItems : List Value → List RawOutput
  | [] => []
  | item :: items => ofValue item :: ofItems items

def ofEntries : List (Value × Value) → List (Value × RawOutput)
  | [] => []
  | (key, item) :: entries => (key, ofValue item) :: ofEntries entries

end

mutual

/-- The same with plain dictionaries: what `str`, `int` and `bool` make of both is the same. -/
def plain : RawOutput → Value
  | .none => .none
  | .bool value => .bool value
  | .int value => .int value
  | .str value => .str value
  | .list items => .list (plainItems items)
  | .tuple items => .tuple (plainItems items)
  | .dict _ entries => .dict (plainEntries entries)
  | .object truth identity => .object truth identity

def plainItems : List RawOutput → List Value
  | [] => []
  | item :: items => plain item :: plainItems items

def plainEntries : List (Value × RawOutput) → List (Value × Value)
  | [] => []
  | (key, item) :: entries => (key, plain item) :: plainEntries entries

end

/-- Call a method of a dictionary, or what stands under its name in a `MutableDotDict`. -/
def callMethod {Result : Type} (keyFirst : Bool) (entries : List (Value × RawOutput))
    (name : String) (own : Result) (call : Bool → Nat → Option Result) : Except String Result :=
  match if keyFirst then entries.lookup (.str name) else Option.none with
  | Option.none => .ok own
  | some (.object truth identity) =>
      match call truth identity with
      | some result => .ok result
      | Option.none => .error "object is not callable"
  | some _ => .error "object is not callable"

def recordRef (model : RawOutput) (id : Int) : RawOutput :=
  .dict false [(.str "model", model), (.str "id", .int id)]

def recordRefsMarker (refs : List RawOutput) (model count : RawOutput) (truncated : Bool) :
    RawOutput :=
  .dict false [(.str recordRefsKey, .list refs), (.str recordRefsModelKey, model),
    (.str recordRefsCountKey, count), (.str recordRefsTruncatedKey, .bool truncated)]

def buildRecordRefsMarker (model : String) (ids : List Int) : RawOutput :=
  recordRefsMarker ((ids.take maxRecordRefs).map (recordRef (.str model))) (.str model)
    (.int ids.length) (decide ((ids.take maxRecordRefs).length < ids.length))

section Normalize

variable (python : Python) (objects : Objects) (calls : Calls)

/-- `value.items()`. -/
def items (keyFirst : Bool) (entries : List (Value × RawOutput)) :
    Except String (List (Value × RawOutput)) :=
  callMethod keyFirst entries "items" entries calls.items

/-- `value.get(key)`. -/
def get (keyFirst : Bool) (entries : List (Value × RawOutput)) (key : String) :
    Except String RawOutput :=
  callMethod keyFirst entries "get" ((entries.lookup (.str key)).getD .none)
    fun truth identity => calls.get truth identity key

/-- `for item in value`. -/
def iterate : RawOutput → Except String (List RawOutput)
  | .list items | .tuple items => .ok items
  | other => (Executor.iterate objects other.plain).map ofItems

/-- `value or []`. -/
def orEmpty (output : RawOutput) : RawOutput := if output.plain.truthy then output else .list []

/-- A reference of a marker, if it has a model and an integer id. -/
def normalizeRef : RawOutput → Except String (Option RawOutput)
  | .dict keyFirst ref => do
      let model ← get calls keyFirst ref "model"
      let id ← get calls keyFirst ref "id"
      if model.plain.truthy then .ok ((objects.int id.plain).map (recordRef model))
      else .ok Option.none
  | _ => .ok Option.none

def normalizeMarker (keyFirst : Bool) (entries : List (Value × RawOutput)) :
    Except String RawOutput := do
  let given ← get calls keyFirst entries recordRefsKey
  let refs ← iterate objects given.orEmpty
  let normalizedRefs ← refs.mapM (normalizeRef objects calls)
  let given ← get calls keyFirst entries recordRefsCountKey
  let count := match given with
    | .int count => .int count
    | .bool count => .bool count
    | _ => .int normalizedRefs.reduceOption.length
  let model ← get calls keyFirst entries recordRefsModelKey
  let truncated ← get calls keyFirst entries recordRefsTruncatedKey
  return recordRefsMarker normalizedRefs.reduceOption model count truncated.plain.truthy

/-- `_normalize_output_value` with as many levels left as the depth leaves below the
deepest one that is kept. -/
def normalizeLevels : Nat → RawOutput → Except String RawOutput
  | 0, output => .ok (.str (python.str output.plain))
  | levels + 1, output =>
      match output with
      | .dict keyFirst entries =>
          if (entries.lookup (.str recordRefsKey)).isSome then
            normalizeMarker objects calls keyFirst entries
          else do
            let pairs ← items calls keyFirst entries
            let normalized ← pairs.mapM fun pair =>
              (normalizeLevels levels pair.2).map fun item => (pair.1, item)
            return .dict false normalized
      | .list items | .tuple items => (items.mapM (normalizeLevels levels)).map .list
      | .object truth identity =>
          match objects.form truth identity with
          | .itself => .ok output
          | .text printed => .ok (.str printed)
          | .records model ids => .ok (buildRecordRefsMarker model ids)
          | .set items => ((ofItems items).mapM (normalizeLevels levels)).map .list
      | output => .ok output

def normalizeOutputValue (output : RawOutput) : Except String RawOutput :=
  normalizeLevels python objects calls (maxNormalizeDepth + 1) output

end Normalize

end RawOutput

/-!
## Pins
-/

/-- The output sockets of a node type: the keys of its output schema. -/
def outputSockets (schema : OrderedMap String Value) : List String :=
  schema.keys.filter fun key => key != ""

/-- The data of an inline pin. -/
structure InlinePin where
  outputData : Value
  outputSocket : Option String

/-- The row of a run that a pin refers to. -/
structure PinnedRun where
  id : Nat
  errorMessage : Option String
  outputData : Value
  outputSocket : Option String

/-- The outputs and the json of a pinned value at the socket with an index: a list is
taken as the items of the socket. -/
def pinnedOutputs (outputIndex : Nat) (value : Value) : List (List Value) × Value :=
  let before := List.replicate outputIndex []
  match value with
  | .none => (before ++ [[]], .none)
  | .list items => (before ++ [items], match items with | [item] => item | _ => .list items)
  | value => (before ++ [[value]], value)

section Pins

variable (python : Python) (objects : Objects) (sockets : List String)

def pinnedIndex (outputSocket : Option String) : Nat :=
  (socketToIndex sockets (some ((present outputSocket).getD "output"))).getD 0

def buildInlinePinResult (pin : InlinePin) : Except String NodeOutput :=
  (normalizeOutputValue python objects pin.outputData).map fun value =>
    let pinned := pinnedOutputs (pinnedIndex sockets pin.outputSocket) value
    { outputs := some pinned.1
      json := some pinned.2
      metaFields := some (.dict [(.str "pinned_inline", .bool true)]) }

def buildPinnedResult (nodeRun : PinnedRun) : Except String NodeOutput :=
  let metaFields := Value.dict [(.str "pinned_node_run_id", .int nodeRun.id)]
  match present nodeRun.errorMessage with
  | some error => .ok {
      outputs := some []
      json := some .none
      error := some error
      metaFields := some metaFields }
  | none =>
      (normalizeOutputValue python objects nodeRun.outputData).map fun value =>
        let pinned := pinnedOutputs (pinnedIndex sockets nodeRun.outputSocket) value
        { outputs := some pinned.1, json := some pinned.2, metaFields := some metaFields }

end Pins

end WorkflowStudio.Executor
