import WorkflowStudio.Executor.Machine
import WorkflowStudio.Expression.Resolver

/-! The runner of loop nodes and the runtime in which it runs. The runner tells
the first arrival at a node from every later one by the state that it keeps for
the node, which nothing removes before the end of the run. -/

set_option autoImplicit false

namespace WorkflowStudio.Executor

open Lib Expression

/-!
## The runner
-/

/-- The entry of a loop node in `node_context`. -/
structure LoopState where
  items : List Value
  currentIndex : Int
  batchSize : Value
  processedItems : List Value

/-- Where a slice bound falls in a list. -/
def sliceBound (length : Nat) (index : Int) : Nat :=
  if index < 0 then (index + length).toNat else min index.toNat length

def slice (items : List Value) (start stop : Int) : List Value :=
  (items.take (sliceBound items.length stop)).drop (sliceBound items.length start)

/-- A batch of one item is passed on as that item. -/
def batchData : List Value → Value
  | [item] => item
  | batch => .list batch

/-- `batchSize or 1`, where it is added to an index. -/
def batchStep (batchSize : Value) : Except String Int :=
  match batchSize.orElse (.int 1) with
  | .int size => .ok size
  | .bool _ => .ok 1
  | other => .error s!"unsupported operand type(s) for +: 'int' and '{typeName other}'"

namespace LoopState

/-- The batch at the current index. -/
def currentBatch (state : LoopState) (size : Int) : Value :=
  batchData (slice state.items state.currentIndex (state.currentIndex + size))

def emitBatch (state : LoopState) : Except String NodeOutput :=
  match batchStep state.batchSize with
  | .error error => .error error
  | .ok size =>
      let data := state.currentBatch size
      .ok { outputs := some [[], [data]], json := some data }

/-- Note the batch that was processed and go on to the next one. -/
def advance (state : LoopState) (size : Int) : LoopState :=
  { state with
    processedItems := state.processedItems ++ [state.currentBatch size]
    currentIndex := state.currentIndex + size }

def continueLoop (state : LoopState) : LoopState × Except String NodeOutput :=
  match batchStep state.batchSize with
  | .error error => (state, .error error)
  | .ok size =>
      let previous := state.currentBatch size
      let state := state.advance size
      if (state.items.length : Int) ≤ state.currentIndex then
        -- the list itself is passed on, and the next call extends it in place
        let results := Value.list state.processedItems
        (state, .ok {
          outputs := some [[results], []]
          json := some results
          logInput := some previous })
      else (state, state.emitBatch.map fun result => { result with logInput := some previous })

end LoopState

def defaultItems : Value := .str "=\x7b\x7b _json \x7d\x7d"

/-- The expression of the items of a loop node. -/
def inputItems (config : List (String × Value)) : Value :=
  (config.lookup "inputItems").getD defaultItems

def loopBatchSize (config : List (String × Value)) : Value :=
  ((config.lookup "batchSize").getD (.int 1)).orElse (.int 1)

/-- The items that a value stands for. -/
def asItems : Value → List Value
  | .list items | .tuple items => items
  | .none => []
  | other => [other]

/-- `input_data or {}`. -/
def payloadOf (inputData : Value) : Value := inputData.orElse (.dict [])

section Runner

variable (python : Python) (evaluator : Value → Evaluator)

/-- The items of a loop that is entered with an input; `evaluator` evaluates
texts in the context of a payload. -/
def resolveItems (config : List (String × Value)) (inputData : Value) :
    Except String (List Value) :=
  if (inputItems config).truthy then
    match (resolve python (evaluator (payloadOf inputData)) (inputItems config)).outcome with
    | .ok items => .ok (asItems items)
    | .error error =>
        .error ("Loop items expression failed when evaluating '" ++
          python.str (inputItems config) ++ "': " ++ error)
  else .ok (asItems inputData)

def LoopState.started (config : List (String × Value)) (items : List Value) : LoopState where
  items := items
  currentIndex := 0
  batchSize := loopBatchSize config
  processedItems := []

/-- `_init_loop` once the items are known. -/
def initLoop (config : List (String × Value)) (items : List Value) :
    LoopState × Except String NodeOutput :=
  let state := LoopState.started config items
  if items = [] then (state, .ok { outputs := some [[], []], json := some (.list []) })
  else (state, state.emitBatch)

/-- `execute` of the runner, with the state of the node before and after it. -/
def executeLoopNode (config : List (String × Value)) (items : Except String (List Value)) :
    Option LoopState → Option LoopState × Except String NodeOutput
  | some state =>
      let continued := state.continueLoop
      (some continued.1, continued.2)
  | none =>
      match items with
      | .error error => (none, .error error)
      | .ok items =>
          let started := initLoop config items
          (some started.1, started.2)

end Runner

/-!
## The runtime
-/

/-- A call of the runner: the node, what `_json` names at that moment, and the items
that the expression stands for. -/
structure Arrival where
  nodeId : String
  json : Except String Value
  items : Except String (List Value)

/-- `arrivals` is a history that no branch reads. -/
structure LoopWorld (World : Type) where
  inner : World
  nodeContext : OrderedMap String LoopState
  arrivals : List Arrival

def LoopWorld.initial {World : Type} (world : World) : LoopWorld World where
  inner := world
  nodeContext := OrderedMap.empty
  arrivals := []

section Runtime

variable {World : Type} (python : Python) (evaluator : World → Value → Evaluator)

/-- `evaluator` may name an older copy of the payload in `_json`: the context wraps a
payload again only when it gets another object. -/
def runLoopNode (world : LoopWorld World) (node : Node) (inputData : Value) :
    LoopWorld World × Except String NodeOutput :=
  let items := resolveItems python (evaluator world.inner) node.config inputData
  let executed := executeLoopNode node.config items (world.nodeContext.get? node.id)
  ({ world with
      nodeContext := match executed.1 with
        | some state => world.nodeContext.set node.id state
        | none => world.nodeContext
      arrivals := world.arrivals ++
        [⟨node.id, evaluator world.inner (payloadOf inputData) "_json", items⟩] },
    executed.2)

/-- A runtime whose loop nodes are executed by the loop runner. -/
def loopRuntime (runtime : Runtime World) : Runtime (LoopWorld World) where
  executeNodeCore := fun world node inputData =>
    if node.type = "loop" then runLoopNode python evaluator world node inputData
    else
      let called := runtime.executeNodeCore world.inner node inputData
      ({ world with inner := called.1 }, called.2)
  emitRunEvent := fun world event =>
    let emitted := runtime.emitRunEvent world.inner event
    ({ world with inner := emitted.1 }, emitted.2)
  getPinData := fun world node => runtime.getPinData world.inner node
  busShouldFlush := fun world => runtime.busShouldFlush world.inner
  display := runtime.display
  display_empty := runtime.display_empty

end Runtime

end WorkflowStudio.Executor
