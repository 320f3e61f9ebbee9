import Mathlib.Data.List.Lex
import Mathlib.Data.List.Sort
import Mathlib.Data.Prod.Lex
import WorkflowStudio.Lib.OrderedMap

/-! The registry of the handlers of execution events: handlers are registered and removed by
identity, and those of one event are kept sorted by priority and qualified name. -/

set_option autoImplicit false

namespace WorkflowStudio.Workflow

open Lib

/-- A function, with the attributes that the registry asks for. -/
structure Func where
  identity : Nat
  qualname : Option String
  name : Option String
  modelName : Option String
  deriving DecidableEq

structure HandlerEntry where
  priority : Int
  qualname : String
  func : Func
  deriving DecidableEq

/-- `_execution_sort_key`: the priority and the codes of the letters, both negated. -/
def executionSortKey (entry : HandlerEntry) : Int ×ₗ List Int :=
  toLex (-entry.priority, entry.qualname.toList.map fun letter => -(letter.toNat : Int))

abbrev ExecutionRegistry := OrderedMap String (List HandlerEntry)

/-- `getattr(func, "__qualname__", "") or getattr(func, "__name__", "")`. -/
def Func.displayName (func : Func) : String :=
  let qualname := func.qualname.getD ""
  if qualname = "" then func.name.getD "" else qualname

def HandlerEntry.runs (entry : HandlerEntry) (func : Func) : Bool :=
  entry.func.identity == func.identity

namespace ExecutionRegistry

variable (registry : ExecutionRegistry)

def getHandlers (eventName : String) : List HandlerEntry := (registry.get? eventName).getD []

def register (eventName : String) (func : Func) (priority : Int) : ExecutionRegistry :=
  let handlers := getHandlers registry eventName
  if handlers.any (·.runs func) then registry
  else
    let entry : HandlerEntry := ⟨priority, func.displayName, func⟩
    registry.set eventName ((handlers ++ [entry]).insertionSort fun first second =>
      executionSortKey first ≤ executionSortKey second)

def unregister (eventName : String) (func : Func) : ExecutionRegistry :=
  let handlers := getHandlers registry eventName
  if handlers = [] then registry
  else registry.set eventName (handlers.filter fun entry => !entry.runs func)

def unregisterModel (modelName : Option String) : ExecutionRegistry :=
  registry.mapValues fun _ handlers =>
    handlers.filter fun entry => !(entry.func.modelName == modelName)

end ExecutionRegistry

inductive RegistryCall where
  | register (eventName : String) (func : Func) (priority : Int)
  | unregister (eventName : String) (func : Func)
  | unregisterModel (modelName : Option String)

def RegistryCall.run (registry : ExecutionRegistry) : RegistryCall → ExecutionRegistry
  | .register eventName func priority => registry.register eventName func priority
  | .unregister eventName func => registry.unregister eventName func
  | .unregisterModel modelName => registry.unregisterModel modelName

def runCalls (calls : List RegistryCall) : ExecutionRegistry :=
  calls.foldl RegistryCall.run OrderedMap.empty

end WorkflowStudio.Workflow
