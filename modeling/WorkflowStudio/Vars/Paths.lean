import WorkflowStudio.Lib.LinkedMaps

/-! The accessors of dotted paths on the variables: those of the executor, which `getvar` and
`setvar` call, and those of the variable node. A `MutableDotDict` is an object that several
variables may hold, so the variables live in a heap. A wrapped dictionary looks up its
entries before its methods, and an accessor that raises is known by its error alone. -/

set_option autoImplicit false

namespace WorkflowStudio.Vars.Paths

open Lib LinkedHeap

inductive Sequence where
  | list
  | tuple
  deriving DecidableEq

/-- A value as the variables hold it: every dictionary is a `MutableDotDict`. -/
abbrev Value (Scalar : Type) := Linked Sequence Scalar

abbrev Dict (Scalar : Type) := OrderedMap String (Value Scalar)

abbrev Heap (Scalar : Type) := LinkedHeap String Sequence Scalar

/-- A value to store. A dictionary is a plain one, a `ReadonlyDotDict`, or a
`MutableDotDict` that the heap has already. -/
inductive Given (Scalar : Type) where
  | scalar (value : Scalar)
  | sequence (shape : Sequence) (items : List (Given Scalar))
  | plain (entries : List (String × Given Scalar))
  | readonly (entries : List (String × Given Scalar))
  | mutable (address : Nat)

structure Store (Scalar : Type) where
  heap : Heap Scalar
  vars : Value Scalar

variable {Scalar : Type}

/-- Look up a method of a wrapped dictionary and call it; no value can be called. -/
def callMethod (keys : List String) (name : String) : Except String Unit :=
  if name ∈ keys then .error "object is not callable" else .ok ()

/-!
## Assignments
-/

/-- `wrapped[key] = value` for a value that is wrapped already, and which the assignment
would leave as it is if it wrapped it once more. -/
def setWrapped (wrapped : Dict Scalar) (key : String) (value : Value Scalar) :
    Except String (Dict Scalar) := do
  callMethod wrapped.keys "_child_path"
  let wrapped := wrapped.set key value
  callMethod wrapped.keys "_mark_dirty"
  return wrapped

mutual

/-- `wrap_mutable`. A new dictionary gets its address when it is complete, as nothing holds
it before; the copy of a readonly one asks it for its `keys`. -/
def wrapMutable : Given Scalar → Heap Scalar → Except String (Value Scalar × Heap Scalar)
  | .scalar value, heap => .ok (.scalar value, heap)
  | .sequence shape items, heap => do
      let (items, heap) ← wrapItems items heap
      return (.sequence shape items, heap)
  | .plain entries, heap => do
      let (wrapped, heap) ← wrapEntries .empty entries heap
      return (.map heap.length, heap ++ [wrapped])
  | .readonly entries, heap => do
      callMethod (entries.map Prod.fst) "keys"
      let (wrapped, heap) ← wrapEntries .empty entries heap
      return (.map heap.length, heap ++ [wrapped])
  | .mutable address, heap => .ok (.map address, heap)

def wrapItems : List (Given Scalar) → Heap Scalar →
    Except String (List (Value Scalar) × Heap Scalar)
  | [], heap => .ok ([], heap)
  | item :: items, heap => do
      let (value, heap) ← wrapMutable item heap
      let (values, heap) ← wrapItems items heap
      return (value :: values, heap)

def wrapEntries (wrapped : Dict Scalar) : List (String × Given Scalar) → Heap Scalar →
    Except String (Dict Scalar × Heap Scalar)
  | [], heap => .ok (wrapped, heap)
  | (key, item) :: entries, heap => do
      let (value, heap) ← wrapMutable item heap
      wrapEntries (← setWrapped wrapped key value) entries heap

end

/-- `current[key] = value`. -/
def setItem (current : Nat) (key : String) (value : Given Scalar) (heap : Heap Scalar) :
    Except String (Heap Scalar) := do
  callMethod (mapAt heap current).keys "_child_path"
  let (wrapped, heap) ← wrapMutable value heap
  let heap := put heap current ((mapAt heap current).set key wrapped)
  callMethod (mapAt heap current).keys "_mark_dirty"
  return heap

/-- `current.pop(key, None)`. -/
def pop (current : Nat) (key : String) (heap : Heap Scalar) : Except String (Heap Scalar) := do
  callMethod (mapAt heap current).keys "pop"
  if key ∈ (mapAt heap current).keys then
    let remaining := (mapAt heap current).erase key
    callMethod remaining.keys "_child_path"
    callMethod remaining.keys "_mark_dirty"
    return put heap current remaining
  else return heap

/-!
## Loops
-/

/-- `_split_var_path` and `_split_path`. -/
def splitPath (path : String) : List String :=
  ((path.toList.splitOn '.').filter (· ≠ [])).map String.ofList

/-- The dictionary under a key. -/
def dictUnder (heap : Heap Scalar) (current : Nat) (part : String) : Option Nat :=
  match (mapAt heap current).get? part with
  | some (.map address) => some address
  | _ => none

/-- The loop of `_get_var_path` and of `_get_path`; `none` stands for the default. -/
def walk (heap : Heap Scalar) : Value Scalar → List String →
    Except String (Option (Value Scalar))
  | current, [] => .ok (some current)
  | .map address, part :: rest =>
      match (mapAt heap address).get? part with
      | none => .ok none
      | some value => do
          callMethod (mapAt heap address).keys "get"
          walk heap value rest
  | _, _ :: _ => .ok none

/-- The loop of `_set_var_path`. -/
def setVarParts (value : Given Scalar) : Nat → List String → Heap Scalar →
    Except String (Heap Scalar)
  | _, [], heap => .ok heap
  | current, [last], heap => setItem current last value heap
  | current, part :: next :: rest, heap => do
      callMethod (mapAt heap current).keys "get"
      match dictUnder heap current part with
      | some found => setVarParts value found (next :: rest) heap
      | none =>
          let created := heap.length
          let heap ← setItem current part (.mutable created) (heap ++ [.empty])
          setVarParts value created (next :: rest) heap

/-- The dictionary that `_set_path` finds under a key. -/
def heldDict (heap : Heap Scalar) (current : Nat) (part : String) :
    Except String (Option Nat) :=
  match (mapAt heap current).get? part with
  | none => .ok none
  | some _ => do
      callMethod (mapAt heap current).keys "get"
      return dictUnder heap current part

/-- The loop of `_set_path`. -/
def setPathParts (value : Given Scalar) : Nat → List String → Heap Scalar →
    Except String (Heap Scalar)
  | _, [], heap => .ok heap
  | current, [last], heap => setItem current last value heap
  | current, part :: next :: rest, heap => do
      match ← heldDict heap current part with
      | some found => setPathParts value found (next :: rest) heap
      | none =>
          let heap ← setItem current part (.plain []) heap
          -- Reading the entry back gives the dictionary that the assignment made of it.
          match dictUnder heap current part with
          | some created => setPathParts value created (next :: rest) heap
          | none => .error "object does not support item assignment"

/-- The loop of `_delete_path`. -/
def deletePathParts : Value Scalar → List String → Heap Scalar → Except String (Heap Scalar)
  | .map current, [last], heap => pop current last heap
  | .map current, part :: next :: rest, heap =>
      match (mapAt heap current).get? part with
      | none => .ok heap
      | some found => do
          callMethod (mapAt heap current).keys "get"
          deletePathParts found (next :: rest) heap
  | _, _, heap => .ok heap

/-!
## The executor
-/

/-- `_get_var_path`. -/
def getVarPath (store : Store Scalar) (path : String) :
    Except String (Option (Value Scalar)) :=
  match splitPath path with
  | [] => .ok none
  | parts => walk store.heap store.vars parts

/-- `_set_var_path`. Variables that are no dictionary are replaced by an empty one. -/
def setVarPath (store : Store Scalar) (path : String) (value : Given Scalar) :
    Except String (Store Scalar) :=
  match splitPath path with
  | [] => .error "Variable path is required"
  | parts =>
      match store.vars with
      | .map root => do
          let heap ← setVarParts value root parts store.heap
          return ⟨heap, .map root⟩
      | _ => do
          let heap ← setVarParts value store.heap.length parts (store.heap ++ [.empty])
          return ⟨heap, .map store.heap.length⟩

/-!
## The variable node
-/

/-- `_get_path`. -/
def getPath (data : Store Scalar) (path : String) : Except String (Option (Value Scalar)) :=
  match data.vars with
  | .map root => walk data.heap (.map root) (splitPath path)
  | _ => .ok none

/-- `_set_path`. -/
def setPath (data : Store Scalar) (path : String) (value : Given Scalar) :
    Except String (Store Scalar) :=
  match data.vars with
  | .map root => do
      let heap ← setPathParts value root (splitPath path) data.heap
      return ⟨heap, .map root⟩
  | _ => .ok data

/-- `_delete_path`. -/
def deletePath (data : Store Scalar) (path : String) : Except String (Store Scalar) :=
  match data.vars with
  | .map root => do
      let heap ← deletePathParts (.map root) (splitPath path) data.heap
      return ⟨heap, .map root⟩
  | _ => .ok data

end WorkflowStudio.Vars.Paths
