import WorkflowStudio.Data.Value
import WorkflowStudio.Lib.OrderedMap

/-! Lists and dictionaries as objects with an address, so that one object can be held in several
places. All other values are immutable and stand for themselves. -/

set_option autoImplicit false

namespace WorkflowStudio

open Lib

abbrev Address := Nat

inductive Ref where
  | leaf (value : Value)
  | at (address : Address)
  deriving DecidableEq

abbrev Entries := List (Value × Ref)

inductive Object where
  | list (items : List Ref)
  | dict (entries : Entries)
  deriving DecidableEq

/-- The objects by their addresses; a new object takes the next address. -/
abbrev Heap := List Object

namespace Heap

/-!
## Operations
-/

def allocate (heap : Heap) (object : Object) : Ref × Heap := (.at heap.length, heap ++ [object])

mutual

/-- A value with objects of its own for all its lists and dictionaries. -/
def build : Value → Heap → Ref × Heap
  | .list items, heap =>
      let built := buildItems items heap
      built.2.allocate (.list built.1)
  | .dict fields, heap =>
      let built := buildEntries fields heap
      built.2.allocate (.dict built.1)
  | value, heap => (.leaf value, heap)

def buildItems : List Value → Heap → List Ref × Heap
  | [], heap => ([], heap)
  | item :: items, heap =>
      let first := build item heap
      let rest := buildItems items first.2
      (first.1 :: rest.1, rest.2)

def buildEntries : List (Value × Value) → Heap → Entries × Heap
  | [], heap => ([], heap)
  | (key, value) :: fields, heap =>
      let first := build value heap
      let rest := buildEntries fields first.2
      ((key, first.1) :: rest.1, rest.2)

end

/-- The value of a reference, to a depth of `fuel` objects. -/
def readTo (heap : Heap) : Nat → Ref → Value
  | _, .leaf value => value
  | 0, .at _ => .none
  | fuel + 1, .at address =>
      match heap[address]? with
      | some (.list items) => .list (items.map (readTo heap fuel))
      | some (.dict entries) => .dict (entries.map fun entry => (entry.1, readTo heap fuel entry.2))
      | none => .none

/-- No value of finite depth is deeper than there are objects. -/
def read (heap : Heap) (ref : Ref) : Value := heap.readTo heap.length ref

def dictAt (heap : Heap) : Ref → Option (Address × Entries)
  | .at address =>
      match heap[address]? with
      | some (.dict entries) => some (address, entries)
      | _ => none
  | .leaf _ => none

def listAt (heap : Heap) : Ref → Option (Address × List Ref)
  | .at address =>
      match heap[address]? with
      | some (.list items) => some (address, items)
      | _ => none
  | .leaf _ => none

/-- `dictionary.get(key)`, where `None` is for a key that is missing. -/
def getAt (heap : Heap) (dictionary : Address) (key : Value) : Ref :=
  match heap[dictionary]? with
  | some (.dict entries) => (entries.lookup key).getD (.leaf .none)
  | _ => .leaf .none

def changeAt (heap : Heap) (dictionary : Address) (change : Entries → Entries) : Heap :=
  match heap[dictionary]? with
  | some (.dict entries) => heap.set dictionary (.dict (change entries))
  | _ => heap

/-- `dictionary[key] = ref`. -/
def setAt (heap : Heap) (dictionary : Address) (key : Value) (ref : Ref) : Heap :=
  heap.changeAt dictionary (OrderedMap.setEntries key ref)

/-- `bool(ref)`. -/
def truthyAt (heap : Heap) : Ref → Bool
  | .leaf value => value.truthy
  | .at address =>
      match heap[address]? with
      | some (.list items) => !items.isEmpty
      | some (.dict entries) => !entries.isEmpty
      | none => false

end Heap

end WorkflowStudio
