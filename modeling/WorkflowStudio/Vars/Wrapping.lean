import WorkflowStudio.Lib.OrderedMap

/-! The wrappers of payloads as functions on trees. A wrapped dictionary looks up its
entries before its methods, also where the wrappers themselves call a method. -/

set_option autoImplicit false

namespace WorkflowStudio.Vars.Wrapping

open Lib

/-- A payload. A dictionary is a plain one, a `MutableDotDict` or a `ReadonlyDotDict`. -/
inductive Payload (Scalar : Type) where
  | scalar (value : Scalar)
  | list (items : List (Payload Scalar))
  | tuple (items : List (Payload Scalar))
  | plain (entries : List (String × Payload Scalar))
  | mutable (entries : List (String × Payload Scalar))
  | readonly (entries : List (String × Payload Scalar))

variable {Scalar : Type}

abbrev Entries (Scalar : Type) := List (String × Payload Scalar)

def keysOf (entries : Entries Scalar) : List String := entries.map Prod.fst

/-- Look up a method of a wrapped dictionary and call it; no payload can be called. -/
def callMethod (entries : Entries Scalar) (name : String) : Except String Unit :=
  if name ∈ keysOf entries then .error "object is not callable" else .ok ()

mutual

def wrapReadonly : Payload Scalar → Payload Scalar
  | .readonly entries => .readonly entries
  | .mutable entries => .readonly entries
  | .plain entries => .readonly entries
  | .list items => .list (wrapReadonlyItems items)
  | .tuple items => .tuple (wrapReadonlyItems items)
  | .scalar value => .scalar value

def wrapReadonlyItems : List (Payload Scalar) → List (Payload Scalar)
  | [] => []
  | item :: items => wrapReadonly item :: wrapReadonlyItems items

end

/-- `wrapped[key] = value` for a value that is wrapped already, and which the assignment
would leave as it is if it wrapped it once more. -/
def setItem (wrapped : Entries Scalar) (key : String) (value : Payload Scalar) :
    Except String (Entries Scalar) := do
  callMethod wrapped "_child_path"
  let wrapped := OrderedMap.setEntries key value wrapped
  callMethod wrapped "_mark_dirty"
  return wrapped

mutual

/-- `wrap_mutable`. The copy of a readonly dictionary asks it for its `keys`. -/
def wrapMutable : Payload Scalar → Except String (Payload Scalar)
  | .mutable entries => .ok (.mutable entries)
  | .readonly entries => do
      callMethod entries "keys"
      return .mutable (← wrapEntries [] entries)
  | .plain entries => return .mutable (← wrapEntries [] entries)
  | .list items => return .list (← wrapItems items)
  | .tuple items => return .tuple (← wrapItems items)
  | .scalar value => .ok (.scalar value)

def wrapItems : List (Payload Scalar) → Except String (List (Payload Scalar))
  | [] => .ok []
  | item :: items => return (← wrapMutable item) :: (← wrapItems items)

def wrapEntries (wrapped : Entries Scalar) : Entries Scalar → Except String (Entries Scalar)
  | [] => .ok wrapped
  | (key, item) :: entries => do
      let value ← wrapMutable item
      wrapEntries (← setItem wrapped key value) entries

end

mutual

/-- `to_plain`, which goes through a readonly dictionary without any method of it. -/
def toPlain : Payload Scalar → Except String (Payload Scalar)
  | .readonly entries => return .plain (← toPlainEntries entries)
  | .mutable entries => do
      callMethod entries "items"
      return .plain (← toPlainEntries entries)
  | .plain entries => return .plain (← toPlainEntries entries)
  | .list items => return .list (← toPlainItems items)
  | .tuple items => return .list (← toPlainItems items)
  | .scalar value => .ok (.scalar value)

def toPlainItems : List (Payload Scalar) → Except String (List (Payload Scalar))
  | [] => .ok []
  | item :: items => return (← toPlain item) :: (← toPlainItems items)

def toPlainEntries : Entries Scalar → Except String (Entries Scalar)
  | [] => .ok []
  | (key, item) :: entries => return (key, ← toPlain item) :: (← toPlainEntries entries)

end

end WorkflowStudio.Vars.Wrapping
