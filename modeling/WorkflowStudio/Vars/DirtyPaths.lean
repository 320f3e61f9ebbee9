import Mathlib.Data.List.Sort

/-! The paths of the variables that changed. The wrappers report the path of every change,
and the paths are collapsed before what they lead to is cleaned. -/

set_option autoImplicit false

namespace WorkflowStudio.Vars

/-- What the code takes from Python: the order in which a set is iterated. -/
structure Interpreter where
  order : List String → List String
  reorders : ∀ paths, (order paths).Perm paths

/-- `_track_var_path`: a path is cut at its first index. -/
def trackVarPath (dirtyPaths : List String) (path : String) : List String :=
  let path := String.ofList (path.toList.takeWhile (· ≠ '['))
  if path ∈ dirtyPaths then dirtyPaths else dirtyPaths ++ [path]

def depth (path : String) : Nat := path.toList.count '.'

/-- The path is the existing one or lies below it. -/
def liesBelow (path existing : String) : Bool :=
  path == existing ||
    (existing.toList.isPrefixOf path.toList &&
      match path.toList.drop existing.toList.length with
      | next :: _ => next == '.' || next == '['
      | [] => false)

def addPath (collapsed : List String) (path : String) : List String :=
  if collapsed.any (liesBelow path) then collapsed else collapsed ++ [path]

/-- `_collapse_dirty_paths`. -/
def collapseDirtyPaths (interpreter : Interpreter) (paths : List String) : List String :=
  if "" ∈ paths then [""]
  else ((interpreter.order paths).insertionSort fun left right => depth left ≤ depth right).foldl
    addPath []

end WorkflowStudio.Vars
