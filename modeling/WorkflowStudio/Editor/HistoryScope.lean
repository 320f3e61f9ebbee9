import WorkflowStudio.Editor.Store

/-!
# The graph for which an action was recorded

A history beside that of the store which keeps, in place of each command, the
number of the graph that was in the editor when the command was recorded. Every
load, preview and reset puts a graph with a new number in the editor; a preview
that ends with the original restored brings the old graph back.
-/

set_option autoImplicit false

namespace WorkflowStudio.Editor

open Lib Reversal

/-- The stacks of the history manager, with the number of a graph for each command. -/
structure Scopes where
  undoStack : List (List Nat)
  redoStack : List (List Nat)
  currentBatch : Option (List Nat)

namespace Scopes

def empty : Scopes where
  undoStack := []
  redoStack := []
  currentBatch := none

def pushEntry (scopes : Scopes) (entry : List Nat) : Scopes :=
  let undoStack := entry :: scopes.undoStack
  { scopes with
    undoStack := if HistoryManager.maxSize < undoStack.length then undoStack.dropLast
      else undoStack
    redoStack := [] }

def push (scope : Nat) (scopes : Scopes) : Scopes :=
  match scopes.currentBatch with
  | some batch => { scopes with currentBatch := some (batch ++ [scope]) }
  | none => scopes.pushEntry [scope]

def startBatch (scopes : Scopes) : Scopes := { scopes with currentBatch := some [] }

def commitBatch (scopes : Scopes) : Scopes :=
  match scopes.currentBatch with
  | none | some [] => { scopes with currentBatch := none }
  | some batch => { scopes with currentBatch := none }.pushEntry batch

def clear (scopes : Scopes) : Scopes := { scopes with undoStack := [], redoStack := [] }

def undo (scopes : Scopes) : Scopes :=
  match scopes.undoStack with
  | [] => scopes
  | entry :: rest => { scopes with undoStack := rest, redoStack := entry :: scopes.redoStack }

def redo (scopes : Scopes) : Scopes :=
  match scopes.redoStack with
  | [] => scopes
  | entry :: rest => { scopes with undoStack := entry :: scopes.undoStack, redoStack := rest }

end Scopes

/-- `scope` is the number of the graph in the editor and `covered` that of the
graph under an open preview. -/
structure ScopedSession where
  store : Store
  scopes : Scopes
  scope : Nat
  covered : Option Nat
  fresh : Nat

namespace ScopedSession

def initial : ScopedSession where
  store := Store.initial
  scopes := Scopes.empty
  scope := 0
  covered := none
  fresh := 1

/-- What an operation does to the history of numbers. -/
def record (registry : Registry) (session : ScopedSession) : Operation → Scopes
  | .perform action => (action.run registry session.store.adapter).2.foldl
      (fun scopes _ => scopes.push session.scope) session.scopes
  | .recordMoveNodes nodeMoves =>
      if nodeMoves = [] then session.scopes else session.scopes.push session.scope
  | .beginBatch => session.scopes.startBatch
  | .endBatch _ => session.scopes.commitBatch
  | .undo => session.scopes.undo
  | .redo => session.scopes.redo
  | .saveWorkflow (some _) => session.scopes.clear
  | _ => session.scopes

def replaced (session : ScopedSession) : ScopedSession :=
  { session with scope := session.fresh, fresh := session.fresh + 1 }

def covers (session : ScopedSession) : ScopedSession :=
  { session with
    scope := session.fresh
    covered := some (session.covered.getD session.scope)
    fresh := session.fresh + 1 }

def uncovers (session : ScopedSession) (restoreOriginal : Bool) : ScopedSession :=
  { session with
    scope := if restoreOriginal then session.covered.getD session.scope else session.scope
    covered := none }

/-- The number of the graph that an operation leaves in the editor. -/
def renumber (session : ScopedSession) : Operation → ScopedSession
  | .loadWorkflow _ _ _ | .fromJSON _ | .clear => session.replaced
  | .startHistoryPreview _ _ | .startExecutionView _ _ => session.covers
  | .endHistoryPreview restoreOriginal =>
      if session.store.historyPreview.active then session.uncovers restoreOriginal else session
  | .endExecutionView restoreOriginal =>
      if session.store.executionView.active then session.uncovers restoreOriginal else session
  | _ => session

def step (registry : Registry) (session : ScopedSession) (operation : Operation) :
    ScopedSession :=
  { session.renumber operation with
    scopes := session.record registry operation
    store := operation.apply registry session.store }

end ScopedSession

end WorkflowStudio.Editor
