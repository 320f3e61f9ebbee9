import WorkflowStudio.Editor.LoadSave

/-!
# Unsaved changes

The flag that tells whether there is something to save, and a session in which
the user edits while saves are on their way. A save has three moments: the call,
the moment at which the backend accepts the snapshot, and the arrival of the
reply.
-/

set_option autoImplicit false

namespace WorkflowStudio.Editor

open Lib

def HistoryManager.canUndo (history : HistoryManager) : Bool := !history.undoStack.isEmpty

def Store.hasUnsavedChanges (store : Store) : Bool := store.history.canUndo

/-- Equality of drafts up to the order of nodes, connections and metadata keys. -/
structure Draft.SameUpToOrder (left right : Draft) : Prop where
  nodes : left.snapshot.nodes.Perm right.snapshot.nodes
  connections : left.snapshot.connections.Perm right.snapshot.connections
  metadata : ∀ key, left.metadata.get? key = right.metadata.get? key

/-- The calls of `saveWorkflow` in flight are kept with the store in which they
were made. `stored` is the draft most recently loaded from the backend or
accepted by it. -/
structure SaveSession where
  store : Store
  requested : List Store
  accepted : List (Option String)
  stored : Option Draft

/-- `lose` is a reply that never arrives although the snapshot was accepted. -/
inductive SaveStep where
  | edit (operation : Operation)
  | saveWorkflow
  | accept (index : Nat) (versionHash : Option String)
  | refuse (index : Nat)
  | reply (index : Nat)
  | lose (index : Nat)

/-- The draft that the backend holds after an operation that talks to it at once. -/
def Operation.stores (store : Store) (stored : Option Draft) : Operation → Option Draft
  | .loadWorkflow _ draft _ => some draft
  | .saveWorkflow (some _) => some store.buildFullSnapshot
  | _ => stored

namespace SaveSession

def initial : SaveSession where
  store := Store.initial
  requested := []
  accepted := []
  stored := none

def step (registry : Registry) (session : SaveSession) : SaveStep → SaveSession
  | .edit operation =>
      { session with
        store := operation.apply registry session.store
        stored := operation.stores session.store session.stored }
  | .saveWorkflow =>
      { session with
        store := session.store.saveRequested
        requested := session.requested ++ [session.store] }
  | .accept index versionHash =>
      match session.requested[index]? with
      | none => session
      | some sender =>
          { session with
            requested := session.requested.eraseIdx index
            accepted := session.accepted ++ [versionHash]
            stored := some sender.saveRequest.draft }
  | .refuse index => { session with requested := session.requested.eraseIdx index }
  | .reply index =>
      match session.accepted[index]? with
      | none => session
      | some versionHash =>
          { session with
            accepted := session.accepted.eraseIdx index
            store := session.store.saveReplied versionHash }
  | .lose index => { session with accepted := session.accepted.eraseIdx index }

end SaveSession

end WorkflowStudio.Editor
