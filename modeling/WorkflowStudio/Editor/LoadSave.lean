import WorkflowStudio.Editor.Store

/-!
# Loads and saves in flight

`loadWorkflow` and `saveWorkflow` wait for the backend. Several requests can be
in flight, and their replies arrive in any order. A session keeps the requests
without a reply and a record of the replies that the backend has sent.
-/

set_option autoImplicit false

namespace WorkflowStudio.Editor

open Lib

namespace Store

/-- `loadWorkflow` up to the call of the backend. -/
def loadRequested (store : Store) : Store :=
  { store with flags := { store.flags with executionViewActive := false } }

/-- `loadWorkflow` from the reply on. -/
def loadReplied (registry : Registry) (store : Store) (id : Nat) (draft : Draft)
    (versionHash : Option String) : Store :=
  match WorkflowAdapter.fromJSON registry draft.snapshot with
  | (adapter, some _) => { store with adapter := adapter }
  | (adapter, none) =>
      { store with
        adapter := adapter
        versionHash := versionHash
        workflowId := some id
        workflowMetadata := draft.metadata
        pinData := loadedPinData draft.metadata }

def saveRequest (store : Store) : SaveRequest where
  workflowId := store.workflowId
  draft := store.buildFullSnapshot
  versionHash := store.versionHash

def saveRequested (store : Store) : Store :=
  { store with sent := store.sent ++ [store.saveRequest] }

def saveReplied (store : Store) (versionHash : Option String) : Store :=
  { store with
    versionHash := versionHash
    history := store.history.clear }

end Store

structure LoadReply where
  draft : Draft
  versionHash : Option String
  deriving DecidableEq

/-- What the backend sent for a workflow. -/
inductive Answer where
  | loaded (id : Nat) (reply : LoadReply)
  | saved (workflowId : Option Nat) (versionHash : Option String)
  deriving DecidableEq

structure RequestSession where
  store : Store
  loads : List Nat
  saves : List SaveRequest
  answers : List Answer

/-- The calls and the replies to them. A reply names the request in flight that
it answers; `none` is a failure of the call. -/
inductive RequestStep where
  | loadWorkflow (id : Nat)
  | loadReply (index : Nat) (reply : Option LoadReply)
  | saveWorkflow
  | saveReply (index : Nat) (reply : Option (Option String))

namespace RequestSession

def initial : RequestSession where
  store := Store.initial
  loads := []
  saves := []
  answers := []

def loadReply (registry : Registry) (session : RequestSession) (index : Nat)
    (reply : Option LoadReply) : RequestSession :=
  match session.loads[index]? with
  | none => session
  | some id =>
      let answered := { session with loads := session.loads.eraseIdx index }
      match reply with
      | none => answered
      | some reply =>
          { answered with
            store := session.store.loadReplied registry id reply.draft reply.versionHash
            answers := session.answers ++ [.loaded id reply] }

def saveReply (session : RequestSession) (index : Nat) (reply : Option (Option String)) :
    RequestSession :=
  match session.saves[index]? with
  | none => session
  | some request =>
      let answered := { session with saves := session.saves.eraseIdx index }
      match reply with
      | none => answered
      | some versionHash =>
          { answered with
            store := session.store.saveReplied versionHash
            answers := session.answers ++ [.saved request.workflowId versionHash] }

def step (registry : Registry) (session : RequestSession) : RequestStep → RequestSession
  | .loadWorkflow id =>
      { session with
        store := session.store.loadRequested
        loads := session.loads ++ [id] }
  | .loadReply index reply => session.loadReply registry index reply
  | .saveWorkflow =>
      { session with
        store := session.store.saveRequested
        saves := session.saves ++ [session.store.saveRequest] }
  | .saveReply index reply => session.saveReply index reply

end RequestSession

/-- The step ends a call of `loadWorkflow` with an error. -/
def RequestStep.loadThrows (registry : Registry) (session : RequestSession) : RequestStep → Bool
  | .loadReply index none => (session.loads[index]?).isSome
  | .loadReply index (some reply) =>
      (session.loads[index]?).isSome &&
        (WorkflowAdapter.fromJSON registry reply.draft.snapshot).2.isSome
  | _ => false

end WorkflowStudio.Editor
