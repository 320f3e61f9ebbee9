import Mathlib.Data.Setoid.Basic

/-! Lists of commands that are undone in reverse and redone in order, over
states that are compared up to an equivalence. Whether a command can be taken
back is a property of the state it leaves, and a list of commands is taken back
when each command is taken back from its own state. -/

set_option autoImplicit false

namespace Lib.Reversal

variable {State Command : Type}

def undoAll (undo : Command → State → State) (commands : List Command) (state : State) : State :=
  commands.foldr undo state

def redoAll (redo : Command → State → State) (commands : List Command) (state : State) : State :=
  commands.foldl (fun reached command => redo command reached) state

theorem undoAll_concat (undo : Command → State → State) (commands : List Command)
    (command : Command) (state : State) :
    undoAll undo (commands ++ [command]) state = undoAll undo commands (undo command state) := by
  simp only [undoAll, List.foldr_append, List.foldr_cons, List.foldr_nil]

theorem redoAll_concat (redo : Command → State → State) (commands : List Command)
    (command : Command) (state : State) :
    redoAll redo (commands ++ [command]) state = redo command (redoAll redo commands state) := by
  simp only [redoAll, List.foldl_append, List.foldl_cons, List.foldl_nil]

variable [same : Setoid State]

/-- From every state like the one after, the command leads to one like the one before. -/
def Leads (run : Command → State → State) (command : Command) (after before : State) : Prop :=
  ∀ reached, reached ≈ after → run command reached ≈ before

/-- Commands performed one after the other, each of which can be taken back
from the state it leaves. -/
inductive Performed (undo : Command → State → State) : State → List Command → State → Prop where
  | nil {state} : Performed undo state [] state
  | cons {before between after command commands} :
      Leads undo command between before → Performed undo between commands after →
      Performed undo before (command :: commands) after

theorem Performed.single {undo : Command → State → State} {before after : State}
    {command : Command} (leads : Leads undo command after before) :
    Performed undo before [command] after :=
  .cons leads .nil

theorem Performed.append {undo : Command → State → State} {before between after : State}
    {first second : List Command} (left : Performed undo before first between)
    (right : Performed undo between second after) :
    Performed undo before (first ++ second) after := by
  induction left with
  | nil => exact right
  | cons leads _ ih => exact .cons leads (ih right)

theorem Performed.takenBack {undo : Command → State → State} {before after : State}
    {commands : List Command} (performed : Performed undo before commands after) :
    Leads (undoAll undo) commands after before := by
  induction performed with
  | nil => exact fun _ reached => reached
  | cons leads _ ih => exact fun _ reached => leads _ (ih _ reached)

/-- Commands each of which can be redone from the state its undo leaves, the
last one being undone first. -/
inductive Replays (undo redo : Command → State → State) : List Command → State → Prop where
  | nil {state} : Replays undo redo [] state
  | concat {commands command state} :
      Leads redo command (undo command state) state →
      Replays undo redo commands (undo command state) →
      Replays undo redo (commands ++ [command]) state

theorem Replays.redone {undo redo : Command → State → State} {commands : List Command}
    {state : State} (replays : Replays undo redo commands state) :
    redoAll redo commands (undoAll undo commands state) ≈ state := by
  induction replays with
  | nil => exact same.refl _
  | concat leads _ ih =>
      rw [undoAll_concat, redoAll_concat]
      exact leads _ ih

/-!
## Rewinding to a base

The states on the way back may differ from those on the way forth in what a
command still pending is going to discard. How much they may differ is a
relation for each list of pending commands, the latest command first.
-/

inductive Rewinds (undo : Command → State → State) (near : List Command → State → State → Prop)
    (base : State) : List Command → State → Prop where
  | start {state} : near [] state base → Rewinds undo near base [] state
  | push {pending command before after} : Rewinds undo near base pending before →
      (∀ reached, near (command :: pending) reached after →
        near pending (undo command reached) before) →
      Rewinds undo near base (command :: pending) after

/-- A command that leads back up to the equivalence of states also leads back
up to what may differ. -/
structure Nearness (undo : Command → State → State)
    (near : List Command → State → State → Prop) : Prop where
  refl : ∀ pending state, near pending state state
  trans : ∀ {pending first second third}, near pending first second →
    near pending second third → near pending first third
  leads : ∀ {pending command after before}, Leads undo command after before →
    ∀ reached, near (command :: pending) reached after → near pending (undo command reached) before

section Rewinding

variable {undo : Command → State → State} {near : List Command → State → State → Prop}
  (nearness : Nearness undo near) {base : State} {pending : List Command}

include nearness

theorem Rewinds.relocate {state other : State} (rewinds : Rewinds undo near base pending state)
    (close : near pending other state) : Rewinds undo near base pending other := by
  cases rewinds with
  | start based => exact .start (nearness.trans close based)
  | push before back => exact .push before fun reached same => back reached (nearness.trans same close)

theorem Rewinds.performed {before after : State} {commands : List Command}
    (rewinds : Rewinds undo near base pending before)
    (performed : Performed undo before commands after) :
    Rewinds undo near base (commands.reverse ++ pending) after := by
  induction performed generalizing pending with
  | nil => exact rewinds
  | cons leads _ ih =>
      rw [List.reverse_cons, List.append_assoc]
      exact ih (.push rewinds (nearness.leads leads))

theorem Rewinds.undone {commands : List Command} {state : State}
    (rewinds : Rewinds undo near base (commands.reverse ++ pending) state) :
    Rewinds undo near base pending (undoAll undo commands state) := by
  induction commands generalizing pending with
  | nil => exact rewinds
  | cons command rest ih =>
      rw [List.reverse_cons, List.append_assoc] at rewinds
      have later := ih rewinds
      cases later with
      | push before back =>
          exact before.relocate nearness (back _ (nearness.refl _ _))

end Rewinding

end Lib.Reversal
