import WorkflowStudio.Editor.HistoryScope
import WorkflowStudio.Editor.CoverProperties
import WorkflowStudio.Editor.PendingProperties

/-! Undo and redo run the commands that are on the stacks, for whatever graph
they were recorded. The stacks outlive loads and previews, so that a command
stays with its own graph only if the history is empty when the graph is replaced
and rests while a preview covers the graph. -/

set_option autoImplicit false

namespace WorkflowStudio.Editor

open Lib Reversal GuardedRun

/-!
## Locality
-/

/-- Every command that an undo or redo runs was recorded for the graph in the
editor, or leaves that graph as it is. -/
def ScopedSession.Local (registry : Registry) (session : ScopedSession) : Operation → Prop
  | .undo => ∀ entry rest scopes others, session.store.history.undoStack = entry :: rest →
      session.scopes.undoStack = scopes :: others →
      ∀ earlier command later, entry.commands = earlier ++ command :: later →
        scopes[earlier.length]? = some session.scope ∨
        command.undo registry (undoAll (Command.undo registry) later session.store.adapter) ≈
          undoAll (Command.undo registry) later session.store.adapter
  | .redo => ∀ entry rest scopes others, session.store.history.redoStack = entry :: rest →
      session.scopes.redoStack = scopes :: others →
      ∀ earlier command later, entry.commands = earlier ++ command :: later →
        scopes[earlier.length]? = some session.scope ∨
        command.redo registry (redoAll (Command.redo registry) earlier session.store.adapter) ≈
          redoAll (Command.redo registry) earlier session.store.adapter
  | _ => True

/-- Nothing is recorded. -/
def HistoryManager.Blank (history : HistoryManager) : Prop :=
  history.undoStack = [] ∧ history.redoStack = [] ∧ history.batched = []

/-- The graph is replaced for good only while nothing is recorded, and a graph
under a preview is neither edited nor taken back. -/
def Operation.Scoped (registry : Registry) (store : Store) : Operation → Prop
  | .loadWorkflow _ _ _ | .fromJSON _ | .clear => store.history.Blank
  | .endHistoryPreview restoreOriginal =>
      restoreOriginal = true ∨ store.historyPreview.active = false ∨ store.history.Blank
  | .endExecutionView restoreOriginal =>
      restoreOriginal = true ∨ store.executionView.active = false ∨ store.history.Blank
  | .perform action => store.Idle ∨ (action.run registry store.adapter).2 = []
  | .recordMoveNodes nodeMoves => store.Idle ∨ nodeMoves = []
  | .undo => store.Idle ∨ store.history.undoStack = []
  | .redo => store.Idle ∨ store.history.redoStack = []
  | _ => True

/-!
## Histories of numbers
-/

/-- One number for each command. -/
structure Scopes.InStep (scopes : Scopes) (history : HistoryManager) : Prop where
  undoStack : scopes.undoStack.map List.length =
    history.undoStack.map fun entry => entry.commands.length
  redoStack : scopes.redoStack.map List.length =
    history.redoStack.map fun entry => entry.commands.length
  currentBatch : scopes.currentBatch.map List.length = history.currentBatch.map List.length

/-- Every command was recorded for the given graph. -/
structure Scopes.For (scopes : Scopes) (home : Nat) : Prop where
  undoStack : ∀ entry ∈ scopes.undoStack, ∀ scope ∈ entry, scope = home
  redoStack : ∀ entry ∈ scopes.redoStack, ∀ scope ∈ entry, scope = home
  currentBatch : ∀ scope ∈ scopes.currentBatch.getD [], scope = home

namespace Scopes

variable {scopes : Scopes} {history : HistoryManager} {home : Nat}

theorem InStep.blank (inStep : scopes.InStep history) (blank : history.Blank) :
    scopes.undoStack = [] ∧ scopes.redoStack = [] ∧ scopes.currentBatch.getD [] = [] := by
  obtain ⟨undoEmpty, redoEmpty, batchEmpty⟩ := blank
  refine ⟨?_, ?_, ?_⟩
  · have lengths := inStep.undoStack
    rw [undoEmpty] at lengths
    exact List.map_eq_nil_iff.mp lengths
  · have lengths := inStep.redoStack
    rw [redoEmpty] at lengths
    exact List.map_eq_nil_iff.mp lengths
  · have lengths := inStep.currentBatch
    unfold HistoryManager.batched at batchEmpty
    cases opened : scopes.currentBatch with
    | none => rfl
    | some batch =>
        cases commands : history.currentBatch with
        | none =>
            rw [opened, commands] at lengths
            cases lengths
        | some pushed =>
            rw [commands, Option.getD_some] at batchEmpty
            rw [opened, commands, batchEmpty] at lengths
            exact List.eq_nil_of_length_eq_zero (Option.some.inj lengths)

theorem For.of_blank (blank : scopes.undoStack = [] ∧ scopes.redoStack = [] ∧
    scopes.currentBatch.getD [] = []) (home : Nat) : scopes.For home := by
  obtain ⟨undoEmpty, redoEmpty, batchEmpty⟩ := blank
  refine ⟨fun _ member => ?_, fun _ member => ?_, fun _ member => ?_⟩
  · rw [undoEmpty] at member
    cases member
  · rw [redoEmpty] at member
    cases member
  · rw [batchEmpty] at member
    cases member

/-!
### Pushes
-/

theorem InStep.pushEntry (inStep : scopes.InStep history) {entry : HistoryEntry}
    {added : List Nat} (length : added.length = entry.commands.length) :
    (scopes.pushEntry added).InStep (history.pushEntry entry) := by
  have lengths : (added :: scopes.undoStack).map List.length =
      (entry :: history.undoStack).map fun entry => entry.commands.length := by
    rw [List.map_cons, List.map_cons, length, inStep.undoStack]
  have size : (added :: scopes.undoStack).length = (entry :: history.undoStack).length := by
    have counted := congrArg List.length lengths
    rwa [List.length_map, List.length_map] at counted
  refine ⟨?_, rfl, inStep.currentBatch⟩
  simp only [Scopes.pushEntry, HistoryManager.pushEntry, size]
  split
  · rw [List.map_dropLast, List.map_dropLast, lengths]
  · exact lengths

theorem For.pushEntry (recorded : scopes.For home) {added : List Nat}
    (here : ∀ scope ∈ added, scope = home) : (scopes.pushEntry added).For home := by
  refine ⟨fun entry member => ?_, fun _ member => ?_, recorded.currentBatch⟩
  · have listed : entry ∈ added :: scopes.undoStack := by
      simp only [Scopes.pushEntry] at member
      split at member
      · exact (List.dropLast_sublist _).subset member
      · exact member
    rcases List.mem_cons.mp listed with rfl | older
    · exact here
    · exact recorded.undoStack entry older
  · cases member

theorem InStep.push (inStep : scopes.InStep history) (scope : Nat) (command : Command) :
    (scopes.push scope).InStep (history.push command) := by
  have batches := inStep.currentBatch
  unfold Scopes.push HistoryManager.push
  cases opened : history.currentBatch with
  | none =>
      rw [opened, Option.map_none, Option.map_eq_none_iff] at batches
      rw [batches]
      exact inStep.pushEntry rfl
  | some commands =>
      rw [opened] at batches
      cases numbers : scopes.currentBatch with
      | none =>
          rw [numbers] at batches
          cases batches
      | some batch =>
          rw [numbers] at batches
          refine ⟨inStep.undoStack, inStep.redoStack, ?_⟩
          rw [Option.map_some, Option.map_some, Option.some.injEq] at batches
          simp only [Option.map_some, List.length_append, batches, List.length_cons,
            List.length_nil]

theorem For.push (recorded : scopes.For home) : (scopes.push home).For home := by
  unfold Scopes.push
  cases opened : scopes.currentBatch with
  | none => exact recorded.pushEntry fun scope member => List.mem_singleton.mp member
  | some batch =>
      refine ⟨recorded.undoStack, recorded.redoStack, fun scope member => ?_⟩
      rcases List.mem_append.mp member with older | here
      · refine recorded.currentBatch scope ?_
        rw [opened]
        exact older
      · exact List.mem_singleton.mp here

theorem InStep.pushAll (inStep : scopes.InStep history) (scope : Nat) (commands : List Command) :
    (commands.foldl (fun scopes _ => scopes.push scope) scopes).InStep
      (commands.foldl HistoryManager.push history) := by
  induction commands generalizing scopes history with
  | nil => exact inStep
  | cons command rest ih => exact ih (inStep.push scope command)

theorem For.pushAll (recorded : scopes.For home) (commands : List Command) :
    (commands.foldl (fun scopes _ => scopes.push home) scopes).For home := by
  induction commands generalizing scopes with
  | nil => exact recorded
  | cons command rest ih => exact ih recorded.push

/-!
### The other operations of the history
-/

theorem InStep.startBatch (inStep : scopes.InStep history) :
    scopes.startBatch.InStep history.startBatch :=
  ⟨inStep.undoStack, inStep.redoStack, rfl⟩

theorem For.startBatch (recorded : scopes.For home) : scopes.startBatch.For home :=
  ⟨recorded.undoStack, recorded.redoStack, fun _ member => by cases member⟩

theorem InStep.commitBatch (inStep : scopes.InStep history) (description : String) :
    scopes.commitBatch.InStep (history.commitBatch description) := by
  have batches := inStep.currentBatch
  have closed : ({ scopes with currentBatch := none } : Scopes).InStep
      { history with currentBatch := none } := ⟨inStep.undoStack, inStep.redoStack, rfl⟩
  unfold Scopes.commitBatch HistoryManager.commitBatch
  cases opened : history.currentBatch with
  | none =>
      rw [opened, Option.map_none, Option.map_eq_none_iff] at batches
      rw [batches]
      exact closed
  | some commands =>
      rw [opened] at batches
      cases numbers : scopes.currentBatch with
      | none =>
          rw [numbers] at batches
          cases batches
      | some batch =>
          rw [numbers] at batches
          cases batch with
          | nil =>
              cases commands with
              | nil => exact closed
              | cons command rest => cases batches
          | cons scope others =>
              cases commands with
              | nil => cases batches
              | cons command rest => exact closed.pushEntry (Option.some.inj batches)

theorem For.commitBatch (recorded : scopes.For home) : scopes.commitBatch.For home := by
  have closed : ({ scopes with currentBatch := none } : Scopes).For home :=
    ⟨recorded.undoStack, recorded.redoStack, fun _ member => by cases member⟩
  unfold Scopes.commitBatch
  cases opened : scopes.currentBatch with
  | none => exact closed
  | some batch =>
      cases batch with
      | nil => exact closed
      | cons scope others =>
          refine closed.pushEntry fun scope member => recorded.currentBatch scope ?_
          rw [opened]
          exact member

theorem For.undo (recorded : scopes.For home) : scopes.undo.For home := by
  unfold Scopes.undo
  cases stack : scopes.undoStack with
  | nil => exact recorded
  | cons entry rest =>
      have all := recorded.undoStack
      rw [stack] at all
      refine ⟨fun other member => all other (List.mem_cons_of_mem _ member),
        fun other member => ?_, recorded.currentBatch⟩
      rcases List.mem_cons.mp member with rfl | older
      · exact all other List.mem_cons_self
      · exact recorded.redoStack other older

theorem For.redo (recorded : scopes.For home) : scopes.redo.For home := by
  unfold Scopes.redo
  cases stack : scopes.redoStack with
  | nil => exact recorded
  | cons entry rest =>
      have all := recorded.redoStack
      rw [stack] at all
      refine ⟨fun other member => ?_, fun other member => all other (List.mem_cons_of_mem _ member),
        recorded.currentBatch⟩
      rcases List.mem_cons.mp member with rfl | older
      · exact all other List.mem_cons_self
      · exact recorded.undoStack other older

theorem For.clear (recorded : scopes.For home) : scopes.clear.For home :=
  ⟨fun _ member => (by cases member), fun _ member => (by cases member), recorded.currentBatch⟩

end Scopes

theorem Scopes.InStep.undo {scopes : Scopes} {store : Store}
    (inStep : scopes.InStep store.history) (registry : Registry) :
    scopes.undo.InStep (store.undo registry).history := by
  have lengths := inStep.undoStack
  unfold Scopes.undo Store.undo
  cases stack : store.history.undoStack with
  | nil =>
      rw [stack, List.map_nil, List.map_eq_nil_iff] at lengths
      rw [lengths]
      exact inStep
  | cons entry rest =>
      rw [stack] at lengths
      cases numbers : scopes.undoStack with
      | nil =>
          rw [numbers] at lengths
          cases lengths
      | cons added others =>
          rw [numbers, List.map_cons, List.map_cons, List.cons.injEq] at lengths
          refine ⟨lengths.2, ?_, inStep.currentBatch⟩
          rw [List.map_cons, List.map_cons, lengths.1, inStep.redoStack]

theorem Scopes.InStep.redo {scopes : Scopes} {store : Store}
    (inStep : scopes.InStep store.history) (registry : Registry) :
    scopes.redo.InStep (store.redo registry).history := by
  have lengths := inStep.redoStack
  unfold Scopes.redo Store.redo
  cases stack : store.history.redoStack with
  | nil =>
      rw [stack, List.map_nil, List.map_eq_nil_iff] at lengths
      rw [lengths]
      exact inStep
  | cons entry rest =>
      rw [stack] at lengths
      cases numbers : scopes.redoStack with
      | nil =>
          rw [numbers] at lengths
          cases lengths
      | cons added others =>
          rw [numbers, List.map_cons, List.map_cons, List.cons.injEq] at lengths
          refine ⟨?_, lengths.2, inStep.currentBatch⟩
          rw [List.map_cons, List.map_cons, lengths.1, inStep.undoStack]

/-!
## Sessions
-/

/-- One preview at most is open, and it is the one that covers the graph. -/
structure ScopedSession.Watched (session : ScopedSession) : Prop where
  inStep : session.scopes.InStep session.store.history
  covered : session.covered = none ↔ session.store.Idle
  one : session.store.historyPreview.active = true → session.store.executionView.active = false

section Step

variable {registry : Registry} {session : ScopedSession} {operation : Operation}

/-- The numbers keep step with the history, whatever is done. -/
theorem ScopedSession.Watched.recorded (watched : session.Watched) (operation : Operation) :
    (session.record registry operation).InStep
      (operation.apply registry session.store).history := by
  have inStep := watched.inStep
  cases operation with
  | perform action => exact inStep.pushAll session.scope _
  | recordMoveNodes nodeMoves =>
      simp only [ScopedSession.record, Operation.apply]
      split
      · exact inStep
      · exact inStep.push session.scope _
  | beginBatch => exact inStep.startBatch
  | endBatch description => exact inStep.commitBatch description
  | undo => exact inStep.undo registry
  | redo => exact inStep.redo registry
  | saveWorkflow answer =>
      cases answer with
      | none => exact inStep
      | some versionHash => exact ⟨rfl, rfl, inStep.currentBatch⟩
  | adapterAddNodeWithId type position forcedId config =>
      simp only [ScopedSession.record, Operation.apply]
      split <;> exact inStep
  | pinNodeData nodeId pinValue =>
      simp only [ScopedSession.record, Operation.apply, Store.pinNodeData]
      split <;> exact inStep
  | loadWorkflow id draft versionHash =>
      simp only [ScopedSession.record, Operation.apply, Store.loadWorkflow]
      split <;> exact inStep
  | startHistoryPreview revisionId snapshot =>
      simp only [ScopedSession.record, Operation.apply, Store.startHistoryPreview]
      split <;> exact inStep
  | startExecutionView runId snapshot =>
      simp only [ScopedSession.record, Operation.apply, Store.startExecutionView]
      split <;> exact inStep
  | _ => exact inStep

theorem startHistoryPreview_views (registry : Registry) (store : Store) (revisionId : Option Nat)
    (snapshot : Snapshot) :
    (store.startHistoryPreview registry revisionId snapshot).historyPreview.active = true ∧
      (store.startHistoryPreview registry revisionId snapshot).executionView.active = false := by
  unfold Store.startHistoryPreview
  cases viewing : store.executionView.active with
  | true => exact ⟨rfl, rfl⟩
  | false => exact ⟨rfl, viewing⟩

theorem startExecutionView_views (registry : Registry) (store : Store) (runId : Option Nat)
    (snapshot : Snapshot) :
    (store.startExecutionView registry runId snapshot).historyPreview.active = false ∧
      (store.startExecutionView registry runId snapshot).executionView.active = true := by
  unfold Store.startExecutionView
  cases viewing : store.historyPreview.active with
  | true => exact ⟨rfl, rfl⟩
  | false => exact ⟨viewing, rfl⟩

/-- An operation that is no preview covers nothing and uncovers nothing. -/
theorem renumber_covered (plain : operation.isPreview = false) :
    (session.renumber operation).covered = session.covered := by
  cases operation with
  | startHistoryPreview revisionId snapshot => cases plain
  | endHistoryPreview restoreOriginal => cases plain
  | startExecutionView runId snapshot => cases plain
  | endExecutionView restoreOriginal => cases plain
  | _ => rfl

theorem ScopedSession.Watched.step (watched : session.Watched) (registry : Registry)
    (operation : Operation) : (session.step registry operation).Watched := by
  suffices views : ((session.step registry operation).covered = none ↔
      (session.step registry operation).store.Idle) ∧
      ((session.step registry operation).store.historyPreview.active = true →
        (session.step registry operation).store.executionView.active = false) from
    ⟨watched.recorded operation, views.1, views.2⟩
  cases preview : operation.isPreview with
  | false =>
      obtain ⟨history, execution⟩ := Operation.apply_views registry session.store operation preview
      constructor
      · simp only [ScopedSession.step, renumber_covered preview, Store.Idle, history, execution]
        exact watched.covered
      · simp only [ScopedSession.step, history, execution]
        exact watched.one
  | true =>
      cases operation with
      | startHistoryPreview revisionId snapshot =>
          obtain ⟨shown, hidden⟩ :=
            startHistoryPreview_views registry session.store revisionId snapshot
          refine ⟨⟨fun none => (by cases none), fun idle => ?_⟩, fun _ => hidden⟩
          exact absurd (shown.symm.trans idle.1) (by decide)
      | startExecutionView runId snapshot =>
          obtain ⟨hidden, shown⟩ := startExecutionView_views registry session.store runId snapshot
          refine ⟨⟨fun none => (by cases none), fun idle => ?_⟩, fun opened => ?_⟩
          · exact absurd (shown.symm.trans idle.2) (by decide)
          · exact absurd (hidden.symm.trans opened) (by decide)
      | endHistoryPreview restoreOriginal =>
          refine ⟨?_, fun opened => absurd opened Bool.false_ne_true⟩
          cases active : session.store.historyPreview.active with
          | true =>
              simp only [ScopedSession.step, ScopedSession.renumber, active, ↓reduceIte]
              exact ⟨fun _ => ⟨rfl, watched.one active⟩, fun _ => rfl⟩
          | false =>
              simp only [ScopedSession.step, ScopedSession.renumber, active, Bool.false_eq_true,
                ↓reduceIte]
              exact watched.covered.trans ⟨fun idle => ⟨rfl, idle.2⟩, fun idle => ⟨active, idle.2⟩⟩
      | endExecutionView restoreOriginal =>
          refine ⟨?_, fun _ => rfl⟩
          cases active : session.store.executionView.active with
          | true =>
              have closed : session.store.historyPreview.active = false := by
                cases opened : session.store.historyPreview.active with
                | false => rfl
                | true => exact absurd (active.symm.trans (watched.one opened)) (by decide)
              simp only [ScopedSession.step, ScopedSession.renumber, active, ↓reduceIte]
              exact ⟨fun _ => ⟨closed, rfl⟩, fun _ => rfl⟩
          | false =>
              simp only [ScopedSession.step, ScopedSession.renumber, active, Bool.false_eq_true,
                ↓reduceIte]
              exact watched.covered.trans ⟨fun idle => ⟨idle.1, rfl⟩, fun idle => ⟨idle.1, active⟩⟩
      | _ => cases preview

/-- The graph that is in the editor once no preview covers it. -/
def ScopedSession.home (session : ScopedSession) : Nat := session.covered.getD session.scope

theorem ScopedSession.Watched.home_eq (watched : session.Watched) (idle : session.store.Idle) :
    session.home = session.scope := by
  simp only [ScopedSession.home, watched.covered.mpr idle, Option.getD_none]

theorem ScopedSession.Watched.recordedFor (watched : session.Watched)
    (recorded : session.scopes.For session.home)
    (resting : operation.Scoped registry session.store) :
    (session.step registry operation).scopes.For (session.step registry operation).home := by
  have blank : session.store.history.Blank → ∀ home, session.scopes.For home := fun empty =>
    Scopes.For.of_blank (watched.inStep.blank empty)
  cases operation with
  | loadWorkflow id draft versionHash => exact blank resting _
  | fromJSON snapshot => exact blank resting _
  | clear => exact blank resting _
  | startHistoryPreview revisionId snapshot => exact recorded
  | startExecutionView runId snapshot => exact recorded
  | endHistoryPreview restoreOriginal =>
      cases active : session.store.historyPreview.active with
      | false =>
          simp only [ScopedSession.step, ScopedSession.renumber, active, Bool.false_eq_true,
            ↓reduceIte]
          exact recorded
      | true =>
          simp only [ScopedSession.step, ScopedSession.renumber, active, ↓reduceIte]
          rcases resting with restored | closed | empty
          · simp only [ScopedSession.home, ScopedSession.uncovers, restored, ↓reduceIte]
            exact recorded
          · exact absurd (active.symm.trans closed) (by decide)
          · exact blank empty _
  | endExecutionView restoreOriginal =>
      cases active : session.store.executionView.active with
      | false =>
          simp only [ScopedSession.step, ScopedSession.renumber, active, Bool.false_eq_true,
            ↓reduceIte]
          exact recorded
      | true =>
          simp only [ScopedSession.step, ScopedSession.renumber, active, ↓reduceIte]
          rcases resting with restored | closed | empty
          · simp only [ScopedSession.home, ScopedSession.uncovers, restored, ↓reduceIte]
            exact recorded
          · exact absurd (active.symm.trans closed) (by decide)
          · exact blank empty _
  | perform action =>
      change ((action.run registry session.store.adapter).2.foldl
        (fun scopes _ => scopes.push session.scope) session.scopes).For session.home
      rcases resting with idle | nothing
      · rw [watched.home_eq idle] at recorded ⊢
        exact recorded.pushAll _
      · rw [nothing]
        exact recorded
  | recordMoveNodes nodeMoves =>
      change (if nodeMoves = [] then session.scopes else
        session.scopes.push session.scope).For session.home
      rcases resting with idle | nothing
      · rw [watched.home_eq idle] at recorded ⊢
        split
        · exact recorded
        · exact recorded.push
      · rw [if_pos nothing]
        exact recorded
  | beginBatch => exact recorded.startBatch
  | endBatch description => exact recorded.commitBatch
  | undo => exact recorded.undo
  | redo => exact recorded.redo
  | saveWorkflow answer =>
      cases answer with
      | none => exact recorded
      | some versionHash => exact recorded.clear
  | _ => exact recorded

/-- The number of a command, in a list of numbers that are all the same. -/
theorem number_eq {Item : Type} {numbers : List Nat} {items earlier later : List Item} {item : Item}
    {home : Nat} (length : numbers.length = items.length)
    (same : ∀ number ∈ numbers, number = home) (split : items = earlier ++ item :: later) :
    numbers[earlier.length]? = some home := by
  have inside : earlier.length < numbers.length := by
    rw [length, split, List.length_append, List.length_cons]
    omega
  rw [List.getElem?_eq_getElem inside]
  exact congrArg some (same _ (List.getElem_mem inside))

theorem ScopedSession.Watched.isLocal (watched : session.Watched)
    (recorded : session.scopes.For session.home)
    (resting : operation.Scoped registry session.store) : session.Local registry operation := by
  cases operation with
  | undo =>
      intro entry rest scopes others stack numbers earlier command later split
      rcases resting with idle | empty
      · have lengths := watched.inStep.undoStack
        have all := recorded.undoStack
        rw [stack, numbers, List.map_cons, List.map_cons, List.cons.injEq] at lengths
        rw [numbers] at all
        rw [watched.home_eq idle] at all
        exact .inl (number_eq lengths.1 (all scopes List.mem_cons_self) split)
      · rw [stack] at empty
        cases empty
  | redo =>
      intro entry rest scopes others stack numbers earlier command later split
      rcases resting with idle | empty
      · have lengths := watched.inStep.redoStack
        have all := recorded.redoStack
        rw [stack, numbers, List.map_cons, List.map_cons, List.cons.injEq] at lengths
        rw [numbers] at all
        rw [watched.home_eq idle] at all
        exact .inl (number_eq lengths.1 (all scopes List.mem_cons_self) split)
      · rw [stack] at empty
        cases empty
  | _ => trivial

end Step

/-- In every run in which graphs are replaced only under an empty history and
previews rest, each undo and each redo runs only what was recorded for the graph
in the editor. -/
theorem history_isLocal (registry : Registry) (operations : List Operation)
    (resting : Meets (ScopedSession.step registry) (fun session operation =>
      operation.Scoped registry session.store) ScopedSession.initial operations)
    (before : List Operation) (operation : Operation)
    (leading : before ++ [operation] <+: operations) :
    (run (ScopedSession.step registry) ScopedSession.initial before).Local registry operation := by
  have started : ScopedSession.initial.Watched ∧
      ScopedSession.initial.scopes.For ScopedSession.initial.home :=
    ⟨⟨⟨rfl, rfl, rfl⟩, ⟨fun _ => ⟨rfl, rfl⟩, fun _ => rfl⟩, fun _ => rfl⟩,
      Scopes.For.of_blank ⟨rfl, rfl, rfl⟩ _⟩
  obtain ⟨earlier, here⟩ := resting.of_prefix leading
  obtain ⟨watched, recorded⟩ := guarded_invariant
    (fun session : ScopedSession => session.Watched ∧ session.scopes.For session.home)
    (fun session operation kept guarded =>
      ⟨kept.1.step registry operation, kept.1.recordedFor kept.2 guarded⟩) started earlier
  exact watched.isLocal recorded here

def addAndUndo : List Operation := [
  .loadWorkflow 1 oneNode (some "a"),
  .perform (.addNode "noop" ⟨200, 0⟩),
  .undo]

theorem history_isLocal_addAndUndo :
    (run (ScopedSession.step noopRegistry) ScopedSession.initial
        (addAndUndo.take 2)).scopes.undoStack = [[1]] ∧
      (run (ScopedSession.step noopRegistry) ScopedSession.initial
        (addAndUndo.take 2)).Local noopRegistry .undo := by
  refine ⟨by decide, history_isLocal noopRegistry addAndUndo ?_ _ _ List.prefix_rfl⟩
  exact ⟨⟨rfl, rfl, rfl⟩, .inl ⟨rfl, rfl⟩, .inl ⟨rfl, rfl⟩, trivial⟩

def twoNodes : Draft where
  snapshot := {
    nodes := [{ noopClass.new "noop" with id := "n_1" : Node }.toJSON,
      { noopClass.new "noop" with id := "n_2" : Node }.toJSON]
    connections := [] }
  metadata := OrderedMap.empty

/-- The undo of a node that was added to workflow 1 removes a node of workflow 2. -/
theorem undo_reaches_other_workflow :
    (run (ScopedSession.step noopRegistry) ScopedSession.initial
        [.loadWorkflow 1 oneNode (some "a"), .perform (.addNode "noop" ⟨200, 0⟩),
          .loadWorkflow 2 twoNodes (some "b")]).store.workflowId = some 2 ∧
      ¬ (run (ScopedSession.step noopRegistry) ScopedSession.initial
        [.loadWorkflow 1 oneNode (some "a"), .perform (.addNode "noop" ⟨200, 0⟩),
          .loadWorkflow 2 twoNodes (some "b")]).Local noopRegistry .undo := by
  refine ⟨rfl, fun isLocal => ?_⟩
  rcases isLocal _ _ _ _ rfl rfl [] _ [] rfl with own | same
  · exact absurd own (by decide)
  · have lost := same.nodes "n_2"
    exact absurd lost (by decide)

end WorkflowStudio.Editor
