import Mathlib.Data.List.Basic

/-! Runs of a machine whose operations are only taken where a guard allows
them: the rules by which an invariant, or a simulation of an abstract machine,
is carried from one step to a whole run. -/

set_option autoImplicit false

namespace Lib.GuardedRun

variable {State Operation : Type}

def run (step : State → Operation → State) (state : State) (operations : List Operation) : State :=
  operations.foldl step state

/-- Every operation meets the guard in the state to which it is applied. -/
def Meets (step : State → Operation → State) (guard : State → Operation → Prop) :
    State → List Operation → Prop
  | _, [] => True
  | state, operation :: rest => guard state operation ∧ Meets step guard (step state operation) rest

variable {step : State → Operation → State} {guard : State → Operation → Prop}

theorem run_append (state : State) (first second : List Operation) :
    run step state (first ++ second) = run step (run step state first) second :=
  List.foldl_append

/-- What every step keeps holds at the end of every run. -/
theorem run_invariant (holds : State → Prop)
    (keeps : ∀ state operation, holds state → holds (step state operation)) {state : State}
    (started : holds state) (operations : List Operation) :
    holds (run step state operations) := by
  induction operations generalizing state with
  | nil => exact started
  | cons operation rest ih => exact ih (keeps state operation started)

/-- What every guarded step keeps holds at the end of every guarded run. -/
theorem guarded_invariant (holds : State → Prop)
    (keeps : ∀ state operation, holds state → guard state operation →
      holds (step state operation))
    {state : State} {operations : List Operation} (started : holds state)
    (meets : Meets step guard state operations) : holds (run step state operations) := by
  induction operations generalizing state with
  | nil => exact started
  | cons operation rest ih => exact ih (keeps state operation started meets.1) meets.2

/-- The beginning of a guarded run is guarded. -/
theorem Meets.leading {state : State} {operations before : List Operation}
    (meets : Meets step guard state operations) (leads : before <+: operations) :
    Meets step guard state before := by
  induction before generalizing state operations with
  | nil => trivial
  | cons first rest ih =>
      obtain ⟨later, rfl⟩ := leads
      exact ⟨meets.1, ih meets.2 (List.prefix_append _ later)⟩

/-- The guard holds of each operation in the state that the ones before it left. -/
theorem Meets.of_prefix {state : State} {operations before : List Operation}
    {operation : Operation} (meets : Meets step guard state operations)
    (leading : before ++ [operation] <+: operations) :
    Meets step guard state before ∧ guard (run step state before) operation := by
  induction before generalizing state operations with
  | nil =>
      obtain ⟨later, rfl⟩ := leading
      exact ⟨trivial, meets.1⟩
  | cons first rest ih =>
      obtain ⟨later, rfl⟩ := leading
      obtain ⟨started, guarded⟩ := ih meets.2 (List.prefix_append _ later)
      exact ⟨⟨meets.1, started⟩, guarded⟩

/-- Where the guard is exactly what keeps an invariant, a run is guarded just
when the invariant holds in each of its states. -/
theorem meets_iff {holds : State → Prop}
    (keeps : ∀ state operation, holds state →
      (guard state operation ↔ holds (step state operation)))
    {state : State} {operations : List Operation} (started : holds state) :
    Meets step guard state operations ↔
      ∀ before, before <+: operations → holds (run step state before) := by
  induction operations generalizing state with
  | nil =>
      constructor
      · intro _ before leading
        rw [List.prefix_nil.mp leading]
        exact started
      · exact fun _ => trivial
  | cons operation rest ih =>
      constructor
      · intro ⟨here, later⟩ before leading
        have next := (keeps state operation started).mp here
        rcases List.prefix_cons_iff.mp leading with rfl | ⟨others, rfl, leads⟩
        · exact started
        · exact (ih next).mp later others leads
      · intro always
        have next := always [operation] (List.prefix_cons_inj operation |>.mpr (List.nil_prefix))
        refine ⟨(keeps state operation started).mpr next, (ih next).mpr ?_⟩
        intro before leading
        exact always (operation :: before) (List.prefix_cons_inj operation |>.mpr leading)

theorem meets_of_invariant {holds : State → Prop}
    (keeps : ∀ state operation, holds state → holds (step state operation))
    (admits : ∀ state operation, holds state → guard state operation)
    {state : State} (started : holds state) (operations : List Operation) :
    Meets step guard state operations := by
  induction operations generalizing state with
  | nil => trivial
  | cons operation rest ih =>
      exact ⟨admits state operation started, ih (keeps state operation started)⟩

theorem meets_congr {other : State → Operation → Prop} {holds : State → Prop}
    {allowed : Operation → Prop}
    (keeps : ∀ state operation, holds state → allowed operation → holds (step state operation))
    (agree : ∀ state operation, holds state → (guard state operation ↔ other state operation))
    {state : State} {operations : List Operation} (started : holds state)
    (admitted : ∀ operation ∈ operations, allowed operation) :
    Meets step guard state operations ↔ Meets step other state operations := by
  induction operations generalizing state with
  | nil => exact Iff.rfl
  | cons operation rest ih =>
      have next := keeps state operation started (admitted operation List.mem_cons_self)
      have later := ih next fun following member => admitted following (List.mem_cons_of_mem _ member)
      exact and_congr (agree state operation started) later

/-- A relation to an abstract machine that every guarded step keeps. -/
theorem simulation {Abstract : Type} {abstractStep : Abstract → Operation → Abstract}
    {related : State → Abstract → Prop}
    (keeps : ∀ state abstract operation, related state abstract → guard state operation →
      related (step state operation) (abstractStep abstract operation))
    {state : State} {abstract : Abstract} {operations : List Operation}
    (started : related state abstract) (meets : Meets step guard state operations) :
    related (run step state operations) (run abstractStep abstract operations) := by
  induction operations generalizing state abstract with
  | nil => exact started
  | cons operation rest ih => exact ih (keeps state abstract operation started meets.1) meets.2

theorem Meets.append {state : State} {first second : List Operation}
    (meets : Meets step guard state first) (later : Meets step guard (run step state first) second) :
    Meets step guard state (first ++ second) := by
  induction first generalizing state with
  | nil => exact later
  | cons operation rest ih => exact ⟨meets.1, ih meets.2 later⟩

/-- A guarded run leads from the one state to the other. -/
def Reaches (step : State → Operation → State) (guard : State → Operation → Prop)
    (before after : State) : Prop :=
  ∃ operations, Meets step guard before operations ∧ run step before operations = after

theorem Reaches.refl (state : State) : Reaches step guard state state :=
  ⟨[], trivial, rfl⟩

theorem Reaches.single {state : State} {operation : Operation}
    (allowed : guard state operation) : Reaches step guard state (step state operation) :=
  ⟨[operation], ⟨allowed, trivial⟩, rfl⟩

theorem Reaches.trans {first second third : State} (left : Reaches step guard first second)
    (right : Reaches step guard second third) : Reaches step guard first third := by
  obtain ⟨before, meets, rfl⟩ := left
  obtain ⟨later, follows, rfl⟩ := right
  exact ⟨before ++ later, meets.append follows, run_append first before later⟩

/-- A machine each of whose steps is a guarded run of the other one, whatever the number
of its operations: all its runs are such runs. -/
theorem Reaches.run {Concrete Event : Type} {advance : Concrete → Event → Concrete}
    {abstract : Concrete → State}
    (refines : ∀ concrete event,
      Reaches step guard (abstract concrete) (abstract (advance concrete event)))
    (concrete : Concrete) (events : List Event) :
    Reaches step guard (abstract concrete) (abstract (GuardedRun.run advance concrete events)) := by
  induction events generalizing concrete with
  | nil => exact Reaches.refl _
  | cons event rest ih => exact (refines concrete event).trans (ih (advance concrete event))

end Lib.GuardedRun
