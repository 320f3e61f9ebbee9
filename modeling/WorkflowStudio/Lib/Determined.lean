import Mathlib.Logic.Relation

/-! Runs of a relation in which each state has at most one successor: whatever a
run reaches comes before its end, and there is one end only. -/

set_option autoImplicit false

namespace Lib.Determined

open Relation

variable {State : Type} {step : State → State → Prop}

/-- No step leads on from the state. -/
def Ended (step : State → State → Prop) (state : State) : Prop := ∀ next, ¬ step state next

theorem Ended.stays {last state : State} (ended : Ended step last)
    (goes : ReflTransGen step last state) : state = last := by
  rcases goes.cases_head with same | ⟨next, first, _⟩
  · exact same.symm
  · exact absurd first (ended next)

theorem reaches_end (unique : Relator.RightUnique step) {start state last : State}
    (reached : ReflTransGen step start state) (arrives : ReflTransGen step start last)
    (ended : Ended step last) : ReflTransGen step state last := by
  rcases ReflTransGen.total_of_right_unique unique reached arrives with forward | backward
  · exact forward
  · rw [ended.stays backward]

theorem end_unique (unique : Relator.RightUnique step) {start last other : State}
    (arrives : ReflTransGen step start last) (ended : Ended step last)
    (reached : ReflTransGen step start other) (stops : Ended step other) : other = last :=
  (stops.stays (reaches_end unique reached arrives ended)).symm

/-- A state that is not the end takes a step, and from there the end is reached. -/
theorem steps_to_end (unique : Relator.RightUnique step) {start state last : State}
    (reached : ReflTransGen step start state) (arrives : ReflTransGen step start last)
    (ended : Ended step last) (before : state ≠ last) :
    ∃ next, step state next ∧ ReflTransGen step next last := by
  rcases (reaches_end unique reached arrives ended).cases_head with same | onward
  · exact absurd same before
  · exact onward

end Lib.Determined
