import Mathlib.Data.Nat.Basic

/-!
# What every way on comes to

A goal is inevitable if every way on from a state reaches it, and none ends before.  It
is if a rank falls with each step and no state before the goal is stuck; it is not if
there is a trap on the way.
-/

namespace Mews

variable {S : Type*}

/-- Every way on from the state reaches the goal. -/
inductive Inevitable (Next : S → S → Prop) (goal : S → Prop) : S → Prop where
  | now {state : S} (hgoal : goal state) : Inevitable Next goal state
  | later {state after : S} (hsome : Next state after)
      (hall : ∀ after, Next state after → Inevitable Next goal after) :
      Inevitable Next goal state

namespace Inevitable

variable {Next : S → S → Prop} {goal : S → Prop} {state : S}

/-- A rank falls with each step that does not reach the goal, and there is always one. -/
theorem of_rank (holds : S → Prop) (rank : S → ℕ)
    (hsome : ∀ state, holds state → ¬goal state → ∃ after, Next state after)
    (hfalls : ∀ state after, holds state → ¬goal state → Next state after →
      goal after ∨ holds after ∧ rank after < rank state)
    (hholds : holds state) : Inevitable Next goal state := by
  induction hrank : rank state using Nat.strongRecOn generalizing state with
  | ind bound ih =>
      by_cases hgoal : goal state
      · exact now hgoal
      · obtain ⟨after, hnext⟩ := hsome state hholds hgoal
        apply later hnext
        intro after hnext
        rcases hfalls state after hholds hgoal hnext with hreached | ⟨hafter, hless⟩
        · exact now hreached
        · exact ih (rank after) (hrank ▸ hless) hafter rfl

/-- No way on from a trap reaches the goal. -/
theorem not_of_trap {trap : S → Prop} (hgoal : ∀ state, trap state → ¬goal state)
    (hkept : ∀ state after, trap state → Next state after → trap after) (htrap : trap state) :
    ¬Inevitable Next goal state := by
  intro hinevitable
  induction hinevitable with
  | now hreached => exact hgoal _ htrap hreached
  | later hsome _ ih => exact ih _ hsome (hkept _ _ htrap hsome)

/-- What is inevitable still is after a step that did not reach the goal. -/
theorem of_step {after : S} (hinevitable : Inevitable Next goal state) (hgoal : ¬goal state)
    (hnext : Next state after) : Inevitable Next goal after := by
  cases hinevitable with
  | now hreached => exact absurd hreached hgoal
  | later _ hall => exact hall after hnext

end Inevitable

end Mews
