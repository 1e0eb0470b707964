import Mathlib.Tactic.Common

/-!
Contract: runs of a machine whose steps may fault.

Owns: the run over a list of actions, how runs compose, and the two rules for
invariants: what a run that does not fault keeps, and that a run does not fault.

Does not own: any machine.
-/

namespace Nanotins.Library

section Run

variable {σ α : Type*} (step : σ → α → Option σ)

/-- Take the actions in order; `none` as soon as one of them faults. -/
def runSteps (state : σ) (actions : List α) : Option σ := actions.foldlM step state

@[simp] theorem runSteps_nil (state : σ) : runSteps step state [] = some state := rfl

theorem runSteps_cons (state : σ) (action : α) (actions : List α) :
    runSteps step state (action :: actions) =
      (step state action).bind fun behind => runSteps step behind actions :=
  rfl

theorem runSteps_append (state : σ) (actions later : List α) :
    runSteps step state (actions ++ later) =
      (runSteps step state actions).bind fun behind => runSteps step behind later :=
  List.foldlM_append

variable {step} {state last : σ} {actions : List α}

/-- What every step keeps, a run keeps that has not faulted. -/
theorem runSteps_preserves (Invariant : σ → Prop)
    (preserved : ∀ {state action behind}, action ∈ actions → Invariant state →
      step state action = some behind → Invariant behind)
    (holds : Invariant state) (ran : runSteps step state actions = some last) : Invariant last := by
  induction actions generalizing state with
  | nil =>
      obtain rfl : state = last := Option.some.inj ran
      exact holds
  | cons action actions inductionHypothesis =>
      rw [runSteps_cons] at ran
      rcases Option.bind_eq_some_iff.mp ran with ⟨behind, stepped, rest⟩
      apply inductionHypothesis _ (preserved List.mem_cons_self holds stepped) rest
      exact fun member => preserved (List.mem_cons_of_mem action member)

/-- If no step faults where the invariant holds, no run does. -/
theorem runSteps_some (Invariant : σ → Prop)
    (progress : ∀ {state action}, action ∈ actions → Invariant state →
      ∃ behind, step state action = some behind ∧ Invariant behind)
    (holds : Invariant state) :
    ∃ last, runSteps step state actions = some last ∧ Invariant last := by
  induction actions generalizing state with
  | nil => exact ⟨state, rfl, holds⟩
  | cons action actions inductionHypothesis =>
      rcases progress List.mem_cons_self holds with ⟨behind, stepped, kept⟩
      rw [runSteps_cons, stepped]
      exact inductionHypothesis (fun member => progress (List.mem_cons_of_mem action member)) kept

end Run

end Nanotins.Library
