import Mathlib.Tactic.Common

/-!
Contract: draining an iterator, written once over an arbitrary monad.

Owns: the bounded drain loop, that fuel which covers a decreasing measure of the
iterator drains it as the unbounded loop does, the invariant rule for the
drained items, and the run on an iterator that may fault.

Does not own: any iterator.

`next` of an iterator gives the next item and the state behind it, or `none` at
the end.
-/

namespace Nanotins.Library

variable {σ α : Type}

/-- At most `fuel` rounds of taking the next item. -/
def drainM {m : Type → Type} [Monad m] (next : σ → m (Option (α × σ))) : Nat → σ → m (List α)
  | 0, _ => pure []
  | fuel + 1, state => do
      match ← next state with
      | none => return []
      | some (item, behind) =>
          let items ← drainM next fuel behind
          return item :: items

/-- Drain an iterator that cannot fault. -/
def drain (next : σ → Option (α × σ)) (fuel : Nat) (state : σ) : List α :=
  Id.run (drainM next fuel state)

variable {next : σ → Option (α × σ)} {state behind : σ} {item : α}

@[simp] theorem drain_zero : drain next 0 state = [] := rfl

theorem drain_of_none (fuel : Nat) (ended : next state = none) : drain next fuel state = [] := by
  cases fuel with
  | zero => rfl
  | succ fuel =>
      have step : next state = (pure none : Id _) := ended
      rw [drain, drainM, step]
      rfl

theorem drain_of_some (fuel : Nat) (taken : next state = some (item, behind)) :
    drain next (fuel + 1) state = item :: drain next fuel behind := by
  have step : next state = (pure (some (item, behind)) : Id _) := taken
  rw [drain, drainM, step]
  rfl

section Measure

variable (measure : σ → Nat)
  (decreases : ∀ {state behind item}, next state = some (item, behind) →
    measure behind < measure state)

include decreases

/-- Fuel that covers the measure is enough. -/
theorem drain_of_le {fuel further : Nat} (enough : measure state ≤ fuel)
    (more : measure state ≤ further) : drain next fuel state = drain next further state := by
  induction fuel generalizing state further with
  | zero =>
      cases step : next state with
      | none => rw [drain_of_none 0 step, drain_of_none further step]
      | some taken =>
          have := decreases step
          omega
  | succ fuel inductionHypothesis =>
      cases step : next state with
      | none => rw [drain_of_none _ step, drain_of_none further step]
      | some taken =>
          have smaller := decreases step
          obtain ⟨further, rfl⟩ : ∃ fewer, further = fewer + 1 := ⟨further - 1, by omega⟩
          rw [drain_of_some _ step, drain_of_some _ step]
          exact congrArg _ (inductionHypothesis (by omega) (by omega))

/-- The unbounded loop. -/
theorem drain_measure :
    drain next (measure state) state =
      match next state with
      | none => []
      | some (item, behind) => item :: drain next (measure behind) behind := by
  cases step : next state with
  | none => exact drain_of_none _ step
  | some taken =>
      have smaller := decreases step
      obtain ⟨fuel, covered⟩ : ∃ fuel, measure state = fuel + 1 := ⟨measure state - 1, by omega⟩
      rw [covered, drain_of_some _ step]
      exact congrArg _ (drain_of_le measure decreases (by omega) (Nat.le_refl _))

end Measure

/-- What holds of every item that a state satisfying the invariant gives. -/
theorem forall_mem_drain (Invariant : σ → Prop) (Good : α → Prop)
    (preserved : ∀ {state behind item}, Invariant state → next state = some (item, behind) →
      Good item ∧ Invariant behind)
    (holds : Invariant state) (fuel : Nat) : ∀ item ∈ drain next fuel state, Good item := by
  induction fuel generalizing state with
  | zero => simp
  | succ fuel inductionHypothesis =>
      cases step : next state with
      | none => simp [drain_of_none _ step]
      | some taken =>
          obtain ⟨good, continued⟩ := preserved holds step
          rw [drain_of_some _ step]
          exact List.forall_mem_cons.mpr ⟨good, inductionHypothesis continued⟩

/-- If every step of the first iterator is one of the second, the first drains a
prefix of what the second does. -/
theorem drain_prefix {other : σ → Option (α × σ)} (Below : σ → σ → Prop)
    (follows : ∀ {state above behind item}, Below state above → next state = some (item, behind) →
      ∃ ahead, other above = some (item, ahead) ∧ Below behind ahead)
    {above : σ} (related : Below state above) {fuel further : Nat} (enough : fuel ≤ further) :
    drain next fuel state <+: drain other further above := by
  induction fuel generalizing state above further with
  | zero => exact List.nil_prefix
  | succ fuel inductionHypothesis =>
      cases step : next state with
      | none =>
          rw [drain_of_none _ step]
          exact List.nil_prefix
      | some taken =>
          obtain ⟨ahead, followed, still⟩ := follows related step
          obtain ⟨further, rfl⟩ : ∃ fewer, further = fewer + 1 := ⟨further - 1, by omega⟩
          rw [drain_of_some _ step, drain_of_some _ followed, List.prefix_cons_inj]
          exact inductionHypothesis still (Nat.le_of_succ_le_succ enough)

/-- If no step faults where the invariant holds, neither does the loop. -/
theorem drainM_eq_some (Invariant : σ → Prop) {guarded : σ → Option (Option (α × σ))}
    (agrees : ∀ {state}, Invariant state → guarded state = some (next state))
    (preserved : ∀ {state behind item}, Invariant state → next state = some (item, behind) →
      Invariant behind)
    (holds : Invariant state) (fuel : Nat) :
    drainM guarded fuel state = some (drain next fuel state) := by
  induction fuel generalizing state with
  | zero => rfl
  | succ fuel inductionHypothesis =>
      rw [drainM, agrees holds]
      cases step : next state with
      | none => exact congrArg some (drain_of_none _ step).symm
      | some taken =>
          have rest := inductionHypothesis (preserved holds step)
          rw [drain_of_some _ step]
          change (drainM guarded fuel taken.2).bind _ = _
          rw [rest]
          rfl

end Nanotins.Library
