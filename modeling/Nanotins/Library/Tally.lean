import Mathlib.Algebra.BigOperators.Group.List.Basic
import Mathlib.Algebra.GroupWithZero.Nat
import Mathlib.Algebra.Order.Group.Nat
import Mathlib.Data.List.GetD
import Mathlib.Data.Nat.ModEq

/-!
Contract: logs whose events are charged to numbered accounts.

Owns: how many events an account has and what their amounts sum to, that the
accounts share out the whole log, that the order of the log does not matter,
the other events of a numbered log, counters with missed and extra events, and
tables of accounts that grow.

Does not own: what an event is, or the width of a counter.
-/

namespace Nanotins.Library

section Tally

variable {β : Type} (account amount : β → Nat)

/-- The number of events of account `r`. -/
def charged (log : List β) (r : Nat) : Nat := log.countP fun event => account event = r

/-- The sum of the amounts of account `r`. -/
def credited (log : List β) (r : Nat) : Nat :=
  ((log.filter fun event => account event = r).map amount).sum

@[simp] theorem charged_nil (r : Nat) : charged account [] r = 0 := rfl

@[simp] theorem credited_nil (r : Nat) : credited account amount [] r = 0 := rfl

theorem charged_append (log later : List β) (r : Nat) :
    charged account (log ++ later) r = charged account log r + charged account later r :=
  List.countP_append

theorem credited_append (log later : List β) (r : Nat) :
    credited account amount (log ++ later) r =
      credited account amount log r + credited account amount later r := by
  rw [credited, List.filter_append, List.map_append, List.sum_append]
  rfl

theorem charged_cons (event : β) (log : List β) (r : Nat) :
    charged account (event :: log) r =
      (if account event = r then 1 else 0) + charged account log r := by
  rw [charged, List.countP_cons, Nat.add_comm]
  simp [charged]

theorem credited_cons (event : β) (log : List β) (r : Nat) :
    credited account amount (event :: log) r =
      (if account event = r then amount event else 0) + credited account amount log r := by
  rw [credited, List.filter_cons]
  by_cases own : account event = r
  · rw [if_pos own, if_pos (decide_eq_true own), List.map_cons, List.sum_cons]
    rfl
  · rw [if_neg own, if_neg (by simpa using own), Nat.zero_add]
    rfl

theorem charged_perm {log other : List β} (same : log.Perm other) (r : Nat) :
    charged account log r = charged account other r :=
  same.countP_eq _

theorem credited_perm {log other : List β} (same : log.Perm other) (r : Nat) :
    credited account amount log r = credited account amount other r :=
  ((same.filter _).map amount).sum_eq

/-- A number that stands at one index only. -/
theorem sum_range_single (value index n : Nat) :
    ((List.range n).map fun r => if index = r then value else 0).sum =
      if index < n then value else 0 := by
  induction n with
  | zero => rfl
  | succ n inductionHypothesis =>
      rw [List.range_succ, List.map_append, List.sum_append, inductionHypothesis, List.map_singleton,
        List.sum_singleton]
      split_ifs <;> omega

/-- If all accounts are below `n`, these share out the log. -/
theorem sum_credited {log : List β} {n : Nat} (below : ∀ event ∈ log, account event < n) :
    ((List.range n).map (credited account amount log)).sum = (log.map amount).sum := by
  induction log with
  | nil =>
      show ((List.range n).map fun _ => 0).sum = 0
      simp
  | cons event log inductionHypothesis =>
      rw [List.forall_mem_cons] at below
      have split : credited account amount (event :: log) = fun r =>
          (if account event = r then amount event else 0) + credited account amount log r :=
        funext (credited_cons account amount event log)
      rw [split, List.sum_map_add, sum_range_single, if_pos below.1, inductionHypothesis below.2,
        List.map_cons, List.sum_cons]

/-- Replacing an amount exchanges it in the sum. -/
theorem sum_set {amounts : List Nat} {i before : Nat} (found : amounts[i]? = some before)
    (after : Nat) : (amounts.set i after).sum + before = amounts.sum + after := by
  induction amounts generalizing i with
  | nil => contradiction
  | cons first amounts inductionHypothesis =>
      cases i with
      | zero =>
          obtain rfl : first = before := Option.some.inj found
          rw [List.set_cons_zero, List.sum_cons, List.sum_cons]
          omega
      | succ i =>
          have rest := inductionHypothesis found
          rw [List.set_cons_succ, List.sum_cons, List.sum_cons]
          omega

/-- A count is that of one event and that of all others. -/
theorem countP_eq_eraseIdx {log : List β} {r : Nat} {event : β} (selects : β → Bool)
    (found : log[r]? = some event) :
    log.countP selects = (log.eraseIdx r).countP selects + if selects event then 1 else 0 := by
  rcases List.getElem?_eq_some_iff.mp found with ⟨below, rfl⟩
  rw [← List.countP_cons]
  exact ((List.getElem_cons_eraseIdx_perm below).countP_eq selects).symm

/-- No other event has the account of an event in a numbered log. -/
theorem account_ne_of_mem_eraseIdx {log : List β} {r : Nat}
    (numbered : ∀ i entry, log[i]? = some entry → account entry = i) :
    ∀ entry ∈ log.eraseIdx r, account entry ≠ r := by
  intro entry member own
  rcases List.mem_eraseIdx_iff_getElem.mp member with ⟨i, below, other, rfl⟩
  exact other ((numbered i _ (List.getElem?_eq_getElem below)).symm.trans own)

end Tally

/-- A counter modulo `m` that counts `extra` events in place of `missed` ones is
right exactly when what is due does not overflow and these are as many modulo `m`. -/
theorem mod_eq_due_iff {counted missed due extra m : Nat} (positive : 0 < m)
    (balance : counted + missed = due + extra) :
    counted % m = due ↔ due < m ∧ missed ≡ extra [MOD m] := by
  constructor
  · intro same
    have small : due < m := by
      rw [← same]
      exact Nat.mod_lt _ positive
    have congruent : counted ≡ due [MOD m] := same.trans (Nat.mod_eq_of_lt small).symm
    refine ⟨small, congruent.add_left_cancel ?_⟩
    rw [balance]
  · rintro ⟨small, congruent⟩
    have cancelled : counted ≡ due [MOD m] := by
      apply congruent.add_right_cancel
      rw [balance]
    exact Eq.trans cancelled (Nat.mod_eq_of_lt small)

/-- Growing a table by default entries changes no entry. -/
theorem getD_append_replicate {α : Type} (table : List α) (more r : Nat) (default : α) :
    (table ++ List.replicate more default).getD r default = table.getD r default := by
  by_cases inside : r < table.length
  · exact List.getD_append _ _ _ _ inside
  · have beyond := Nat.not_lt.mp inside
    rw [List.getD_append_right _ _ _ _ beyond, List.getD_eq_getElem?_getD,
      List.getElem?_getD_replicate_default_eq, List.getD_eq_default _ _ beyond]

end Nanotins.Library
