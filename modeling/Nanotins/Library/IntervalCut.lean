import Mathlib.Algebra.Order.Group.Nat
import Mathlib.Data.Nat.SuccPred
import Mathlib.Order.CompletePartialOrder
import Mathlib.Order.SuccPred.IntervalSucc

/-!
Contract: an interval of numbers cut into adjacent ranges.

Owns: that the ranges between consecutive values of a monotone function follow
each other without gap or overlap, and the places that cut a number of items
into even parts.

Does not own: what is done with a range.
-/

namespace Nanotins.Library

section Cut

variable {cut : Nat → Nat}

/-- One behind the other, the ranges are the whole interval. -/
theorem flatMap_range'_cut (monotone : Monotone cut) (parts : Nat) :
    ((List.range parts).flatMap fun t => List.range' (cut t) (cut (t + 1) - cut t)) =
      List.range' (cut 0) (cut parts - cut 0) := by
  induction parts with
  | zero => rw [Nat.sub_self]; rfl
  | succ parts inductionHypothesis =>
      have before : cut 0 ≤ cut parts := monotone (Nat.zero_le parts)
      have last : cut parts ≤ cut (parts + 1) := monotone (Nat.le_succ parts)
      have place : cut parts = cut 0 + (cut parts - cut 0) := by omega
      have whole : cut (parts + 1) - cut 0 =
          (cut parts - cut 0) + (cut (parts + 1) - cut parts) := by omega
      rw [List.range_succ, List.flatMap_append, inductionHypothesis, List.flatMap_singleton, whole,
        ← List.range'_append_1, ← place]

/-- No number lies in two of the ranges. -/
theorem pairwiseDisjoint_cut (monotone : Monotone cut) (parts : Set Nat) :
    parts.PairwiseDisjoint fun t => Set.Ico (cut t) (cut (t + 1)) := by
  intro t _ t' _ apart
  exact monotone.pairwise_disjoint_on_Ico_succ apart

/-- Every number of the interval lies in one of the ranges. -/
theorem biUnion_cut (monotone : Monotone cut) (parts : Nat) :
    ⋃ t ∈ Set.Iio parts, Set.Ico (cut t) (cut (t + 1)) = Set.Ico (cut 0) (cut parts) := by
  induction parts with
  | zero => simp
  | succ parts inductionHypothesis =>
      have before : cut 0 ≤ cut parts := monotone (Nat.zero_le parts)
      have last : cut parts ≤ cut (parts + 1) := monotone (Nat.le_succ parts)
      have more : Set.Iio (parts + 1) = insert parts (Set.Iio parts) :=
        Order.Iio_succ_eq_insert parts
      rw [more, Set.biUnion_insert, inductionHypothesis, Set.union_comm,
        Set.Ico_union_Ico_eq_Ico before last]

end Cut

/-- Where part `t` begins if `n` items are cut into `parts` even parts. -/
def evenCut (n parts t : Nat) : Nat := t * n / parts

theorem monotone_evenCut (n parts : Nat) : Monotone (evenCut n parts) := by
  intro t t' earlier
  exact Nat.div_le_div_right (Nat.mul_le_mul_right n earlier)

theorem evenCut_zero (n parts : Nat) : evenCut n parts 0 = 0 := by
  rw [evenCut, Nat.zero_mul, Nat.zero_div]

theorem evenCut_self {parts : Nat} (positive : 0 < parts) (n : Nat) : evenCut n parts parts = n :=
  Nat.mul_div_cancel_left n positive

/-- One behind the other, the even parts are all items. -/
theorem flatMap_range'_evenCut {parts : Nat} (positive : 0 < parts) (n : Nat) :
    ((List.range parts).flatMap fun t =>
      List.range' (evenCut n parts t) (evenCut n parts (t + 1) - evenCut n parts t)) =
        List.range n := by
  rw [flatMap_range'_cut (monotone_evenCut n parts), evenCut_zero, evenCut_self positive,
    Nat.sub_zero, List.range_eq_range']

theorem biUnion_evenCut {parts : Nat} (positive : 0 < parts) (n : Nat) :
    ⋃ t ∈ Set.Iio parts, Set.Ico (evenCut n parts t) (evenCut n parts (t + 1)) = Set.Ico 0 n := by
  rw [biUnion_cut (monotone_evenCut n parts), evenCut_zero, evenCut_self positive]

end Nanotins.Library
