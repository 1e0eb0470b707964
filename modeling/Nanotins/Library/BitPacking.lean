import Mathlib.Algebra.Group.Nat.Defs
import Mathlib.Algebra.GroupWithZero.Nat
import Mathlib.Algebra.Order.Group.Nat
import Mathlib.Data.List.GetD
import Mathlib.Tactic.Common

/-!
Contract: numbers of given bit widths packed side by side into one number.

Owns: the packed number of a list of widths and values, its bound, that each
value is found at its place, and that cutting a number at the places of
consecutive widths loses no bit and shares none.

Does not own: how packed numbers are stored in bytes.
-/

namespace Nanotins.Library

/-- The number of bits that a list of (width, value) pairs takes. -/
def packedWidth (fields : List (Nat × Nat)) : Nat := (fields.map Prod.fst).sum

/-- The first value takes the most significant bits. -/
def packBits : List (Nat × Nat) → Nat
  | [] => 0
  | field :: fields => field.2 * 2 ^ packedWidth fields + packBits fields

@[simp] theorem packedWidth_cons (field : Nat × Nat) (fields : List (Nat × Nat)) :
    packedWidth (field :: fields) = field.1 + packedWidth fields :=
  rfl

theorem packBits_lt {fields : List (Nat × Nat)} (fits : ∀ field ∈ fields, field.2 < 2 ^ field.1) :
    packBits fields < 2 ^ packedWidth fields := by
  induction fields with
  | nil => decide
  | cons field fields inductionHypothesis =>
      have rest := inductionHypothesis fun later member => fits later (List.mem_cons_of_mem _ member)
      have first : field.2 + 1 ≤ 2 ^ field.1 := fits field (by simp)
      calc packBits (field :: fields)
          < field.2 * 2 ^ packedWidth fields + 2 ^ packedWidth fields :=
            Nat.add_lt_add_left rest _
        _ = (field.2 + 1) * 2 ^ packedWidth fields := (Nat.succ_mul _ _).symm
        _ ≤ 2 ^ field.1 * 2 ^ packedWidth fields := Nat.mul_le_mul_right _ first
        _ = 2 ^ packedWidth (field :: fields) := by rw [packedWidth_cons, Nat.pow_add]

/-- A value in front of `fields`, behind any higher bits, is found by dropping
the bits of `fields`. -/
theorem digit_of_packBits {high width value : Nat} {fields : List (Nat × Nat)}
    (bounded : value < 2 ^ width) (fits : ∀ field ∈ fields, field.2 < 2 ^ field.1) :
    ((high * 2 ^ width + value) * 2 ^ packedWidth fields + packBits fields) /
      2 ^ packedWidth fields % 2 ^ width = value := by
  have low := packBits_lt fits
  rw [Nat.mul_comm _ (2 ^ packedWidth fields), Nat.mul_add_div (Nat.two_pow_pos _),
    Nat.div_eq_of_lt low, Nat.add_zero, Nat.mul_comm high, Nat.mul_add_mod, Nat.mod_eq_of_lt bounded]

/-! ### Cutting a number -/

/-- `width` bits of a number, from bit `shift` on. -/
def bitsAt (word shift width : Nat) : Nat := word / 2 ^ shift % 2 ^ width

/-- Where the field number `j` of consecutive widths is, the first one on top. -/
def shiftOf (widths : List Nat) (j : Nat) : Nat := widths.sum - (widths.take (j + 1)).sum

section Cut

variable {widths : List Nat}

theorem testBit_bitsAt (word shift width i : Nat) :
    (bitsAt word shift width <<< shift).testBit i =
      (decide (shift ≤ i ∧ i < shift + width) && word.testBit i) := by
  unfold bitsAt
  rw [Nat.testBit_shiftLeft, Nat.testBit_mod_two_pow, Nat.testBit_div_two_pow]
  by_cases inside : shift ≤ i
  · simp only [inside, decide_true, Bool.true_and, true_and, Nat.sub_add_cancel]
    congr 2
    apply propext
    omega
  · simp [inside]

theorem sum_take_succ {j : Nat} (inside : j < widths.length) :
    (widths.take (j + 1)).sum = (widths.take j).sum + widths[j] := by
  rw [List.take_succ_eq_append_getElem inside, List.sum_append, List.sum_singleton]

theorem sum_take_le (widths : List Nat) (j : Nat) : (widths.take j).sum ≤ widths.sum := by
  have parts := congrArg List.sum (List.take_append_drop j widths)
  rw [List.sum_append] at parts
  omega

theorem sum_take_mono (widths : List Nat) {i j : Nat} (ordered : i ≤ j) :
    (widths.take i).sum ≤ (widths.take j).sum := by
  have shorter := sum_take_le (widths.take j) i
  rwa [List.take_take, Nat.min_eq_left ordered] at shorter

/-- Every place lies in one of the fields. -/
theorem exists_sum_take {place : Nat} (inside : place < widths.sum) :
    ∃ j, j < widths.length ∧ (widths.take j).sum ≤ place ∧
      place < (widths.take (j + 1)).sum := by
  induction widths generalizing place with
  | nil => exact absurd inside (Nat.not_lt_zero _)
  | cons width widths inductionHypothesis =>
      rw [List.sum_cons] at inside
      rcases Nat.lt_or_ge place width with here | behind
      · refine ⟨0, Nat.succ_pos _, Nat.zero_le _, ?_⟩
        simpa using here
      · obtain ⟨j, below, above, upTo⟩ := inductionHypothesis (by omega : place - width < _)
        refine ⟨j + 1, Nat.succ_lt_succ below, ?_, ?_⟩
        · rw [List.take_succ_cons, List.sum_cons]
          omega
        · rw [List.take_succ_cons, List.sum_cons]
          omega

theorem shiftOf_add {j : Nat} (inside : j < widths.length) :
    shiftOf widths j + widths[j] = widths.sum - (widths.take j).sum := by
  have step := sum_take_succ inside
  have upTo := sum_take_le widths (j + 1)
  unfold shiftOf
  omega

theorem testBit_foldl_or {ι : Type} (fields : List ι) (value : ι → Nat) (first i : Nat) :
    (fields.foldl (fun word j => word ||| value j) first).testBit i =
      (first.testBit i || fields.any fun j => (value j).testBit i) := by
  induction fields generalizing first with
  | nil => simp
  | cons field fields inductionHypothesis =>
      rw [List.foldl_cons, inductionHypothesis, Nat.testBit_or, List.any_cons, Bool.or_assoc]

/-- The fields, shifted to their places, make the number. -/
theorem or_bitsAt {word : Nat} (bounded : word < 2 ^ widths.sum) :
    (List.range widths.length).foldl (fun acc j =>
      acc ||| bitsAt word (shiftOf widths j) (widths.getD j 0) <<< shiftOf widths j) 0 = word := by
  apply Nat.eq_of_testBit_eq
  intro i
  rw [testBit_foldl_or, Nat.zero_testBit, Bool.false_or, Bool.eq_iff_iff, List.any_eq_true]
  constructor
  · intro found
    obtain ⟨j, -, set⟩ := found
    rw [testBit_bitsAt, Bool.and_eq_true] at set
    exact set.2
  · intro set
    have inside : i < widths.sum := by
      apply Nat.lt_of_not_le
      intro above
      rw [Nat.testBit_lt_two_pow (Nat.lt_of_lt_of_le bounded
        (Nat.pow_le_pow_right (by decide) above))] at set
      contradiction
    obtain ⟨j, below, from', upTo⟩ := exists_sum_take (by omega : widths.sum - 1 - i < widths.sum)
    refine ⟨j, List.mem_range.mpr below, ?_⟩
    have place := shiftOf_add below
    have whole := sum_take_le widths (j + 1)
    rw [testBit_bitsAt, set, Bool.and_true, decide_eq_true_eq, List.getD_eq_getElem _ _ below]
    constructor
    · unfold shiftOf
      omega
    · omega

/-- No bit is in two fields. -/
theorem bitsAt_disjoint (word : Nat) {i j : Nat} (inside : i < widths.length)
    (inside' : j < widths.length) (other : i ≠ j) :
    (bitsAt word (shiftOf widths i) widths[i] <<< shiftOf widths i) &&&
      (bitsAt word (shiftOf widths j) widths[j] <<< shiftOf widths j) = 0 := by
  apply Nat.eq_of_testBit_eq
  intro place
  have first := shiftOf_add inside
  have second := shiftOf_add inside'
  have whole := sum_take_le widths (i + 1)
  have whole' := sum_take_le widths (j + 1)
  rw [Nat.testBit_and, testBit_bitsAt, testBit_bitsAt, Nat.zero_testBit, Bool.eq_false_iff]
  intro both
  simp only [Bool.and_eq_true, decide_eq_true_eq] at both
  unfold shiftOf at first second both
  rcases Nat.lt_or_gt_of_ne other with before | behind
  · have apart := sum_take_mono widths (by omega : i + 1 ≤ j)
    omega
  · have apart := sum_take_mono widths (by omega : j + 1 ≤ i)
    omega

end Cut

end Nanotins.Library
