import Mathlib.Algebra.Order.Group.Nat
import Mathlib.Tactic.Common

/-!
Contract: the bit patterns of the IEEE 754 formats binary32 and binary64 and the
conversions between them, in the default rounding mode.

Owns: widening, narrowing with rounding to nearest even, and that narrowing a
widened value gives it back, but for signaling NaNs, which become quiet
(`narrow_widen`).

Does not own: arithmetic, or the exceptions that conversions raise.

A pattern is a natural number; a conversion of a NaN keeps the sign and the upper
bits of the payload.
-/

namespace Nanotins.Library.BinaryFloat

/-! ### Parts of a pattern -/

def sign32 (x : Nat) : Nat := x / 2 ^ 31 % 2

def exponent32 (x : Nat) : Nat := x / 2 ^ 23 % 2 ^ 8

def fraction32 (x : Nat) : Nat := x % 2 ^ 23

/-- The payload of the quiet NaN that a NaN becomes. -/
def quietFraction32 (fraction : Nat) : Nat := 2 ^ 22 + fraction % 2 ^ 22

/-- A NaN whose quiet bit is clear. -/
def IsSignaling32 (x : Nat) : Prop :=
  exponent32 x = 255 ∧ fraction32 x ≠ 0 ∧ fraction32 x < 2 ^ 22

instance (x : Nat) : Decidable (IsSignaling32 x) := inferInstanceAs (Decidable (_ ∧ _ ∧ _))

/-- The pattern with its quiet bit set if it is a NaN. -/
def quiet32 (x : Nat) : Nat :=
  if exponent32 x = 255 ∧ fraction32 x ≠ 0 then
    sign32 x * 2 ^ 31 + (255 * 2 ^ 23 + quietFraction32 (fraction32 x))
  else x

/-! ### Conversions -/

/-- The binary64 pattern, without its sign, of a binary32 one.  A subnormal number
`fraction * 2 ^ (-149)` is normal in the wider format. -/
def widenMagnitude (exponent fraction : Nat) : Nat :=
  if exponent = 255 then
    2047 * 2 ^ 52 + if fraction = 0 then 0 else quietFraction32 fraction * 2 ^ 29
  else if exponent = 0 then
    if fraction = 0 then 0
    else (874 + fraction.log2) * 2 ^ 52 +
      (fraction - 2 ^ fraction.log2) * 2 ^ (52 - fraction.log2)
  else (exponent + 896) * 2 ^ 52 + fraction * 2 ^ 29

def widen (x : Nat) : Nat :=
  sign32 x * 2 ^ 63 + widenMagnitude (exponent32 x) (fraction32 x)

/-- `m / 2 ^ k`, rounded to the nearest number, ties to the even one. -/
def roundShift (m k : Nat) : Nat :=
  let q := m / 2 ^ k
  let r := m % 2 ^ k
  if 2 ^ k < 2 * r ∨ 2 * r = 2 ^ k ∧ q % 2 = 1 then q + 1 else q

/-- The binary32 pattern, without its sign, of a binary64 one.  What rounding
carries out of the significand goes to the exponent; what is too large is
infinite. -/
def narrowMagnitude (exponent fraction : Nat) : Nat :=
  if exponent = 2047 then
    255 * 2 ^ 23 + if fraction = 0 then 0 else quietFraction32 (fraction / 2 ^ 29)
  else if 896 < exponent then
    min (255 * 2 ^ 23) ((exponent - 897) * 2 ^ 23 + roundShift (2 ^ 52 + fraction) 29)
  else roundShift (2 ^ 52 + fraction) (926 - exponent)

def narrow (y : Nat) : Nat :=
  y / 2 ^ 63 % 2 * 2 ^ 31 + narrowMagnitude (y / 2 ^ 52 % 2 ^ 11) (y % 2 ^ 52)

/-! ### Narrowing a widened value -/

theorem roundShift_mul (q k : Nat) : roundShift (q * 2 ^ k) k = q := by
  have positive : 0 < 2 ^ k := Nat.two_pow_pos k
  unfold roundShift
  dsimp only
  rw [Nat.mul_div_cancel _ positive, Nat.mul_mod_left, if_neg]
  omega

/-- A number is its sign, exponent and fraction. -/
theorem narrow_parts {sign exponent fraction : Nat} (sign_lt : sign < 2)
    (exponent_lt : exponent < 2 ^ 11) (fraction_lt : fraction < 2 ^ 52) :
    narrow (sign * 2 ^ 63 + (exponent * 2 ^ 52 + fraction)) =
      sign * 2 ^ 31 + narrowMagnitude exponent fraction := by
  have signOf : (sign * 2 ^ 63 + (exponent * 2 ^ 52 + fraction)) / 2 ^ 63 % 2 = sign := by omega
  have exponentOf : (sign * 2 ^ 63 + (exponent * 2 ^ 52 + fraction)) / 2 ^ 52 % 2 ^ 11 =
      exponent := by omega
  have fractionOf : (sign * 2 ^ 63 + (exponent * 2 ^ 52 + fraction)) % 2 ^ 52 = fraction := by
    omega
  rw [narrow, signOf, exponentOf, fractionOf]

theorem pattern_eq {x : Nat} (bounded : x < 2 ^ 32) :
    x = sign32 x * 2 ^ 31 + (exponent32 x * 2 ^ 23 + fraction32 x) := by
  unfold sign32 exponent32 fraction32
  omega

theorem roundShift_of_lt {m k : Nat} (small : 2 * m < 2 ^ k) : roundShift m k = 0 := by
  unfold roundShift
  dsimp only
  rw [Nat.div_eq_of_lt (by omega), Nat.mod_eq_of_lt (by omega), if_neg (by omega)]

/-- What is far below the smallest subnormal number is rounded to zero. -/
theorem roundShift_tiny {fraction k : Nat} (fraction_lt : fraction < 2 ^ 52) (far : 54 ≤ k) :
    roundShift (2 ^ 52 + fraction) k = 0 := by
  have large : 2 ^ 54 ≤ 2 ^ k := Nat.pow_le_pow_right (by decide) far
  apply roundShift_of_lt
  omega

theorem narrow_widen_zero {sign : Nat} (sign_lt : sign < 2) :
    narrow (sign * 2 ^ 63 + widenMagnitude 0 0) = sign * 2 ^ 31 := by
  have nothing : widenMagnitude 0 0 = 0 * 2 ^ 52 + 0 := by
    unfold widenMagnitude
    rw [if_neg (by decide), if_pos rfl, if_pos rfl, Nat.zero_mul]
  rw [nothing, narrow_parts sign_lt (by decide) (by decide)]
  unfold narrowMagnitude
  rw [if_neg (by decide), if_neg (by decide), roundShift_tiny (by decide) (by decide),
    Nat.add_zero]

theorem two_pow_log2_mul {fraction : Nat} (fraction_ne : fraction ≠ 0)
    (fraction_lt : fraction < 2 ^ 23) :
    2 ^ fraction.log2 * 2 ^ (52 - fraction.log2) = 2 ^ 52 := by
  have log_lt : fraction.log2 < 23 := (Nat.log2_lt fraction_ne).mpr fraction_lt
  rw [← Nat.pow_add, Nat.add_sub_cancel' (by omega)]

/-- What is left of a fraction without its leading bit fits behind that bit. -/
theorem subnormal_fraction_lt {fraction : Nat} (fraction_ne : fraction ≠ 0)
    (fraction_lt : fraction < 2 ^ 23) :
    (fraction - 2 ^ fraction.log2) * 2 ^ (52 - fraction.log2) < 2 ^ 52 := by
  have high : fraction < 2 ^ (fraction.log2 + 1) := Nat.lt_log2_self
  have rest : fraction - 2 ^ fraction.log2 < 2 ^ fraction.log2 := by
    rw [Nat.pow_succ] at high
    omega
  rw [← two_pow_log2_mul fraction_ne fraction_lt]
  exact Nat.mul_lt_mul_of_pos_right rest (Nat.two_pow_pos _)

/-- A subnormal number is its fraction, scaled by a power of two. -/
theorem narrow_widen_subnormal {sign fraction : Nat} (sign_lt : sign < 2)
    (fraction_ne : fraction ≠ 0) (fraction_lt : fraction < 2 ^ 23) :
    narrow (sign * 2 ^ 63 + widenMagnitude 0 fraction) = sign * 2 ^ 31 + fraction := by
  have log_lt : fraction.log2 < 23 := (Nat.log2_lt fraction_ne).mpr fraction_lt
  have significand : 2 ^ 52 + (fraction - 2 ^ fraction.log2) * 2 ^ (52 - fraction.log2) =
      fraction * 2 ^ (52 - fraction.log2) := by
    rw [← two_pow_log2_mul fraction_ne fraction_lt, ← Nat.add_mul,
      Nat.add_sub_cancel' (Nat.log2_self_le fraction_ne)]
  unfold widenMagnitude
  rw [if_neg (by decide), if_pos rfl, if_neg fraction_ne,
    narrow_parts sign_lt (by omega) (subnormal_fraction_lt fraction_ne fraction_lt)]
  unfold narrowMagnitude
  rw [if_neg (by omega), if_neg (by omega), significand,
    (by omega : 926 - (874 + fraction.log2) = 52 - fraction.log2), roundShift_mul]

/-- A number with the hidden bit keeps its fraction. -/
theorem narrow_widen_normal {sign exponent fraction : Nat} (sign_lt : sign < 2)
    (exponent_ne : exponent ≠ 0) (exponent_lt : exponent < 255) (fraction_lt : fraction < 2 ^ 23) :
    narrow (sign * 2 ^ 63 + widenMagnitude exponent fraction) =
      sign * 2 ^ 31 + (exponent * 2 ^ 23 + fraction) := by
  unfold widenMagnitude
  rw [if_neg (by omega), if_neg exponent_ne, narrow_parts sign_lt (by omega) (by omega)]
  have significand : 2 ^ 52 + fraction * 2 ^ 29 = (2 ^ 23 + fraction) * 2 ^ 29 := by omega
  unfold narrowMagnitude
  rw [if_neg (by omega), if_pos (by omega), significand, roundShift_mul]
  omega

/-- An infinity stays, a NaN becomes quiet. -/
theorem narrow_widen_special {sign : Nat} (sign_lt : sign < 2) (fraction : Nat) :
    narrow (sign * 2 ^ 63 + widenMagnitude 255 fraction) =
      sign * 2 ^ 31 + (255 * 2 ^ 23 + if fraction = 0 then 0 else quietFraction32 fraction) := by
  have payload := Nat.mod_lt fraction (by decide : 0 < 2 ^ 22)
  unfold widenMagnitude quietFraction32
  rw [if_pos rfl, narrow_parts sign_lt (by decide) (by split <;> omega)]
  unfold narrowMagnitude quietFraction32
  rw [if_pos rfl]
  split
  · rfl
  · rw [if_neg (by omega), Nat.mul_div_cancel _ (by decide), Nat.add_mod_left, Nat.mod_mod]

theorem narrow_widen {x : Nat} (bounded : x < 2 ^ 32) : narrow (widen x) = quiet32 x := by
  have sign_lt : sign32 x < 2 := Nat.mod_lt _ (by decide)
  have exponent_lt : exponent32 x < 2 ^ 8 := Nat.mod_lt _ (by decide)
  have fraction_lt : fraction32 x < 2 ^ 23 := Nat.mod_lt _ (by decide)
  have parts := pattern_eq bounded
  unfold widen quiet32
  by_cases special : exponent32 x = 255
  · rw [special] at parts ⊢
    rw [narrow_widen_special sign_lt]
    by_cases infinite : fraction32 x = 0
    · rw [infinite] at parts
      rw [if_pos infinite, if_neg fun nan => nan.2 infinite]
      exact parts.symm
    · rw [if_neg infinite, if_pos ⟨rfl, infinite⟩]
  · rw [if_neg fun nan => special nan.1]
    by_cases tiny : exponent32 x = 0
    · rw [tiny] at parts ⊢
      by_cases zero : fraction32 x = 0
      · rw [zero] at parts ⊢
        rw [narrow_widen_zero sign_lt]
        omega
      · rw [narrow_widen_subnormal sign_lt zero fraction_lt]
        omega
    · rw [narrow_widen_normal sign_lt tiny (by omega) fraction_lt]
      exact parts.symm

theorem widen_lt (x : Nat) : widen x < 2 ^ 64 := by
  have sign_lt : sign32 x < 2 := Nat.mod_lt _ (by decide)
  have exponent_lt : exponent32 x < 2 ^ 8 := Nat.mod_lt _ (by decide)
  have fraction_lt : fraction32 x < 2 ^ 23 := Nat.mod_lt _ (by decide)
  have magnitude_lt : widenMagnitude (exponent32 x) (fraction32 x) < 2 ^ 63 := by
    unfold widenMagnitude quietFraction32
    split
    · split <;> omega
    · split
      · split
        · decide
        · next nonzero =>
          have log_lt : (fraction32 x).log2 < 23 := (Nat.log2_lt nonzero).mpr fraction_lt
          have scaled := subnormal_fraction_lt nonzero fraction_lt
          have exponents : (874 + (fraction32 x).log2) * 2 ^ 52 ≤ 896 * 2 ^ 52 :=
            Nat.mul_le_mul_right _ (by omega)
          omega
      · omega
  unfold widen
  omega

theorem quiet32_eq_self_iff {x : Nat} (bounded : x < 2 ^ 32) :
    quiet32 x = x ↔ ¬ IsSignaling32 x := by
  have parts := pattern_eq bounded
  have fraction_lt : fraction32 x < 2 ^ 23 := Nat.mod_lt _ (by decide)
  unfold quiet32 IsSignaling32 quietFraction32
  split
  · next nan =>
    rw [nan.1] at parts
    omega
  · next number =>
    constructor
    · intro _ signaling
      exact number ⟨signaling.1, signaling.2.1⟩
    · intro _
      rfl

theorem quiet32_lt {x : Nat} (bounded : x < 2 ^ 32) : quiet32 x < 2 ^ 32 := by
  have sign_lt : sign32 x < 2 := Nat.mod_lt _ (by decide)
  unfold quiet32 quietFraction32
  split <;> omega

end Nanotins.Library.BinaryFloat
