import Nanotins.Soatins.Reflect
import Nanotins.Wire.Encode

/-!
Contract: the columns of a bit-field word.

Owns: what the extractor of a sub-field computes from the word, and that a
big-endian word is cut as the bit-fields of a wire spec cut it, with no bit lost or
shared.

Does not own: where in a struct the word is.
-/

namespace Nanotins.Soatins

open Nanotins.Library Nanotins.Wire

/-- The value of a column as a field of a wire spec has it.  Specs have no boolean
or floating-point fields; these count as unsigned integers. -/
def ElemType.fieldValue : (elem : ElemType) → elem.Value → FieldValue
  | bool, value => .uint value.toNat
  | int type, value => if type.signed then .int value.toInt else .uint value.toNat
  | float, value => .uint value.toNat
  | double, value => .uint value.toNat
  | bytes _ _, value => .bytes value.toList

/-! ### Words -/

/-- Shifting a byte in, in a type that has room for it. -/
theorem toNat_shift_in {w : Nat} (v : BitVec w) (byte : UInt8)
    (room : v.toNat * 256 + byte.toNat < 2 ^ w) :
    ((v <<< 8) ||| byte.toBitVec.setWidth w).toNat = v.toNat * 256 + byte.toNat := by
  have small : byte.toNat < 2 ^ 8 := byte.toNat_lt
  have shifted : v.toNat <<< 8 < 2 ^ w := by
    rw [Nat.shiftLeft_eq]
    exact Nat.lt_of_le_of_lt (Nat.le_add_right _ _) room
  have fits : byte.toNat < 2 ^ w := Nat.lt_of_le_of_lt (Nat.le_add_left _ _) room
  rw [BitVec.toNat_or, BitVec.toNat_shiftLeft, BitVec.toNat_setWidth]
  change v.toNat <<< 8 % 2 ^ w ||| byte.toNat % 2 ^ w = _
  rw [Nat.mod_eq_of_lt shifted, Nat.mod_eq_of_lt fits, ← Nat.shiftLeft_add_eq_or_of_lt small,
    Nat.shiftLeft_eq]

theorem two_pow_bits (type : IntType) : 2 ^ type.bits = 256 ^ type.size.bytes := by
  unfold IntType.bits
  rw [Nat.pow_mul]

/-- Shifting bytes in, one after the other, gives the number that they spell. -/
theorem toNat_foldl_shift_in (type : IntType) {bytes : Bytes}
    (short : bytes.length ≤ type.size.bytes) :
    (bytes.foldl (fun (v : type.Value) byte => (v <<< 8) ||| byte.toBitVec.setWidth type.bits)
      0).toNat = bigValue bytes := by
  induction bytes using List.reverseRecOn with
  | nil => exact BitVec.toNat_zero
  | append_singleton bytes byte inductionHypothesis =>
      rw [List.length_append, List.length_singleton] at short
      have front := inductionHypothesis (by omega)
      have room : bigValue (bytes ++ [byte]) < 2 ^ type.bits := by
        rw [two_pow_bits]
        apply Nat.lt_of_lt_of_le (bigValue_lt _)
        apply Nat.pow_le_pow_right (by decide)
        rwa [List.length_append]
      rw [bigValue_concat, ← front] at room ⊢
      rw [List.foldl_append]
      exact toNat_shift_in _ byte room

theorem toNat_hostBig (type : IntType) (raw : type.Raw) :
    (type.hostBig raw).toNat = bigValue raw.toList := by
  apply toNat_foldl_shift_in
  rw [Vector.length_toList]

theorem toNat_hostLittle (type : IntType) (raw : type.Raw) :
    (type.hostLittle raw).toNat = bigValue raw.toList.reverse := by
  apply toNat_foldl_shift_in
  rw [List.length_reverse, Vector.length_toList]

namespace BitsType

variable (bits : BitsType)

abbrev widths : List Nat := bits.fields.map SubField.width

theorem shiftAt_eq (j : Nat) : bits.shiftAt j = shiftOf bits.widths j := by
  unfold shiftAt shiftOf
  rw [← bits.sum_widths, List.map_take]

theorem bits_le (type : IntType) : type.bits ≤ 64 := by
  unfold IntType.bits
  cases type.size <;> decide

/-- Extending the word keeps its bits. -/
theorem testBit_wordHost (word : bits.Word) {i : Nat} (inside : i < bits.type.bits) :
    (bits.wordHost word).toNat.testBit i =
      (bits.type.host bits.order word).toNat.testBit i := by
  have wide := bits_le bits.type
  unfold wordHost
  split
  · rw [BitVec.testBit_toNat, BitVec.getLsbD_signExtend, BitVec.testBit_toNat, if_pos inside]
    simp [Nat.lt_of_lt_of_le inside wide]
  · rw [BitVec.testBit_toNat, BitVec.getLsbD_setWidth, BitVec.testBit_toNat]
    simp [Nat.lt_of_lt_of_le inside wide]

theorem toNat_maskAt (j : Fin bits.fields.length) (narrow : (bits.fields.get j).width < 64) :
    (bits.maskAt j).toNat = 2 ^ (bits.fields.get j).width - 1 := by
  have fits : 2 ^ (bits.fields.get j).width < 2 ^ 64 := Nat.pow_lt_pow_right (by decide) narrow
  have positive := Nat.two_pow_pos (bits.fields.get j).width
  have one : ((1 : BitVec 64) <<< (bits.fields.get j).width).toNat =
      2 ^ (bits.fields.get j).width := by
    rw [BitVec.toNat_shiftLeft, Nat.shiftLeft_eq]
    change 1 * 2 ^ (bits.fields.get j).width % 2 ^ 64 = _
    rw [Nat.one_mul, Nat.mod_eq_of_lt fits]
  unfold maskAt
  rw [BitVec.toNat_sub_of_le, one]
  · rfl
  · rw [BitVec.le_def, one]
    exact positive

theorem le_bits_uintForBits {width : Nat} (narrow : width < 64) :
    width ≤ (uintForBits width).bits := by
  unfold uintForBits IntType.bits
  split
  · assumption
  · split
    · assumption
    · split
      · assumption
      · exact Nat.le_of_lt narrow

/-- The bits of a sub-field lie in the word. -/
theorem shiftAt_add_le (j : Fin bits.fields.length) :
    bits.shiftAt j + (bits.fields.get j).width ≤ bits.type.bits := by
  have place := shiftOf_add (by rw [List.length_map]; exact j.isLt : j.val < bits.widths.length)
  rw [List.getElem_map] at place
  rw [shiftAt_eq, ← bits.sum_widths]
  exact place ▸ Nat.sub_le _ _

/-- The value of a column, as a wire spec has it. -/
def columnValue (j : Fin bits.fields.length) (word : bits.Word) : FieldValue :=
  (bits.column j).elem.fieldValue ((bits.column j).get word)

/-- A sub-field's column holds its bits of the word. -/
theorem columnValue_eq (j : Fin bits.fields.length) (narrow : (bits.fields.get j).width < 64)
    (word : bits.Word) :
    bits.columnValue j word = .uint
      (bitsAt (bits.type.host bits.order word).toNat (bits.shiftAt j)
        (bits.fields.get j).width) := by
  have cut : (bits.wordHost word).toNat >>> bits.shiftAt j % 2 ^ (bits.fields.get j).width =
      bitsAt (bits.type.host bits.order word).toNat (bits.shiftAt j) (bits.fields.get j).width := by
    apply Nat.eq_of_testBit_eq
    intro i
    unfold bitsAt
    rw [Nat.testBit_mod_two_pow, Nat.testBit_mod_two_pow, Nat.testBit_shiftRight,
      Nat.testBit_div_two_pow]
    by_cases inside : i < (bits.fields.get j).width
    · have inWord : bits.shiftAt j + i < bits.type.bits :=
        Nat.lt_of_lt_of_le (Nat.add_lt_add_left inside _) (bits.shiftAt_add_le j)
      rw [bits.testBit_wordHost word inWord, Nat.add_comm i]
    · rw [decide_eq_false inside, Bool.false_and, Bool.false_and]
  have fits := Nat.pow_le_pow_right (by decide : 0 < 2) (le_bits_uintForBits narrow)
  have below := Nat.mod_lt ((bits.wordHost word).toNat >>> bits.shiftAt j)
    (Nat.two_pow_pos (bits.fields.get j).width)
  change FieldValue.uint (((bits.wordHost word >>> bits.shiftAt j) &&&
    bits.maskAt j).setWidth (uintForBits (bits.fields.get j).width).bits).toNat = _
  rw [BitVec.toNat_setWidth, BitVec.toNat_and, BitVec.toNat_ushiftRight,
    bits.toNat_maskAt j narrow, Nat.and_two_pow_sub_one_eq_mod,
    Nat.mod_eq_of_lt (Nat.lt_of_lt_of_le below fits), cut]

/-- The field of a wire spec for sub-field `j` of a word at `offset`. -/
def field (offset : Nat) (j : Fin bits.fields.length) : Field :=
  bitField (bits.fields.get j).name offset bits.type.size.bytes
    ((bits.fields.take j).map SubField.width).sum (bits.fields.get j).width

/-- The two ways to count bits from the top give the same place. -/
theorem shift_field (j : Fin bits.fields.length) :
    bits.type.size.bytes * 8 - (bits.fields.get j).width -
      ((bits.fields.take j).map SubField.width).sum = bits.shiftAt j := by
  have inside : j.val < bits.widths.length := by
    rw [List.length_map]
    exact j.isLt
  have next := sum_take_succ inside
  rw [List.getElem_map, ← List.map_take, ← List.map_take] at next
  unfold shiftAt IntType.bits
  rw [next, Nat.mul_comm, Nat.sub_sub, Nat.add_comm (bits.fields.get j).width]
  rfl

theorem readField_field (offset : Nat) (j : Fin bits.fields.length) (bytes : Bytes) (base : Nat) :
    readField bytes base (bits.field offset j) = .uint
      (bitsAt (readBig bytes (base + offset) bits.type.size.bytes) (bits.shiftAt j)
        (bits.fields.get j).width) := by
  rw [← shift_field]
  rfl

theorem host_lt (word : bits.Word) :
    (bits.type.host bits.order word).toNat < 2 ^ bits.widths.sum := by
  rw [bits.sum_widths]
  exact BitVec.isLt _

/-- The sub-fields, shifted back, make the word. -/
theorem or_columnValue (narrow : ∀ j : Fin bits.fields.length, (bits.fields.get j).width < 64)
    (word : bits.Word) :
    (List.finRange bits.fields.length).foldl (fun acc j =>
      acc ||| (bits.columnValue j word).word <<< bits.shiftAt j) 0 =
        (bits.type.host bits.order word).toNat := by
  have whole := or_bitsAt (bits.host_lt word)
  rw [List.length_map, ← List.map_coe_finRange_eq_range, List.foldl_map] at whole
  refine Eq.trans ?_ whole
  congr 1
  funext acc j
  have inside : j.val < bits.widths.length := by
    rw [List.length_map]
    exact j.isLt
  rw [columnValue_eq bits j (narrow j), shiftAt_eq, List.getD_eq_getElem _ _ inside,
    List.getElem_map]
  rfl

/-- No bit of the word is in two sub-fields. -/
theorem columnValue_disjoint (narrow : ∀ j : Fin bits.fields.length, (bits.fields.get j).width < 64)
    (word : bits.Word) {i j : Fin bits.fields.length} (other : i ≠ j) :
    ((bits.columnValue i word).word <<< bits.shiftAt i) &&&
      ((bits.columnValue j word).word <<< bits.shiftAt j) = 0 := by
  have inside : ∀ j : Fin bits.fields.length, j.val < bits.widths.length := by
    intro j
    rw [List.length_map]
    exact j.isLt
  have apart := bitsAt_disjoint (bits.type.host bits.order word).toNat (inside i) (inside j)
    (fun same => other (Fin.ext same))
  rw [List.getElem_map, List.getElem_map] at apart
  rw [columnValue_eq bits i (narrow i), columnValue_eq bits j (narrow j), shiftAt_eq, shiftAt_eq]
  exact apart

end BitsType

end Nanotins.Soatins
