import Mathlib.Data.List.Forall2
import Nanotins.Library.BitPacking
import Nanotins.Library.ByteWriter
import Nanotins.Wire.ProtocolSpecs

/-!
Contract: writing the fields of a header, and reading them back.

Owns: which values a field can hold, the header bytes of a list of values, the
specs whose fields follow each other without a gap (`packed`), and that reading
such a header gives the values (`readField_encodeFields`).

Does not own: the values that make a header well formed.
-/

namespace Nanotins.Wire

open Nanotins.Library

/-- The number of bits of a field. -/
def Field.bitWidth (field : Field) : Nat :=
  match field.kind with
  | .scalar n _ _ => 8 * n
  | .bits _ _ width _ => width
  | .bytes n => 8 * n

/-- The first bit of a field, counted from the most significant bit of the
header's first byte. -/
def Field.startBit (field : Field) : Nat :=
  match field.kind with
  | .bits _ bitOffset _ _ => 8 * field.offset + bitOffset
  | _ => 8 * field.offset

/-- A big-endian field of a spec of `size` bytes whose bits lie in its storage
unit. -/
def Field.wellPlaced (field : Field) (size : Nat) : Bool :=
  decide (field.endOffset ≤ size) &&
    match field.kind with
    | .scalar _ _ order => order == .big
    | .bits n bitOffset width order => order == .big && decide (bitOffset + width ≤ 8 * n)
    | .bytes _ => true

/-- The fields follow each other without a gap, from `bit` to the last bit. -/
def packedFrom (size : Nat) : Nat → WireSpec → Bool
  | bit, [] => bit == 8 * size
  | bit, field :: fields =>
      field.startBit == bit && field.wellPlaced size && packedFrom size (bit + field.bitWidth) fields

def packed (spec : WireSpec) : Bool := packedFrom (specSize spec) 0 spec

/-- The values a field can hold.  Signed fields are not encoded here. -/
inductive FieldFits : Field → FieldValue → Prop where
  | uint {name : String} {offset n word : Nat} {order : WireEndian} (bounded : word < 2 ^ (8 * n)) :
      FieldFits ⟨name, offset, .scalar n false order⟩ (.uint word)
  | bits {name : String} {offset n bitOffset width word : Nat} {order : WireEndian}
      (bounded : word < 2 ^ width) :
      FieldFits ⟨name, offset, .bits n bitOffset width order⟩ (.uint word)
  | bytes {name : String} {offset : Nat} (string : Bytes) :
      FieldFits ⟨name, offset, .bytes string.length⟩ (.bytes string)

/-- The number written for a value. -/
def FieldValue.word : FieldValue → Nat
  | .uint number => number
  | .int _ => 0
  | .bytes string => bigValue string

/-- The width and the number of each field. -/
def fieldBits (spec : WireSpec) (values : List FieldValue) : List (Nat × Nat) :=
  List.zipWith (fun field value => (field.bitWidth, value.word)) spec values

/-- A header with the given field values. -/
def encodeFields (spec : WireSpec) (values : List FieldValue) : Bytes :=
  bigBytes (specSize spec) (packBits (fieldBits spec values))

@[simp] theorem length_encodeFields (spec : WireSpec) (values : List FieldValue) :
    (encodeFields spec values).length = specSize spec :=
  length_bigBytes _ _

theorem two_pow_eight_mul (n : Nat) : 2 ^ (8 * n) = 256 ^ n := by
  rw [Nat.pow_mul]

theorem FieldFits.word_lt {field : Field} {value : FieldValue} (fits : FieldFits field value) :
    value.word < 2 ^ field.bitWidth := by
  cases fits with
  | uint bounded => exact bounded
  | bits bounded => exact bounded
  | bytes string =>
      show bigValue string < 2 ^ (8 * string.length)
      rw [two_pow_eight_mul]
      exact bigValue_lt string

theorem fieldBits_fit {spec : WireSpec} {values : List FieldValue}
    (fits : List.Forall₂ FieldFits spec values) :
    ∀ field ∈ fieldBits spec values, field.2 < 2 ^ field.1 := by
  induction fits with
  | nil => simp [fieldBits]
  | cons first _ inductionHypothesis =>
      exact List.forall_mem_cons.mpr ⟨first.word_lt, inductionHypothesis⟩

section Read

variable {buffer : Bytes} {base size number after : Nat} {field : Field} {value : FieldValue}

theorem readBig_of_number (stands : StandsAt buffer base (bigBytes size number)) {off n : Nat}
    (inside : off + n ≤ size) :
    readBig buffer (base + off) n = number / 256 ^ (size - off - n) % 256 ^ n :=
  (stands.bigBytes_slice inside).readBig_eq

/-- A bit-field of a storage unit is a digit of the header number. -/
theorem bitsOfUnit_of_number {n bitOffset width rest : Nat} (inUnit : bitOffset + width ≤ 8 * n) :
    bitsOfUnit n bitOffset width .big (number / 256 ^ rest % 256 ^ n) =
      number / 2 ^ (8 * rest + (8 * n - width - bitOffset)) % 2 ^ width := by
  have unit : 256 ^ n = 2 ^ (8 * n - width - bitOffset) * 2 ^ (width + bitOffset) := by
    rw [← two_pow_eight_mul, ← Nat.pow_add]
    congr 1
    omega
  have divides : 2 ^ width ∣ 2 ^ (width + bitOffset) := Nat.pow_dvd_pow 2 (Nat.le_add_right _ _)
  show number / 256 ^ rest % 256 ^ n / 2 ^ (n * 8 - width - bitOffset) % 2 ^ width = _
  rw [unit, Nat.mul_comm n 8, Nat.mod_mul_right_div_self, Nat.mod_mod_of_dvd _ divides,
    Nat.div_div_eq_div_mul, ← two_pow_eight_mul, ← Nat.pow_add]

/-- A field holds the value whose number stands at its digits. -/
theorem readField_of_digit (stands : StandsAt buffer base (bigBytes size number))
    (placed : field.wellPlaced size = true) (fits : FieldFits field value)
    (place : field.startBit + field.bitWidth + after = 8 * size)
    (digit : number / 2 ^ after % 2 ^ field.bitWidth = value.word) :
    readField buffer base field = value := by
  cases fits with
  | @uint name off n word order bounded =>
      simp only [Field.wellPlaced, Bool.and_eq_true, beq_iff_eq] at placed
      rcases placed with ⟨fieldInside, rfl⟩
      have inside : off + n ≤ size := of_decide_eq_true fieldInside
      simp only [Field.startBit, Field.bitWidth] at place digit
      have shift : after = 8 * (size - off - n) := by omega
      rw [shift, two_pow_eight_mul, two_pow_eight_mul, ← readBig_of_number stands inside] at digit
      exact congrArg FieldValue.uint digit
  | @bits name off n bitOffset width word order bounded =>
      simp only [Field.wellPlaced, Bool.and_eq_true, beq_iff_eq] at placed
      rcases placed with ⟨fieldInside, rfl, fieldInUnit⟩
      have inside : off + n ≤ size := of_decide_eq_true fieldInside
      have inUnit : bitOffset + width ≤ 8 * n := of_decide_eq_true fieldInUnit
      simp only [Field.startBit, Field.bitWidth] at place digit
      have shift : after = 8 * (size - off - n) + (8 * n - width - bitOffset) := by omega
      rw [shift, ← bitsOfUnit_of_number inUnit, ← readBig_of_number stands inside] at digit
      exact congrArg FieldValue.uint digit
  | @bytes name off string =>
      simp only [Field.wellPlaced, Bool.and_true] at placed
      have inside : off + string.length ≤ size := of_decide_eq_true placed
      simp only [Field.startBit, Field.bitWidth] at place digit
      have shift : after = 8 * (size - off - string.length) := by omega
      have found := stands.bigBytes_slice inside
      rw [← bigBytes_mod, ← two_pow_eight_mul (size - off - string.length), ← shift,
        ← two_pow_eight_mul string.length, digit] at found
      change StandsAt buffer (base + off) (bigBytes string.length (bigValue string)) at found
      rw [bigBytes_bigValue] at found
      exact congrArg FieldValue.bytes found.readBytes_eq

theorem packedFrom_width {bit : Nat} {spec : WireSpec} {values : List FieldValue}
    (fits : List.Forall₂ FieldFits spec values) (gapless : packedFrom size bit spec = true) :
    bit + packedWidth (fieldBits spec values) = 8 * size := by
  induction fits generalizing bit with
  | nil => simpa [packedFrom, fieldBits, packedWidth] using gapless
  | cons _ _ inductionHypothesis =>
      simp only [packedFrom, Bool.and_eq_true] at gapless
      have rest := inductionHypothesis gapless.2
      simp only [fieldBits, List.zipWith_cons_cons, packedWidth_cons] at rest ⊢
      omega

/-- The fields from `bit` on, behind any higher digits. -/
theorem readField_of_packedFrom {bit high : Nat} {spec : WireSpec} {values : List FieldValue}
    (fits : List.Forall₂ FieldFits spec values) (gapless : packedFrom size bit spec = true)
    (stands : StandsAt buffer base (bigBytes size
      (high * 2 ^ packedWidth (fieldBits spec values) + packBits (fieldBits spec values)))) :
    spec.map (readField buffer base) = values := by
  induction fits generalizing bit high with
  | nil => rfl
  | @cons field value spec values first rest inductionHypothesis =>
      simp only [packedFrom, Bool.and_eq_true, beq_iff_eq] at gapless
      rcases gapless with ⟨⟨start, placed⟩, gapless⟩
      have width := packedFrom_width rest gapless
      have number : high * 2 ^ packedWidth (fieldBits (field :: spec) (value :: values)) +
          packBits (fieldBits (field :: spec) (value :: values)) =
          (high * 2 ^ field.bitWidth + value.word) * 2 ^ packedWidth (fieldBits spec values) +
            packBits (fieldBits spec values) := by
        simp only [fieldBits, List.zipWith_cons_cons, packedWidth_cons, packBits]
        rw [Nat.pow_add, Nat.add_mul, Nat.mul_assoc, Nat.add_assoc]
      rw [number] at stands
      have head := readField_of_digit stands placed first (by omega)
        (digit_of_packBits first.word_lt (fieldBits_fit rest))
      rw [List.map_cons, head, inductionHypothesis gapless stands]

/-- Reading a header gives the values it was written from. -/
theorem readField_encodeFields {spec : WireSpec} {values : List FieldValue}
    (gapless : packed spec = true) (fits : List.Forall₂ FieldFits spec values)
    (stands : StandsAt buffer base (encodeFields spec values)) :
    spec.map (readField buffer base) = values := by
  rw [encodeFields, ← Nat.zero_add (packBits _), ← Nat.zero_mul (2 ^ _)] at stands
  exact readField_of_packedFrom fits gapless stands

/-- Field number `k` of a spec reads as value number `k`. -/
theorem readField_of_map {spec : WireSpec} {values : List FieldValue}
    (read : spec.map (readField buffer base) = values) (k : Nat) {field : Field}
    {value : FieldValue} (listed : spec[k]? = some field) (held : values[k]? = some value) :
    readField buffer base field = value := by
  have entry := congrArg (fun values => values[k]?) read
  rw [List.getElem?_map, listed, held] at entry
  exact Option.some.inj entry

end Read

end Nanotins.Wire
