import Nanotins.Library.ByteReader
import Nanotins.Library.Json
import Nanotins.Library.Numeral

/-!
Contract: what `printf` makes of numbers, and byte strings in hexadecimal.

Owns: `snprintf` into a buffer, the `%0nx` conversion and its inverse
(`digitsValue_paddedHex`), and byte strings as pairs of digits
(`readHexBytes_hexBytes`).

Does not own: what is written so.
-/

namespace Nanotins.Library

/-- What `snprintf` leaves of a text in a buffer of `size` bytes. -/
def snprintf (size : Nat) (text : Text) : Text := text.take (size - 1)

theorem snprintf_of_lt {size : Nat} {text : Text} (fits : text.length < size) :
    snprintf size text = text :=
  List.take_of_length_le (Nat.le_sub_one_of_lt fits)

/-- `%0nx`: lower-case digits, with zeros in front up to the width. -/
def paddedHex (width value : Nat) : Text := (Nat.toDigits 16 value).leftpad width '0'

/-- Two digits for each byte. -/
def hexBytes (bytes : Bytes) : Text := bytes.flatMap fun byte => paddedHex 2 byte.toNat

def readHexBytes : Text → Option Bytes
  | [] => some []
  | high :: low :: rest => (readHexBytes rest).map (UInt8.ofNat (digitsValue 16 [high, low]) :: ·)
  | _ => none

section PaddedHex

theorem digitIn_digitChar {digit : Nat} (below : digit < 16) :
    digitIn 16 digit.digitChar = some digit := by
  revert digit
  decide

theorem digitsValue_append (base : Nat) (front back : Text) :
    digitsValue base (front ++ back) =
      digitsValue base front * base ^ back.length + digitsValue base back := by
  induction back using List.reverseRecOn with
  | nil => simp [digitsValue]
  | append_singleton back c inductionHypothesis =>
      rw [← List.append_assoc, digitsValue_append_singleton, digitsValue_append_singleton,
        inductionHypothesis, List.length_append, List.length_singleton, Nat.pow_succ,
        Nat.add_mul, Nat.mul_assoc, Nat.add_assoc]

theorem digitsValue_toDigits (value : Nat) : digitsValue 16 (Nat.toDigits 16 value) = value := by
  induction value using Nat.strongRecOn with
  | ind value inductionHypothesis =>
      by_cases small : value < 16
      · rw [Nat.toDigits_of_lt_base small, digitsValue, List.foldl_cons, digitIn_digitChar small]
        simp
      · have digit : value % 16 < 16 := Nat.mod_lt _ (by decide)
        rw [Nat.toDigits_of_base_le (by decide) (Nat.not_lt.mp small), digitsValue_append,
          inductionHypothesis _ (by omega)]
        have last : digitsValue 16 [(value % 16).digitChar] = value % 16 := by
          rw [digitsValue, List.foldl_cons, digitIn_digitChar digit]
          simp
        rw [last, List.length_singleton]
        omega

theorem digitsValue_paddedHex (width value : Nat) : digitsValue 16 (paddedHex width value) = value := by
  rw [paddedHex, List.leftpad, digitsValue_append, digitsValue_toDigits]
  have zeros : ∀ n, digitsValue 16 (List.replicate n '0') = 0 := by
    intro n
    induction n with
    | zero => rfl
    | succ n inductionHypothesis =>
        rw [List.replicate_succ', digitsValue_append, inductionHypothesis]
        rfl
  rw [zeros, Nat.zero_mul, Nat.zero_add]

theorem length_paddedHex {width value : Nat} (positive : 0 < width) (fits : value < 16 ^ width) :
    (paddedHex width value).length = width := by
  have digits := (Nat.length_toDigits_le_iff (by decide) positive).mpr fits
  rw [paddedHex, List.length_leftpad, Nat.max_eq_left digits]

theorem mem_toDigits {value : Nat} {c : Char} (member : c ∈ Nat.toDigits 16 value) :
    ∃ digit < 16, c = Nat.digitChar digit := by
  induction value using Nat.strongRecOn with
  | ind value inductionHypothesis =>
      by_cases small : value < 16
      · rw [Nat.toDigits_of_lt_base small, List.mem_singleton] at member
        exact ⟨value, small, member⟩
      · rw [Nat.toDigits_of_base_le (by decide) (Nat.not_lt.mp small), List.mem_append,
          List.mem_singleton] at member
        rcases member with front | last
        · exact inductionHypothesis _ (by omega) front
        · exact ⟨value % 16, Nat.mod_lt _ (by decide), last⟩

theorem mem_paddedHex {width value : Nat} {c : Char} (member : c ∈ paddedHex width value) :
    ∃ digit < 16, c = Nat.digitChar digit := by
  rw [paddedHex, List.leftpad, List.mem_append] at member
  rcases member with zero | own
  · exact ⟨0, by decide, List.eq_of_mem_replicate zero⟩
  · exact mem_toDigits own

/-- Hexadecimal digits need no escape. -/
theorem plainText_paddedHex (width value : Nat) : Json.PlainText (paddedHex width value) := by
  have digits : ∀ digit < 16, Json.plainChar (Nat.digitChar digit) = true := by decide
  intro c member
  obtain ⟨digit, below, rfl⟩ := mem_paddedHex member
  exact digits digit below

end PaddedHex

theorem readHexBytes_hexBytes (bytes : Bytes) : readHexBytes (hexBytes bytes) = some bytes := by
  induction bytes with
  | nil => rfl
  | cons byte bytes inductionHypothesis =>
      have width : (paddedHex 2 byte.toNat).length = 2 :=
        length_paddedHex (by decide) byte.toNat_lt
      obtain ⟨high, low, digits⟩ := List.length_eq_two.mp width
      have value := digitsValue_paddedHex 2 byte.toNat
      rw [digits] at value
      rw [hexBytes] at inductionHypothesis ⊢
      rw [List.flatMap_cons, digits]
      change (readHexBytes (bytes.flatMap fun byte => paddedHex 2 byte.toNat)).map
        (UInt8.ofNat (digitsValue 16 [high, low]) :: ·) = _
      rw [inductionHypothesis, value, UInt8.ofNat_toNat]
      rfl

theorem length_hexBytes (bytes : Bytes) : (hexBytes bytes).length = 2 * bytes.length := by
  induction bytes with
  | nil => rfl
  | cons byte bytes inductionHypothesis =>
      rw [hexBytes] at inductionHypothesis ⊢
      rw [List.flatMap_cons, List.length_append, inductionHypothesis,
        length_paddedHex (by decide) byte.toNat_lt, List.length_cons]
      omega

theorem mem_hexBytes {bytes : Bytes} {c : Char} (member : c ∈ hexBytes bytes) :
    ∃ digit < 16, c = Nat.digitChar digit := by
  obtain ⟨byte, -, own⟩ := List.mem_flatMap.mp member
  exact mem_paddedHex own

theorem plainText_hexBytes (bytes : Bytes) : Json.PlainText (hexBytes bytes) := by
  intro c member
  obtain ⟨byte, -, digit⟩ := List.mem_flatMap.mp member
  exact plainText_paddedHex 2 byte.toNat c digit

/-! ### Parts with a separator -/

section Separated

variable {separator : Char} {parts : List Text}

/-- Parts of at most `k` characters, with a separator between them. -/
theorem length_intercalate_lt (separator : Char) {k : Nat} (nonempty : parts ≠ [])
    (each : ∀ part ∈ parts, part.length ≤ k) :
    (List.intercalate [separator] parts).length < parts.length * (k + 1) := by
  induction parts with
  | nil => contradiction
  | cons part parts inductionHypothesis =>
      obtain ⟨first, others⟩ := List.forall_mem_cons.mp each
      cases parts with
      | nil =>
          rw [List.intercalate_singleton, List.length_singleton, Nat.one_mul]
          exact Nat.lt_succ_of_le first
      | cons next parts =>
          have later := inductionHypothesis (List.cons_ne_nil _ _) others
          rw [List.intercalate_cons_cons, List.length_append, List.length_append,
            List.length_singleton, List.length_cons, Nat.add_mul]
          omega

theorem plainText_intercalate (plain : Json.plainChar separator = true)
    (each : ∀ part ∈ parts, Json.PlainText part) :
    Json.PlainText (List.intercalate [separator] parts) := by
  induction parts with
  | nil => exact List.forall_mem_nil _
  | cons part parts inductionHypothesis =>
      obtain ⟨first, others⟩ := List.forall_mem_cons.mp each
      cases parts with
      | nil => rwa [List.intercalate_singleton]
      | cons next parts =>
          rw [List.intercalate_cons_cons]
          exact List.forall_mem_append.mpr ⟨List.forall_mem_append.mpr
            ⟨first, List.forall_mem_singleton.mpr plain⟩, inductionHypothesis others⟩

end Separated

end Nanotins.Library
