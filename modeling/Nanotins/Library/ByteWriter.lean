import Mathlib.Data.List.Induction
import Nanotins.Library.ByteReader

/-!
Contract: byte strings placed in a buffer, and words read where they were
written.

Owns: the two word encodings, the relation `StandsAt` between a buffer, an
offset and the bytes found there, its decomposition along `++`, and what the
readers return there.

Does not own: any record layout.
-/

namespace Nanotins.Library

/-- `n` bytes of `value`, most significant byte first. -/
def bigBytes : Nat → Nat → Bytes
  | 0, _ => []
  | n + 1, value => bigBytes n (value / 256) ++ [UInt8.ofNat value]

/-- `n` bytes of `value`, least significant byte first. -/
def littleBytes : Nat → Nat → Bytes
  | 0, _ => []
  | n + 1, value => UInt8.ofNat value :: littleBytes n (value / 256)

@[simp] theorem length_bigBytes (n value : Nat) : (bigBytes n value).length = n := by
  induction n generalizing value with
  | zero => rfl
  | succ n inductionHypothesis => simp [bigBytes, inductionHypothesis]

@[simp] theorem length_littleBytes (n value : Nat) : (littleBytes n value).length = n := by
  induction n generalizing value with
  | zero => rfl
  | succ n inductionHypothesis => simp [littleBytes, inductionHypothesis]

/-- A big-endian word is its high part followed by its low part. -/
theorem bigBytes_add (m n value : Nat) :
    bigBytes (m + n) value = bigBytes m (value / 256 ^ n) ++ bigBytes n value := by
  induction n generalizing value with
  | zero => simp [bigBytes]
  | succ n inductionHypothesis =>
      rw [← Nat.add_assoc, bigBytes, inductionHypothesis, bigBytes, List.append_assoc,
        Nat.div_div_eq_div_mul, Nat.pow_succ']

theorem bigBytes_mod (n value : Nat) : bigBytes n (value % 256 ^ n) = bigBytes n value := by
  induction n generalizing value with
  | zero => rfl
  | succ n inductionHypothesis =>
      have low : value % 256 ^ (n + 1) % 256 = value % 256 :=
        Nat.mod_mod_of_dvd value ⟨256 ^ n, Nat.pow_succ'⟩
      have last : UInt8.ofNat (value % 256 ^ (n + 1)) = UInt8.ofNat value := by
        apply UInt8.toNat_inj.mp
        rw [UInt8.toNat_ofNat', UInt8.toNat_ofNat']
        exact low
      rw [bigBytes, bigBytes, last, Nat.pow_succ', Nat.mod_mul_right_div_self, inductionHypothesis]

/-- The number that a byte string spells, most significant byte first. -/
def bigValue (bytes : Bytes) : Nat := bytes.foldl (fun value byte => value * 256 + byte.toNat) 0

theorem bigValue_concat (bytes : Bytes) (byte : UInt8) :
    bigValue (bytes ++ [byte]) = bigValue bytes * 256 + byte.toNat := by
  rw [bigValue, List.foldl_append]
  rfl

theorem bigValue_lt (bytes : Bytes) : bigValue bytes < 256 ^ bytes.length := by
  induction bytes using List.reverseRecOn with
  | nil => decide
  | append_singleton bytes byte inductionHypothesis =>
      have last := byte.toNat_lt
      rw [bigValue_concat, List.length_append, List.length_singleton, Nat.pow_succ]
      omega

theorem bigBytes_bigValue (bytes : Bytes) : bigBytes bytes.length (bigValue bytes) = bytes := by
  induction bytes using List.reverseRecOn with
  | nil => rfl
  | append_singleton bytes byte inductionHypothesis =>
      have bound := byte.toNat_lt
      have high : (bigValue bytes * 256 + byte.toNat) / 256 = bigValue bytes := by omega
      have low : UInt8.ofNat (bigValue bytes * 256 + byte.toNat) = byte := by
        apply UInt8.toNat_inj.mp
        rw [UInt8.toNat_ofNat']
        omega
      rw [bigValue_concat, List.length_append, List.length_singleton, bigBytes, high, low,
        inductionHypothesis]

theorem bigValue_bigBytes (n value : Nat) : bigValue (bigBytes n value) = value % 256 ^ n := by
  induction n generalizing value with
  | zero => simp [bigBytes, bigValue, Nat.mod_one]
  | succ n inductionHypothesis =>
      have parts : value % 256 ^ (n + 1) = value % 256 + 256 * (value / 256 % 256 ^ n) := by
        rw [Nat.pow_succ', Nat.mod_mul]
      rw [bigBytes, bigValue_concat, inductionHypothesis, UInt8.toNat_ofNat', parts]
      omega

theorem readBig_eq_bigValue (bytes : Bytes) (off n : Nat) :
    readBig bytes off n = bigValue (readBytes bytes off n) := by
  induction n with
  | zero => rfl
  | succ n inductionHypothesis =>
      rw [readBig_succ, inductionHypothesis, readBytes_add]
      exact (bigValue_concat _ _).symm

theorem readLittle_eq_bigValue (bytes : Bytes) (off n : Nat) :
    readLittle bytes off n = bigValue (readBytes bytes off n).reverse := by
  induction n generalizing off with
  | zero => rfl
  | succ n inductionHypothesis =>
      rw [readLittle_succ, readBytes_succ, List.reverse_cons, bigValue_concat, inductionHypothesis]

theorem bigBytes_readBig (bytes : Bytes) (off n : Nat) :
    bigBytes n (readBig bytes off n) = readBytes bytes off n := by
  have spelled := bigBytes_bigValue (readBytes bytes off n)
  rwa [length_readBytes, ← readBig_eq_bigValue] at spelled

theorem readBig_of_readBytes {bytes : Bytes} {off n value : Nat}
    (same : readBytes bytes off n = bigBytes n value) :
    readBig bytes off n = value % 256 ^ n := by
  rw [readBig_eq_bigValue, same, bigValue_bigBytes]

/-- `bytes` is found in the buffer at offset `off`. -/
def StandsAt (buffer : Bytes) (off : Nat) (bytes : Bytes) : Prop :=
  ∃ before after, buffer = before ++ (bytes ++ after) ∧ before.length = off

namespace StandsAt

variable {buffer bytes first second : Bytes} {off : Nat}

theorem mk (before bytes after : Bytes) :
    StandsAt (before ++ (bytes ++ after)) before.length bytes :=
  ⟨before, after, rfl, rfl⟩

theorem length_le (stands : StandsAt buffer off bytes) : off + bytes.length ≤ buffer.length := by
  rcases stands with ⟨before, after, rfl, rfl⟩
  simp

theorem left (stands : StandsAt buffer off (first ++ second)) : StandsAt buffer off first := by
  rcases stands with ⟨before, after, rfl, rfl⟩
  exact ⟨before, second ++ after, by simp, rfl⟩

theorem right (stands : StandsAt buffer off (first ++ second)) :
    StandsAt buffer (off + first.length) second := by
  rcases stands with ⟨before, after, rfl, rfl⟩
  exact ⟨before ++ first, after, by simp, by simp⟩

theorem byteAt_eq (stands : StandsAt buffer off bytes) {i : Nat} (below : i < bytes.length) :
    byteAt buffer (off + i) = byteAt bytes i := by
  rcases stands with ⟨before, after, rfl, rfl⟩
  rw [← byteAt_drop, List.drop_left, byteAt_append_left _ _ below]

theorem head {byte : UInt8} (stands : StandsAt buffer off (byte :: bytes)) :
    byteAt buffer off = byte :=
  stands.byteAt_eq (Nat.succ_pos _)

theorem tail {byte : UInt8} (stands : StandsAt buffer off (byte :: bytes)) :
    StandsAt buffer (off + 1) bytes := by
  change StandsAt buffer off ([byte] ++ bytes) at stands
  exact stands.right

theorem readBig_eq {n value : Nat} (stands : StandsAt buffer off (bigBytes n value)) :
    readBig buffer off n = value % 256 ^ n := by
  induction n generalizing value with
  | zero => simp [Nat.mod_one]
  | succ n inductionHypothesis =>
      have last := stands.right.head
      rw [length_bigBytes] at last
      rw [readBig_succ, inductionHypothesis stands.left, last, Nat.pow_succ', Nat.mod_mul,
        UInt8.toNat_ofNat']
      omega

theorem readLittle_eq {n value : Nat} (stands : StandsAt buffer off (littleBytes n value)) :
    readLittle buffer off n = value % 256 ^ n := by
  induction n generalizing off value with
  | zero => simp [Nat.mod_one]
  | succ n inductionHypothesis =>
      rw [readLittle_succ, inductionHypothesis stands.tail, stands.head, Nat.pow_succ',
        Nat.mod_mul, UInt8.toNat_ofNat']
      omega

/-- The bytes of a big-endian word from `start` on spell its digits there. -/
theorem bigBytes_slice {size value start n : Nat} (stands : StandsAt buffer off (bigBytes size value))
    (inside : start + n ≤ size) :
    StandsAt buffer (off + start) (bigBytes n (value / 256 ^ (size - start - n))) := by
  rcases Nat.exists_eq_add_of_le inside with ⟨rest, rfl⟩
  rw [Nat.add_assoc, bigBytes_add start, bigBytes_add n] at stands
  have slice := stands.right.left
  rw [length_bigBytes] at slice
  rwa [show start + n + rest - start - n = rest by omega]

theorem readBytes_eq (stands : StandsAt buffer off bytes) :
    readBytes buffer off bytes.length = bytes := by
  induction bytes generalizing off with
  | nil => rfl
  | cons byte bytes inductionHypothesis =>
      have head := stands.head
      have rest := inductionHypothesis stands.tail
      show byteAt buffer off :: readBytes buffer (off + 1) bytes.length = _
      rw [head, rest]

/-- The items of a fixed-stride array stand at multiples of the stride. -/
theorem flatMap_getElem {α : Type} {encode : α → Bytes} {stride : Nat}
    (width : ∀ item, (encode item).length = stride) {items : List α}
    (stands : StandsAt buffer off (items.flatMap encode)) {i : Nat} (below : i < items.length) :
    StandsAt buffer (off + i * stride) (encode items[i]) := by
  induction items generalizing off i with
  | nil => exact absurd below (Nat.not_lt_zero i)
  | cons item items inductionHypothesis =>
      rw [List.flatMap_cons] at stands
      cases i with
      | zero =>
          rw [Nat.zero_mul]
          exact stands.left
      | succ i =>
          have later := inductionHypothesis stands.right (Nat.lt_of_succ_lt_succ below)
          rwa [width, Nat.add_assoc, Nat.add_comm stride, ← Nat.succ_mul] at later

end StandsAt

theorem readBytes_self (bytes : Bytes) : readBytes bytes 0 bytes.length = bytes := by
  have stands := StandsAt.mk [] bytes []
  rw [List.nil_append, List.append_nil] at stands
  exact stands.readBytes_eq

theorem readLittle_littleBytes (n value : Nat) :
    readLittle (littleBytes n value) 0 n = value % 256 ^ n := by
  have stands := StandsAt.mk [] (littleBytes n value) []
  rw [List.nil_append, List.append_nil] at stands
  exact stands.readLittle_eq

/-! ### Arrays of a fixed stride -/

section Stride

variable {α : Type} {encode encode' : α → Bytes} {stride : Nat}

theorem length_flatMap_of_stride (width : ∀ item, (encode item).length = stride)
    (items : List α) : (items.flatMap encode).length = items.length * stride := by
  simp [List.length_flatMap, width]

/-- The first items are the first bytes. -/
theorem take_flatMap_of_stride (width : ∀ item, (encode item).length = stride) (items : List α)
    (n : Nat) : (items.flatMap encode).take (n * stride) = (items.take n).flatMap encode := by
  induction items generalizing n with
  | nil => simp
  | cons item items inductionHypothesis =>
      cases n with
      | zero => simp
      | succ n =>
          rw [List.flatMap_cons, List.take_succ_cons, List.flatMap_cons, ← inductionHypothesis,
            Nat.succ_mul, Nat.add_comm, List.take_append, width, Nat.add_sub_cancel_left,
            List.take_of_length_le]
          rw [width]
          exact Nat.le_add_right _ _

/-- Arrays of one stride are equal if their items are. -/
theorem flatMap_eq_flatMap_iff (width : ∀ item, (encode item).length = stride)
    (width' : ∀ item, (encode' item).length = stride) (items : List α) :
    items.flatMap encode = items.flatMap encode' ↔ ∀ item ∈ items, encode item = encode' item := by
  induction items with
  | nil => simp
  | cons item items inductionHypothesis =>
      rw [List.flatMap_cons, List.flatMap_cons, List.forall_mem_cons, ← inductionHypothesis]
      constructor
      · intro same
        exact List.append_inj same ((width item).trans (width' item).symm)
      · intro same
        rw [same.1, same.2]

end Stride

end Nanotins.Library
