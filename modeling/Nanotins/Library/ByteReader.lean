import Mathlib.Algebra.Group.Nat.Defs
import Mathlib.Data.List.Basic
import Mathlib.Tactic.Common

/-!
Contract: reading multi-byte words out of a byte buffer, written once over an
arbitrary byte reader.

Owns: the total reader of a buffer, the guarded reader that faults outside a
half-open range, the two word assemblies (most and least significant byte
first) and their bounds, and the transfer from the total to the guarded reader.

Does not own: any record layout.

A decoder written over `Monad m` and `rd : Nat → m UInt8` runs as a plain
function on the total reader (`m := Id`) and as a bounds-checked program on the
guarded one (`m := Option`).  The second run returns `none` as soon as a single
read leaves the guarded range, so `= some _` says that every read was in range.
-/

namespace Nanotins.Library

abbrev Bytes := List UInt8

/-- The byte at offset `i`; past the end of the buffer the value is arbitrary
(here 0). -/
def byteAt (bytes : Bytes) (i : Nat) : UInt8 := bytes.getD i 0

/-- Read byte `i`, faulting outside `[lo, hi)`. -/
def guardedByte (bytes : Bytes) (lo hi i : Nat) : Option UInt8 :=
  if lo ≤ i ∧ i < hi then some (byteAt bytes i) else none

section Assembly

variable {m : Type → Type} [Monad m]

/-- Assemble `n` bytes from `off`, most significant byte first. -/
def readBigM (rd : Nat → m UInt8) (off : Nat) : Nat → m Nat
  | 0 => pure 0
  | n + 1 => do
      let high ← readBigM rd off n
      let byte ← rd (off + n)
      return high * 256 + byte.toNat

/-- Assemble `n` bytes from `off`, least significant byte first. -/
def readLittleM (rd : Nat → m UInt8) (off : Nat) : Nat → m Nat
  | 0 => pure 0
  | n + 1 => do
      let high ← readLittleM rd (off + 1) n
      let byte ← rd off
      return high * 256 + byte.toNat

/-- Copy `n` bytes from `off`. -/
def readBytesM (rd : Nat → m UInt8) (off : Nat) : Nat → m Bytes
  | 0 => pure []
  | n + 1 => do
      let byte ← rd off
      let rest ← readBytesM rd (off + 1) n
      return byte :: rest

end Assembly

/-- The big-endian word of `n` bytes at `off`. -/
def readBig (bytes : Bytes) (off n : Nat) : Nat :=
  Id.run (readBigM (byteAt bytes) off n)

/-- The little-endian word of `n` bytes at `off`. -/
def readLittle (bytes : Bytes) (off n : Nat) : Nat :=
  Id.run (readLittleM (byteAt bytes) off n)

/-- The `n` bytes at `off`. -/
def readBytes (bytes : Bytes) (off n : Nat) : Bytes :=
  Id.run (readBytesM (byteAt bytes) off n)

@[simp] theorem readBig_zero (bytes : Bytes) (off : Nat) : readBig bytes off 0 = 0 := rfl

theorem readBig_succ (bytes : Bytes) (off n : Nat) :
    readBig bytes off (n + 1) = readBig bytes off n * 256 + (byteAt bytes (off + n)).toNat :=
  rfl

@[simp] theorem readLittle_zero (bytes : Bytes) (off : Nat) : readLittle bytes off 0 = 0 := rfl

theorem readLittle_succ (bytes : Bytes) (off n : Nat) :
    readLittle bytes off (n + 1) =
      readLittle bytes (off + 1) n * 256 + (byteAt bytes off).toNat :=
  rfl

theorem byteAt_toNat_lt (bytes : Bytes) (i : Nat) : (byteAt bytes i).toNat < 256 :=
  UInt8.toNat_lt _

theorem readBig_lt (bytes : Bytes) (off n : Nat) : readBig bytes off n < 256 ^ n := by
  induction n with
  | zero => simp
  | succ n inductionHypothesis =>
      have last := byteAt_toNat_lt bytes (off + n)
      rw [readBig_succ, Nat.pow_succ]
      omega

theorem readLittle_lt (bytes : Bytes) (off n : Nat) : readLittle bytes off n < 256 ^ n := by
  induction n generalizing off with
  | zero => simp
  | succ n inductionHypothesis =>
      have first := byteAt_toNat_lt bytes off
      have rest := inductionHypothesis (off + 1)
      rw [readLittle_succ, Nat.pow_succ]
      omega

/-! ### Words depend only on the bytes they span -/

section Agreement

variable {left right : Bytes} {leftOff rightOff n : Nat}

theorem readBig_congr
    (agree : ∀ i < n, byteAt left (leftOff + i) = byteAt right (rightOff + i)) :
    readBig left leftOff n = readBig right rightOff n := by
  induction n with
  | zero => rfl
  | succ n inductionHypothesis =>
      rw [readBig_succ, readBig_succ, agree n (by omega),
        inductionHypothesis fun i below => agree i (by omega)]

theorem readLittle_congr
    (agree : ∀ i < n, byteAt left (leftOff + i) = byteAt right (rightOff + i)) :
    readLittle left leftOff n = readLittle right rightOff n := by
  induction n generalizing leftOff rightOff with
  | zero => rfl
  | succ n inductionHypothesis =>
      have tail : ∀ i < n, byteAt left (leftOff + 1 + i) = byteAt right (rightOff + 1 + i) := by
        intro i below
        have := agree (i + 1) (by omega)
        rwa [← Nat.add_assoc, Nat.add_right_comm, ← Nat.add_assoc,
          Nat.add_right_comm rightOff] at this
      have head := agree 0 (by omega)
      rw [Nat.add_zero, Nat.add_zero] at head
      rw [readLittle_succ, readLittle_succ, inductionHypothesis tail, head]

theorem readBytes_eq_map (bytes : Bytes) (off n : Nat) :
    readBytes bytes off n = (List.range n).map fun i => byteAt bytes (off + i) := by
  induction n generalizing off with
  | zero => rfl
  | succ n inductionHypothesis =>
      change byteAt bytes off :: readBytes bytes (off + 1) n = _
      rw [inductionHypothesis, List.range_succ_eq_map, List.map_cons, List.map_map]
      congr 1
      apply List.map_congr_left
      intro i _
      exact congrArg (byteAt bytes) (Nat.add_right_comm off 1 i)

@[simp] theorem length_readBytes (bytes : Bytes) (off n : Nat) :
    (readBytes bytes off n).length = n := by
  simp [readBytes_eq_map]

theorem readBytes_eq_iff :
    readBytes left leftOff n = readBytes right rightOff n ↔
      ∀ i < n, byteAt left (leftOff + i) = byteAt right (rightOff + i) := by
  rw [readBytes_eq_map, readBytes_eq_map, List.map_inj_left]
  simp only [List.mem_range]

theorem readBytes_succ (bytes : Bytes) (off n : Nat) :
    readBytes bytes off (n + 1) = byteAt bytes off :: readBytes bytes (off + 1) n :=
  rfl

theorem readBytes_add (bytes : Bytes) (off m n : Nat) :
    readBytes bytes off (m + n) = readBytes bytes off m ++ readBytes bytes (off + m) n := by
  induction m generalizing off with
  | zero => rw [Nat.zero_add]; rfl
  | succ m inductionHypothesis =>
      rw [Nat.add_right_comm, readBytes_succ, inductionHypothesis, readBytes_succ, List.cons_append,
        Nat.add_assoc off, Nat.add_comm 1]

/-- Cutting the bytes in front off a text. -/
theorem readBytes_eq_append {bytes first more : Bytes} {off n : Nat}
    (split : readBytes bytes off n = first ++ more) :
    first.length ≤ n ∧ readBytes bytes off first.length = first ∧
      readBytes bytes (off + first.length) (n - first.length) = more := by
  have width := congrArg List.length split
  rw [length_readBytes, List.length_append] at width
  obtain ⟨rest, rfl⟩ : ∃ rest, n = first.length + rest := ⟨more.length, width⟩
  rw [readBytes_add] at split
  obtain ⟨front, back⟩ := List.append_inj split (length_readBytes _ _ _)
  rw [Nat.add_sub_cancel_left]
  exact ⟨Nat.le_add_right _ _, front, back⟩

theorem readBytes_eq_cons {bytes more : Bytes} {byte : UInt8} {off n : Nat}
    (split : readBytes bytes off n = byte :: more) :
    0 < n ∧ byteAt bytes off = byte ∧ readBytes bytes (off + 1) (n - 1) = more := by
  obtain ⟨inside, first, rest⟩ : [byte].length ≤ n ∧ readBytes bytes off 1 = [byte] ∧
      readBytes bytes (off + 1) (n - 1) = more := readBytes_eq_append split
  exact ⟨inside, (List.cons.inj first).1, rest⟩

end Agreement

/-! ### The buffer operations seen through `byteAt` -/

theorem byteAt_append_left (bytes rest : Bytes) {i : Nat} (below : i < bytes.length) :
    byteAt (bytes ++ rest) i = byteAt bytes i := by
  simp [byteAt, List.getD_eq_getElem?_getD, List.getElem?_append_left below]

theorem byteAt_drop (bytes : Bytes) (base i : Nat) :
    byteAt (bytes.drop base) i = byteAt bytes (base + i) := by
  simp [byteAt, List.getD_eq_getElem?_getD, List.getElem?_drop]

theorem byteAt_take (bytes : Bytes) {count i : Nat} (below : i < count) :
    byteAt (bytes.take count) i = byteAt bytes i := by
  simp [byteAt, List.getD_eq_getElem?_getD, below]

/-! ### Guarded reads -/

section Guarded

variable {bytes : Bytes} {lo hi off n : Nat}

theorem guardedByte_eq {i : Nat} (above : lo ≤ i) (below : i < hi) :
    guardedByte bytes lo hi i = some (byteAt bytes i) :=
  if_pos ⟨above, below⟩

/-- A guard that stays inside a prefix does not see what follows it. -/
theorem guardedByte_append (kept cut : Bytes) (inside : hi ≤ kept.length) :
    guardedByte (kept ++ cut) lo hi = guardedByte kept lo hi := by
  funext i
  rw [guardedByte, guardedByte]
  split
  · rw [byteAt_append_left kept cut (by omega)]
  · rfl

/-- A program that stays inside a prefix has one result, whatever follows. -/
theorem eq_of_guarded {β : Type} (run : (Nat → Option UInt8) → Option β) {kept : Bytes} (cut : Bytes)
    {small whole : β} (inside : hi ≤ kept.length)
    (onWhole : run (guardedByte (kept ++ cut) lo hi) = some whole)
    (onKept : run (guardedByte kept lo hi) = some small) : whole = small := by
  rw [guardedByte_append kept cut inside, onKept] at onWhole
  exact (Option.some.inj onWhole).symm

theorem readBigM_guarded (above : lo ≤ off) (below : off + n ≤ hi) :
    readBigM (guardedByte bytes lo hi) off n = some (readBig bytes off n) := by
  induction n with
  | zero => rfl
  | succ n inductionHypothesis =>
      rw [readBigM, inductionHypothesis (by omega),
        guardedByte_eq (by omega) (by omega)]
      rfl

theorem readLittleM_guarded (above : lo ≤ off) (below : off + n ≤ hi) :
    readLittleM (guardedByte bytes lo hi) off n = some (readLittle bytes off n) := by
  induction n generalizing off with
  | zero => rfl
  | succ n inductionHypothesis =>
      rw [readLittleM, inductionHypothesis (by omega) (by omega),
        guardedByte_eq above (by omega)]
      rfl

theorem readBytesM_guarded (above : lo ≤ off) (below : off + n ≤ hi) :
    readBytesM (guardedByte bytes lo hi) off n = some (readBytes bytes off n) := by
  induction n generalizing off with
  | zero => rfl
  | succ n inductionHypothesis =>
      rw [readBytesM, guardedByte_eq above (by omega),
        inductionHypothesis (by omega) (by omega)]
      rfl

/-- A number that leaves the range faults. -/
theorem readBigM_fault (some : 0 < n) (outside : hi < off + n) :
    readBigM (guardedByte bytes lo hi) off n = none := by
  obtain ⟨n, rfl⟩ := Nat.exists_eq_add_of_lt some
  rw [Nat.zero_add] at outside ⊢
  have fault : guardedByte bytes lo hi (off + n) = none := if_neg (by omega)
  rw [readBigM, fault]
  cases readBigM (guardedByte bytes lo hi) off n <;> rfl

theorem readLittleM_fault (some : 0 < n) (outside : hi < off + n) :
    readLittleM (guardedByte bytes lo hi) off n = none := by
  induction n generalizing off with
  | zero => contradiction
  | succ n inductionHypothesis =>
      rw [readLittleM]
      by_cases inside : lo ≤ off ∧ off < hi
      · rw [inductionHypothesis (by omega) (by omega)]
        rfl
      · rw [guardedByte, if_neg inside]
        cases readLittleM (guardedByte bytes lo hi) (off + 1) n <;> rfl

/-- A copy that leaves the range faults. -/
theorem readBytesM_fault (some : 0 < n) (outside : hi < off + n) :
    readBytesM (guardedByte bytes lo hi) off n = none := by
  induction n generalizing off with
  | zero => contradiction
  | succ n inductionHypothesis =>
      rw [readBytesM]
      by_cases inside : lo ≤ off ∧ off < hi
      · rw [inductionHypothesis (by omega) (by omega)]
        cases guardedByte bytes lo hi off <;> rfl
      · rw [guardedByte, if_neg inside]
        rfl

/-- A pass over a list faults nowhere if no element does. -/
theorem mapM_eq_some {α β : Type} {values : List α} {guarded : α → Option β} {total : α → β}
    (each : ∀ value ∈ values, guarded value = some (total value)) :
    values.mapM guarded = some (values.map total) := by
  induction values with
  | nil => rfl
  | cons value values inductionHypothesis =>
      rw [List.mapM_cons, each value (by simp),
        inductionHypothesis fun later member => each later (by simp [member])]
      rfl

/-- A pass over a list faults if an element does. -/
theorem mapM_eq_none {α β : Type} {values : List α} {guarded : α → Option β} {faulting : α}
    (member : faulting ∈ values) (fault : guarded faulting = none) :
    values.mapM guarded = none := by
  induction values with
  | nil => contradiction
  | cons value values inductionHypothesis =>
      rw [List.mapM_cons]
      rcases List.mem_cons.mp member with rfl | later
      · rw [fault]
        rfl
      · rw [inductionHypothesis later]
        cases guarded value <;> rfl

end Guarded

end Nanotins.Library
