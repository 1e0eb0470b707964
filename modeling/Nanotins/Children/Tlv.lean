import Nanotins.Library.ByteReader
import Nanotins.Library.Drain

/-!
Contract: the cursor over `[type][len][value]` records and the fixed-stride
indexer of `tlv.hpp`.

Owns: `TlvCursor.nextM` over an arbitrary byte reader, the records of a cursor,
`repeatAt`, and that neither looks outside its region.

Does not own: which regions hold records.
-/

namespace Nanotins.Children

open Nanotins.Library

/-- Padding and length convention of a record space. -/
inductive TlvPad where
  | ipv6Options | ipv4Options | raw
deriving DecidableEq, Repr

/-- A record; `value` is the offset of its value, `none` for a one-byte pad. -/
structure TlvRecord where
  type : UInt8
  length : UInt8
  value : Option Nat
deriving DecidableEq, Repr

/-- What an option traversal reports of a record. -/
structure OptChild where
  type : UInt8
  length : UInt8
deriving DecidableEq, Repr

/-- A cursor at offset `p` of a region that stops before offset `stop`.  The
null cursor of the source is one whose region is empty. -/
structure TlvCursor where
  p : Nat
  stop : Nat
  pad : TlvPad
deriving DecidableEq, Repr

section Cursor

variable {m : Type → Type} [Monad m] (rd : Nat → m UInt8)

/-- The next record and the cursor behind it; `none` at the end of the region
or at a record that would run past it. -/
def TlvCursor.nextM (cursor : TlvCursor) : m (Option (TlvRecord × TlvCursor)) := do
  if cursor.stop ≤ cursor.p then
    return none
  else
    let t ← rd cursor.p
    if cursor.pad = .ipv6Options ∧ t = 0 then
      return some (⟨0, 0, none⟩, { cursor with p := cursor.p + 1 })
    else if cursor.pad = .ipv4Options then
      if t = 0 then
        -- the end of the option list exhausts the region
        return some (⟨0, 0, none⟩, { cursor with p := cursor.stop })
      else if t = 1 then
        return some (⟨1, 0, none⟩, { cursor with p := cursor.p + 1 })
      else if cursor.stop < cursor.p + 2 then
        return none
      else
        -- counts the whole option, type and length octets included
        let wlen ← rd (cursor.p + 1)
        if wlen < 2 ∨ cursor.stop < cursor.p + wlen.toNat then
          return none
        else
          return some (⟨t, wlen - 2, some (cursor.p + 2)⟩,
            { cursor with p := cursor.p + wlen.toNat })
    else if cursor.stop < cursor.p + 2 then
      return none
    else
      let len ← rd (cursor.p + 1)
      if cursor.stop < cursor.p + 2 + len.toNat then
        return none
      else
        return some (⟨t, len, some (cursor.p + 2)⟩,
          { cursor with p := cursor.p + 2 + len.toNat })

/-- `while (c.next(r))`; a record takes a byte of the region at least. -/
def TlvCursor.recordsM (cursor : TlvCursor) : m (List TlvRecord) :=
  drainM (TlvCursor.nextM rd) (cursor.stop - cursor.p) cursor

end Cursor

namespace TlvCursor

def next (pkt : Bytes) (cursor : TlvCursor) : Option (TlvRecord × TlvCursor) :=
  Id.run (cursor.nextM (byteAt pkt))

def records (pkt : Bytes) (cursor : TlvCursor) : List TlvRecord :=
  drain (next pkt) (cursor.stop - cursor.p) cursor

end TlvCursor

/-- The start of the `i`-th record of a fixed-stride array, unless it would run
past `stop`. -/
def repeatAt (base count stride stop i : Nat) : Option Nat :=
  if count ≤ i then none
  else if base + i * stride + stride ≤ stop then some (base + i * stride)
  else none

/-- The declared end of a header or message, cut at the packet's end. -/
def clampEnd (declared size : Nat) : Nat := if declared ≤ size then declared else size

theorem clampEnd_le (declared size : Nat) : clampEnd declared size ≤ size := by
  rw [clampEnd]
  split <;> omega

theorem le_clampEnd {low declared size : Nat} (declaredAbove : low ≤ declared)
    (sizeAbove : low ≤ size) : low ≤ clampEnd declared size := by
  rw [clampEnd]
  split <;> assumption

theorem repeatAt_some {base count stride stop i ptr : Nat}
    (found : repeatAt base count stride stop i = some ptr) :
    i < count ∧ ptr = base + i * stride ∧ ptr + stride ≤ stop := by
  rw [repeatAt] at found
  split at found
  · contradiction
  · split at found
    · cases found
      exact ⟨by omega, rfl, by assumption⟩
    · contradiction

/-! ### The cursor moves forward inside its region -/

namespace TlvCursor

variable {pkt : Bytes} {cursor behind : TlvCursor} {record : TlvRecord}

theorem next_eq (pkt : Bytes) (cursor : TlvCursor) :
    cursor.next pkt =
      if cursor.stop ≤ cursor.p then none
      else if cursor.pad = .ipv6Options ∧ byteAt pkt cursor.p = 0 then
        some (⟨0, 0, none⟩, { cursor with p := cursor.p + 1 })
      else if cursor.pad = .ipv4Options then
        if byteAt pkt cursor.p = 0 then some (⟨0, 0, none⟩, { cursor with p := cursor.stop })
        else if byteAt pkt cursor.p = 1 then
          some (⟨1, 0, none⟩, { cursor with p := cursor.p + 1 })
        else if cursor.stop < cursor.p + 2 then none
        else if byteAt pkt (cursor.p + 1) < 2 ∨
            cursor.stop < cursor.p + (byteAt pkt (cursor.p + 1)).toNat then none
        else some (⟨byteAt pkt cursor.p, byteAt pkt (cursor.p + 1) - 2, some (cursor.p + 2)⟩,
          { cursor with p := cursor.p + (byteAt pkt (cursor.p + 1)).toNat })
      else if cursor.stop < cursor.p + 2 then none
      else if cursor.stop < cursor.p + 2 + (byteAt pkt (cursor.p + 1)).toNat then none
      else some (⟨byteAt pkt cursor.p, byteAt pkt (cursor.p + 1), some (cursor.p + 2)⟩,
        { cursor with p := cursor.p + 2 + (byteAt pkt (cursor.p + 1)).toNat }) :=
  rfl

/-- A record ends where the cursor moves to, inside the region, and its value
lies between. -/
theorem next_some (taken : cursor.next pkt = some (record, behind)) :
    cursor.p < behind.p ∧ behind.p ≤ cursor.stop ∧ behind.stop = cursor.stop ∧
      behind.pad = cursor.pad ∧
      ∀ value, record.value = some value →
        cursor.p < value ∧ value + record.length.toNat = behind.p := by
  rw [next_eq] at taken
  split_ifs at taken with exhausted pad1 ipv4 eool nop short beyond short' beyond'
  · cases taken
    exact ⟨by simp, by dsimp only; omega, rfl, rfl, by simp⟩
  · cases taken
    exact ⟨by dsimp only; omega, Nat.le_refl _, rfl, rfl, by simp⟩
  · cases taken
    exact ⟨by simp, by dsimp only; omega, rfl, rfl, by simp⟩
  · cases taken
    obtain ⟨large, fits⟩ := not_or.mp beyond
    have wide : 2 ≤ (byteAt pkt (cursor.p + 1)).toNat :=
      UInt8.le_iff_toNat_le.mp (UInt8.not_lt.mp large)
    have length : (byteAt pkt (cursor.p + 1) - 2).toNat = (byteAt pkt (cursor.p + 1)).toNat - 2 :=
      UInt8.toNat_sub_of_le _ _ (UInt8.le_iff_toNat_le.mpr wide)
    refine ⟨by dsimp only; omega, by dsimp only; omega, rfl, rfl, ?_⟩
    intro value here
    cases here
    dsimp only
    omega
  · cases taken
    refine ⟨by dsimp only; omega, by dsimp only; omega, rfl, rfl, ?_⟩
    intro value here
    cases here
    exact ⟨by omega, rfl⟩

/-- The records of a cursor are those of the unbounded loop. -/
theorem records_eq (pkt : Bytes) (cursor : TlvCursor) :
    cursor.records pkt =
      match cursor.next pkt with
      | none => []
      | some (record, behind) => record :: behind.records pkt := by
  refine (drain_measure (fun state : TlvCursor => state.stop - state.p) ?_).trans ?_
  · intro state behind record taken
    have := next_some taken
    omega
  · cases next pkt cursor <;> rfl

/-- Every value lies in the region. -/
theorem value_of_mem_records (member : record ∈ cursor.records pkt) :
    ∀ value, record.value = some value →
      cursor.p < value ∧ value + record.length.toNat ≤ cursor.stop := by
  refine forall_mem_drain
    (fun state : TlvCursor => cursor.p ≤ state.p ∧ state.stop = cursor.stop)
    (fun record => ∀ value, record.value = some value →
      cursor.p < value ∧ value + record.length.toNat ≤ cursor.stop)
    ?_ ⟨Nat.le_refl _, rfl⟩ _ record member
  intro state behind first inside taken
  obtain ⟨forward, fits, stop, -, extent⟩ := next_some taken
  refine ⟨?_, by omega, by omega⟩
  intro value here
  have := extent value here
  omega

end TlvCursor

/-! ### Guarded cursors -/

section Guarded

variable {pkt : Bytes} {lo hi : Nat} {cursor : TlvCursor}

theorem TlvCursor.nextM_guarded (above : lo ≤ cursor.p) (below : cursor.stop ≤ hi) :
    cursor.nextM (guardedByte pkt lo hi) = some (cursor.next pkt) := by
  rw [nextM, next_eq]
  by_cases exhausted : cursor.stop ≤ cursor.p
  · rw [if_pos exhausted, if_pos exhausted]
    rfl
  rw [if_neg exhausted, if_neg exhausted, guardedByte_eq above (by omega)]
  dsimp only [bind, Option.bind]
  split_ifs with pad1 ipv4 eool nop short beyond short' beyond'
  · rfl
  · rfl
  · rfl
  · rfl
  · rw [guardedByte_eq (by omega) (by omega)]
    exact if_pos beyond
  · rw [guardedByte_eq (by omega) (by omega)]
    exact if_neg beyond
  · rfl
  · rw [guardedByte_eq (by omega) (by omega)]
    exact if_pos beyond'
  · rw [guardedByte_eq (by omega) (by omega)]
    exact if_neg beyond'

theorem TlvCursor.recordsM_guarded (above : lo ≤ cursor.p) (below : cursor.stop ≤ hi) :
    cursor.recordsM (guardedByte pkt lo hi) = some (cursor.records pkt) := by
  apply drainM_eq_some fun state : TlvCursor => lo ≤ state.p ∧ state.stop ≤ hi
  · intro state inside
    exact nextM_guarded inside.1 inside.2
  · intro state behind record inside taken
    have := next_some taken
    omega
  · exact ⟨above, below⟩

end Guarded

end Nanotins.Children
