import Nanotins.Library.ByteReader
import Nanotins.Library.Drain

/-!
Contract: the cursor over SOME/IP TLV members of `someip_tlv.hpp`.

Owns: `SomeipTlvCursor.nextM` over an arbitrary byte reader, the members of a
cursor, and that it does not look outside its region.

Does not own: which payloads are TLV-serialized.
-/

namespace Nanotins.Children

open Nanotins.Library

/-- A member; `value` is the offset of its value, `none` for an empty one. -/
structure SomeipTlvRecord where
  dataId : Nat
  wireType : Nat
  length : Nat
  value : Option Nat
deriving DecidableEq, Repr

/-- A cursor at offset `p` of a region that stops before offset `stop`. -/
structure SomeipTlvCursor where
  p : Nat
  stop : Nat
deriving DecidableEq, Repr

section Cursor

variable {m : Type → Type} [Monad m] (rd : Nat → m UInt8)

/-- The length of a value and where it starts, from behind the tag at `q`. -/
def SomeipTlvCursor.lengthM (cursor : SomeipTlvCursor) (wt q : Nat) : m (Option (Nat × Nat)) := do
  match wt with
  | 0 => return some (1, q)
  | 1 => return some (2, q)
  | 2 => return some (4, q)
  | 3 => return some (8, q)
  | 5 =>
      if cursor.stop < q + 1 then return none
      else return some (← readBigM rd q 1, q + 1)
  | 6 =>
      if cursor.stop < q + 2 then return none
      else return some (← readBigM rd q 2, q + 2)
  | 7 =>
      if cursor.stop < q + 4 then return none
      else return some (← readBigM rd q 4, q + 4)
  -- the width of the length field of wire type 4 is not on the wire
  | _ => return none

/-- The next member and the cursor behind it; `none` at the end of the region,
at a member that would run past it and at wire type 4. -/
def SomeipTlvCursor.nextM (cursor : SomeipTlvCursor) :
    m (Option (SomeipTlvRecord × SomeipTlvCursor)) := do
  if cursor.stop < cursor.p + 2 then
    return none
  else
    let tag ← readBigM rd cursor.p 2
    let wt := tag / 2 ^ 12 % 8
    match ← cursor.lengthM rd wt (cursor.p + 2) with
    | none => return none
    | some (len, q) =>
        if cursor.stop < q + len then
          return none
        else
          return some (⟨tag % 2 ^ 12, wt, len, if len = 0 then none else some q⟩,
            { cursor with p := q + len })

/-- `while (c.next(r))`; a member takes two bytes of the region at least. -/
def SomeipTlvCursor.recordsM (cursor : SomeipTlvCursor) : m (List SomeipTlvRecord) :=
  drainM (SomeipTlvCursor.nextM rd) (cursor.stop - cursor.p) cursor

end Cursor

namespace SomeipTlvCursor

def length (pkt : Bytes) (cursor : SomeipTlvCursor) (wt q : Nat) : Option (Nat × Nat) :=
  Id.run (cursor.lengthM (byteAt pkt) wt q)

def next (pkt : Bytes) (cursor : SomeipTlvCursor) : Option (SomeipTlvRecord × SomeipTlvCursor) :=
  Id.run (cursor.nextM (byteAt pkt))

def records (pkt : Bytes) (cursor : SomeipTlvCursor) : List SomeipTlvRecord :=
  drain (next pkt) (cursor.stop - cursor.p) cursor

/-! ### The cursor moves forward inside its region -/

variable {pkt : Bytes} {cursor behind : SomeipTlvCursor} {record : SomeipTlvRecord}

theorem next_eq (pkt : Bytes) (cursor : SomeipTlvCursor) :
    cursor.next pkt =
      if cursor.stop < cursor.p + 2 then none
      else
        match cursor.length pkt (readBig pkt cursor.p 2 / 2 ^ 12 % 8) (cursor.p + 2) with
        | none => none
        | some (len, q) =>
            if cursor.stop < q + len then none
            else some (⟨readBig pkt cursor.p 2 % 2 ^ 12, readBig pkt cursor.p 2 / 2 ^ 12 % 8, len,
              if len = 0 then none else some q⟩, { cursor with p := q + len }) := by
  rw [next, nextM]
  split
  · rfl
  · rfl

theorem length_eq (pkt : Bytes) (cursor : SomeipTlvCursor) (wt q : Nat) :
    cursor.length pkt wt q =
      match wt with
      | 0 => some (1, q)
      | 1 => some (2, q)
      | 2 => some (4, q)
      | 3 => some (8, q)
      | 5 => if cursor.stop < q + 1 then none else some (readBig pkt q 1, q + 1)
      | 6 => if cursor.stop < q + 2 then none else some (readBig pkt q 2, q + 2)
      | 7 => if cursor.stop < q + 4 then none else some (readBig pkt q 4, q + 4)
      | _ => none := by
  unfold length lengthM
  split <;> rfl

/-- The value starts behind its length field. -/
theorem le_of_length {wt q len start : Nat} (found : cursor.length pkt wt q = some (len, start)) :
    q ≤ start := by
  rw [length_eq] at found
  split at found <;> (try split at found) <;> simp at found <;> omega

/-- A member ends where the cursor moves to, inside the region, and its value
ends there. -/
theorem next_some (taken : cursor.next pkt = some (record, behind)) :
    cursor.p < behind.p ∧ behind.p ≤ cursor.stop ∧ behind.stop = cursor.stop ∧
      ∀ value, record.value = some value →
        cursor.p < value ∧ value + record.length = behind.p := by
  rw [next_eq] at taken
  split at taken
  · contradiction
  split at taken
  · contradiction
  · next len q found =>
    have forward := le_of_length found
    split at taken
    · contradiction
    · next fits =>
      cases taken
      refine ⟨by dsimp only; omega, Nat.not_lt.mp fits, rfl, ?_⟩
      intro value here
      dsimp only at here
      split at here
      · contradiction
      · cases here
        exact ⟨by omega, rfl⟩

/-- The members of a cursor are those of the unbounded loop. -/
theorem records_eq (pkt : Bytes) (cursor : SomeipTlvCursor) :
    cursor.records pkt =
      match cursor.next pkt with
      | none => []
      | some (record, behind) => record :: behind.records pkt := by
  refine (drain_measure (fun state : SomeipTlvCursor => state.stop - state.p) ?_).trans ?_
  · intro state behind record taken
    have := next_some taken
    omega
  · cases next pkt cursor <;> rfl

/-! ### Guarded cursors -/

section Guarded

variable {lo hi : Nat}

theorem lengthM_guarded {wt q : Nat} (above : lo ≤ q) (below : cursor.stop ≤ hi) :
    cursor.lengthM (guardedByte pkt lo hi) wt q = some (cursor.length pkt wt q) := by
  unfold lengthM
  rw [length_eq]
  split
  · rfl
  · rfl
  · rfl
  · rfl
  · split
    · rfl
    · rw [readBigM_guarded above (by omega)]
      rfl
  · split
    · rfl
    · rw [readBigM_guarded above (by omega)]
      rfl
  · split
    · rfl
    · rw [readBigM_guarded above (by omega)]
      rfl
  · rfl

theorem nextM_guarded (above : lo ≤ cursor.p) (below : cursor.stop ≤ hi) :
    cursor.nextM (guardedByte pkt lo hi) = some (cursor.next pkt) := by
  rw [nextM, next_eq]
  split
  · rfl
  · rw [readBigM_guarded above (by omega)]
    dsimp only [bind, Option.bind]
    rw [lengthM_guarded (by omega) below]
    dsimp only
    split
    · rfl
    · exact (apply_ite some _ _ _).symm

/-- Walking the members reads the region only. -/
theorem recordsM_guarded (above : lo ≤ cursor.p) (below : cursor.stop ≤ hi) :
    cursor.recordsM (guardedByte pkt lo hi) = some (cursor.records pkt) := by
  apply drainM_eq_some fun state : SomeipTlvCursor => lo ≤ state.p ∧ state.stop ≤ hi
  · intro state inside
    exact nextM_guarded inside.1 inside.2
  · intro state behind record inside taken
    have := next_some taken
    omega
  · exact ⟨above, below⟩

end Guarded

end SomeipTlvCursor

end Nanotins.Children
