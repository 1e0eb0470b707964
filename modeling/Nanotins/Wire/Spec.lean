import Mathlib.Algebra.Group.Int.Defs
import Nanotins.Library.ByteReader

/-!
Contract: explicit-offset wire specs and the field reader, as `wire_spec.hpp`
computes them.

Owns: fields and their three kinds, `embed`, `specSize`, `readScalarM`,
`readFieldM`, and that reading a field of a spec stays inside the spec's extent.

Does not own: the spec of any protocol.

A pointer `p` of the source is a byte reader together with an offset.
-/

namespace Nanotins.Wire

open Nanotins.Library

inductive WireEndian where
  | little | big
deriving DecidableEq, Repr

/-- The three leaf fields: `named_field`, `named_bit_field`, `named_bytes_field`.
Widths are in bytes, except for a bit-field's offset and width. -/
inductive FieldKind where
  | scalar (size : Nat) (signed : Bool) (order : WireEndian)
  | bits (storageSize bitOffset width : Nat) (order : WireEndian)
  | bytes (count : Nat)
deriving DecidableEq, Repr

structure Field where
  name : String
  offset : Nat
  kind : FieldKind
deriving DecidableEq, Repr

/-- `sizeof` of what the field reads. -/
def FieldKind.extent : FieldKind → Nat
  | .scalar size _ _ => size
  | .bits storageSize _ _ _ => storageSize
  | .bytes count => count

def Field.endOffset (field : Field) : Nat := field.offset + field.kind.extent

/-- A flattened list of leaf fields. -/
abbrev WireSpec := List Field

/-- Splice a sub-spec's fields, shifted by `offset` and renamed by `tag`. -/
def embed (tag : String) (offset : Nat) (sub : WireSpec) : WireSpec :=
  sub.map fun field => { field with name := tag ++ field.name, offset := offset + field.offset }

/-- Fixed extent of the spec: the largest field end. -/
def specSize (spec : WireSpec) : Nat :=
  spec.foldl (fun mx field => if mx < field.endOffset then field.endOffset else mx) 0

/-- A decoded field; `uint` and `int` are the unsigned and signed integers. -/
inductive FieldValue where
  | uint (value : Nat)
  | int (value : Int)
  | bytes (value : Bytes)
deriving DecidableEq, Repr, Inhabited

section Reader

variable {m : Type → Type} [Monad m]

/-- Assemble `n` bytes at `off` in the given order. -/
def readScalarM (rd : Nat → m UInt8) (order : WireEndian) (off n : Nat) : m Nat :=
  match order with
  | .big => readBigM rd off n
  | .little => readLittleM rd off n

/-- The value of a bit-field in its storage unit: most significant bit first in
a big-endian unit, least significant first in a little-endian one. -/
def bitsOfUnit (storageSize bitOffset width : Nat) (order : WireEndian) (unit : Nat) : Nat :=
  let shift :=
    match order with
    | .big => storageSize * 8 - width - bitOffset
    | .little => bitOffset
  unit / 2 ^ shift % 2 ^ width

/-- Two's complement reading of an `n`-byte word. -/
def signedOfWord (n word : Nat) : Int :=
  if word < 2 ^ (8 * n - 1) then word else word - 2 ^ (8 * n)

/-- The unsigned integer in a scalar or bit-field at `base`. -/
def readUintM (rd : Nat → m UInt8) (base : Nat) (field : Field) : m Nat :=
  match field.kind with
  | .scalar n _ order => readScalarM rd order (base + field.offset) n
  | .bits n bitOffset width order => do
      let unit ← readScalarM rd order (base + field.offset) n
      return bitsOfUnit n bitOffset width order unit
  | .bytes _ => pure 0

/-- Read one field of the header at `base`. -/
def readFieldM (rd : Nat → m UInt8) (base : Nat) (field : Field) : m FieldValue :=
  match field.kind with
  | .bytes n => do
      let value ← readBytesM rd (base + field.offset) n
      return .bytes value
  | .scalar n true _ => do
      let word ← readUintM rd base field
      return .int (signedOfWord n word)
  | _ => do
      let value ← readUintM rd base field
      return .uint value

end Reader

def readUint (bytes : Bytes) (base : Nat) (field : Field) : Nat :=
  Id.run (readUintM (byteAt bytes) base field)

def readField (bytes : Bytes) (base : Nat) (field : Field) : FieldValue :=
  Id.run (readFieldM (byteAt bytes) base field)

/-! ### The extent of a spec -/

private theorem le_foldl_extent (spec : WireSpec) (mx : Nat) :
    mx ≤ spec.foldl (fun mx field => if mx < field.endOffset then field.endOffset else mx) mx := by
  induction spec generalizing mx with
  | nil => exact Nat.le_refl mx
  | cons field spec inductionHypothesis =>
      refine Nat.le_trans ?_ (inductionHypothesis _)
      dsimp only
      split <;> omega

private theorem endOffset_le_foldl {spec : WireSpec} {field : Field} (member : field ∈ spec)
    (mx : Nat) : field.endOffset ≤
      spec.foldl (fun mx field => if mx < field.endOffset then field.endOffset else mx) mx := by
  induction spec generalizing mx with
  | nil => contradiction
  | cons first spec inductionHypothesis =>
      rcases List.mem_cons.mp member with rfl | later
      · refine Nat.le_trans ?_ (le_foldl_extent spec _)
        dsimp only
        split <;> omega
      · exact inductionHypothesis later _

theorem endOffset_le_specSize {spec : WireSpec} {field : Field} (member : field ∈ spec) :
    field.endOffset ≤ specSize spec :=
  endOffset_le_foldl member 0

/-! ### Fields depend only on the bytes they span -/

theorem readScalar_congr {left right : Bytes} {leftOff rightOff n : Nat} (order : WireEndian)
    (agree : ∀ i < n, byteAt left (leftOff + i) = byteAt right (rightOff + i)) :
    Id.run (readScalarM (byteAt left) order leftOff n) =
      Id.run (readScalarM (byteAt right) order rightOff n) := by
  cases order
  · exact readLittle_congr agree
  · exact readBig_congr agree

theorem readField_congr {left right : Bytes} {leftOff rightOff : Nat} {field : Field}
    (agree : ∀ i < field.endOffset, byteAt left (leftOff + i) = byteAt right (rightOff + i)) :
    readField left leftOff field = readField right rightOff field := by
  obtain ⟨name, offset, kind⟩ := field
  have spanned : ∀ i < kind.extent,
      byteAt left (leftOff + offset + i) = byteAt right (rightOff + offset + i) := by
    intro i below
    rw [Nat.add_assoc, Nat.add_assoc]
    exact agree _ (Nat.add_lt_add_left below offset)
  cases kind with
  | scalar n signed order =>
      have word := readScalar_congr order spanned
      cases signed
      · exact congrArg FieldValue.uint word
      · exact congrArg (fun word => FieldValue.int (signedOfWord n word)) word
  | bits n bitOffset width order =>
      have unit := readScalar_congr order spanned
      exact congrArg (fun unit => FieldValue.uint (bitsOfUnit n bitOffset width order unit)) unit
  | bytes n =>
      have value : readBytes left (leftOff + offset) n = readBytes right (rightOff + offset) n :=
        readBytes_eq_iff.mpr spanned
      exact congrArg FieldValue.bytes value

/-- A copy of the bytes behind `off` reads as the buffer does there. -/
theorem readField_copy (bytes : Bytes) (off : Nat) {size : Nat} {field : Field}
    (inside : field.endOffset ≤ size) :
    readField ((bytes.drop off).take size) 0 field = readField bytes off field := by
  apply readField_congr
  intro i below
  rw [Nat.zero_add, byteAt_take _ (by omega), byteAt_drop]

/-! ### Guarded field reads -/

section Guarded

variable {bytes : Bytes} {lo hi base : Nat} {field : Field}

theorem readScalarM_guarded {off n : Nat} (order : WireEndian) (above : lo ≤ off)
    (below : off + n ≤ hi) :
    readScalarM (guardedByte bytes lo hi) order off n =
      some (Id.run (readScalarM (byteAt bytes) order off n)) := by
  cases order
  · exact readLittleM_guarded above below
  · exact readBigM_guarded above below

theorem readUintM_guarded (above : lo ≤ base) (below : base + field.endOffset ≤ hi) :
    readUintM (guardedByte bytes lo hi) base field = some (readUint bytes base field) := by
  obtain ⟨name, offset, kind⟩ := field
  simp only [Field.endOffset] at below
  cases kind with
  | scalar n signed order =>
      simp only [FieldKind.extent] at below
      exact readScalarM_guarded order (Nat.le_trans above (Nat.le_add_right _ _))
        (by dsimp only; omega)
  | bits n bitOffset width order =>
      simp only [FieldKind.extent] at below
      simp only [readUintM]
      rw [readScalarM_guarded order (by omega) (by omega)]
      rfl
  | bytes n => rfl

theorem readFieldM_guarded (above : lo ≤ base) (below : base + field.endOffset ≤ hi) :
    readFieldM (guardedByte bytes lo hi) base field = some (readField bytes base field) := by
  have word : readUintM (guardedByte bytes lo hi) base field = _ :=
    readUintM_guarded above below
  obtain ⟨name, offset, kind⟩ := field
  simp only [Field.endOffset] at below
  cases kind with
  | scalar n signed order =>
      cases signed <;> (rw [readFieldM, word]; rfl)
  | bits n bitOffset width order => rw [readFieldM, word]; rfl
  | bytes n =>
      simp only [FieldKind.extent] at below
      simp only [readFieldM]
      rw [readBytesM_guarded (by omega) (by omega)]
      rfl

/-- The fields of a spec that fits at `base` are read in range. -/
theorem readUintM_guarded_of_mem {spec : WireSpec} (member : field ∈ spec) (above : lo ≤ base)
    (fits : base + specSize spec ≤ hi) :
    readUintM (guardedByte bytes lo hi) base field = some (readUint bytes base field) := by
  have := endOffset_le_specSize member
  exact readUintM_guarded above (by omega)

theorem readFieldM_guarded_of_mem {spec : WireSpec} (member : field ∈ spec) (above : lo ≤ base)
    (fits : base + specSize spec ≤ hi) :
    readFieldM (guardedByte bytes lo hi) base field = some (readField bytes base field) := by
  have := endOffset_le_specSize member
  exact readFieldM_guarded above (by omega)

end Guarded

end Nanotins.Wire
