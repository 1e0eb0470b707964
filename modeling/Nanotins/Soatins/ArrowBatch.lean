import Mathlib.Data.List.OfFn
import Nanotins.Soatins.ArrowGlue
import Nanotins.Soatins.Overlay

/-!
Contract: the record batch that rows make, whichever export makes it.

Owns: `batchOf`, that both exports of `soa` give it for integers, `double` and
byte arrays, and that buffers read back to the values (`readColumn_flatMap`).

Does not own: booleans and `float`, which the exports store in different ways.
-/

namespace Nanotins.Soatins

open Nanotins.Library Nanotins.Wire

/-- The length, null count and children of a struct array. -/
structure RecordBatch where
  length : Nat
  nullCount : Nat
  children : List ArrowArray
deriving DecidableEq, Repr

def ArrowStruct.batch {n : Nat} (out : ArrowStruct n) : RecordBatch :=
  ⟨out.length, out.nullCount, List.ofFn out.children⟩

/-- One child for each column, with the values of the rows. -/
def batchOf (order : WireEndian) {Row : Type} (cols : List (Column Row)) (rows : List Row) :
    RecordBatch :=
  ⟨rows.length, 0, cols.map fun column =>
    bulkFilled order column.elem (rows.map column.get)⟩

/-- Integers, `double`, and byte arrays whose width `int` holds. -/
def ElemType.Uniform : ElemType → Prop
  | int _ => True
  | double => True
  | bytes width _ => width < 2 ^ 31
  | _ => False

instance : (elem : ElemType) → Decidable elem.Uniform
  | .bool => .isFalse id
  | .int _ => .isTrue trivial
  | .float => .isFalse id
  | .double => .isTrue trivial
  | .bytes width _ => inferInstanceAs (Decidable (width < 2 ^ 31))

section Uniform

variable {order : WireEndian} {elem : ElemType}

theorem ElemType.Uniform.fixedWidth {width : Nat} {positive : 0 < width}
    (uniform : (ElemType.bytes width positive).Uniform) :
    (ElemType.bytes width positive).fixedWidth = width := by
  have small : width < 2 ^ 31 := uniform
  unfold ElemType.fixedWidth Int.bmod
  dsimp only
  split <;> omega

theorem ElemType.Uniform.schemaAccepts (uniform : elem.Uniform) : elem.SchemaAccepts := by
  intro binary
  cases elem with
  | bytes width positive =>
      rw [uniform.fixedWidth]
      exact Int.natCast_pos.mpr positive
  | bool => exact uniform.elim
  | float => exact uniform.elim
  | int type => exact absurd binary (kind_int_ne type)
  | double => exact absurd binary (by decide)

theorem ElemType.Uniform.widthKept (uniform : elem.Uniform) : elem.WidthKept := by
  intro binary
  cases elem with
  | bytes width positive => exact uniform.fixedWidth.symm
  | bool => exact uniform.elim
  | float => exact uniform.elim
  | int type => exact absurd binary (kind_int_ne type)
  | double => exact absurd binary (by decide)

theorem ElemType.Uniform.stored_eq (uniform : elem.Uniform) (i : Nat) (data : Bytes)
    (value : elem.Value) : elem.stored order i data value = data ++ elem.memory order value := by
  cases elem with
  | bool => exact uniform.elim
  | float => exact uniform.elim
  | _ => rfl

/-- Appending values one by one fills a child as copying them does. -/
theorem ElemType.Uniform.appendAll_eq (uniform : elem.Uniform) (values : List elem.Value) :
    elem.appendAll order (.empty elem) values = bulkFilled order elem values := by
  induction values using List.reverseRecOn with
  | nil => rfl
  | append_singleton values value inductionHypothesis =>
      have last : elem.appendAll order (.empty elem) (values ++ [value]) =
          elem.append order (elem.appendAll order (.empty elem) values) value :=
        List.foldl_concat _ _ _ _
      rw [last, inductionHypothesis, ElemType.append, uniform.stored_eq, bulkFilled, bulkFilled,
        ArrowArray.appended, List.flatMap_append, List.length_append]
      rw [List.flatMap_singleton]
      rfl

end Uniform

/-! ### The exports -/

section Exports

variable {api : Nanoarrow} {order : WireEndian} {Row : Type} {cols : List (Column Row)} {N : Nat}

theorem ofFn_columns {α : Type} (f : Column Row → α) :
    (List.ofFn fun c : Fin cols.length => f (cols.get c)) = cols.map f :=
  List.ofFn_getElem_eq_map cols f

/-- The rows, appended to storage of extent `N` that held anything, are exported as
that batch. -/
def Soa.Exports (api : Nanoarrow) (order : WireEndian) (N : Nat) (cols : List (Column Row))
    (rows : List Row) (batch : RecordBatch) : Prop :=
  ∀ columns : (c : Fin cols.length) → Vector (cols.get c).elem.Value N,
    ∃ soa out, (Soa.mk columns 0).appendAll rows = some soa ∧ soa.toArrow api order = .ok out ∧
      out.batch = batch

/-- Growing storage made to hold the rows is exported as that batch. -/
def DynamicSoa.Exports (api : Nanoarrow) (cols : List (Column Row)) (rows : List Row)
    (batch : RecordBatch) : Prop :=
  ∃ (soa : DynamicSoa cols) (out : _), DynamicSoa.ofRows rows = some soa ∧
    soa.toArrow api = .ok out ∧ out.batch = batch

theorem Soa.exports_batchOf (documented : api.Documented order)
    (uniform : ∀ column ∈ cols, column.elem.Uniform) {rows : List Row} (room : rows.length ≤ N) :
    Soa.Exports api order N cols rows (batchOf order cols rows) := by
  intro columns
  obtain ⟨soa, filled, size, held⟩ : ∃ soa, (Soa.mk columns 0).appendAll rows = some soa ∧
      soa.size = 0 + rows.length ∧
      ∀ c : Fin cols.length, soa.rows c = [] ++ rows.map (cols.get c).get :=
    Soa.appendAll_eq (by rwa [Nat.zero_add])
  have inside : soa.size ≤ N := by
    rwa [size, Nat.zero_add]
  refine ⟨soa, _, filled, (Soa.toArrow_eq_ok_iff documented inside).mpr ⟨?_, rfl⟩, ?_⟩
  · intro c
    exact (uniform _ (List.get_mem cols c)).schemaAccepts
  · rw [ArrowStruct.batch, batchOf, ← ofFn_columns]
    simp only [held, size, Nat.zero_add, List.nil_append]

theorem DynamicSoa.exports_batchOf (documented : api.Documented order)
    (uniform : ∀ column ∈ cols, column.elem.Uniform) (rows : List Row) :
    DynamicSoa.Exports api cols rows (batchOf order cols rows) := by
  obtain ⟨soa, stored, size, held⟩ : ∃ soa : DynamicSoa cols,
      DynamicSoa.ofRows rows = some soa ∧ soa.size = rows.length ∧
      ∀ c, (soa.columns c).toList = rows.map (cols.get c).get :=
    DynamicSoa.ofRows_eq rows
  refine ⟨soa, _, stored, (DynamicSoa.toArrow_eq_ok_iff documented soa).mpr ⟨?_, .inr ?_, rfl⟩, ?_⟩
  · intro c
    exact (uniform _ (List.get_mem cols c)).schemaAccepts
  · intro c
    exact (uniform _ (List.get_mem cols c)).widthKept
  · rw [ArrowStruct.batch, batchOf, ← ofFn_columns]
    simp only [held, size, (uniform _ (List.get_mem cols _)).appendAll_eq]

end Exports

/-! ### Reading back -/

/-- The first `n` elements of a buffer. -/
def readColumn (order : WireEndian) (elem : ElemType) (n : Nat) (data : Bytes) :
    List elem.Value :=
  (List.range n).map fun i => elem.valueAt order data (i * elem.size)

section ReadBack

variable {order : WireEndian} {buffer : Bytes} {off : Nat}

theorem wordAt_of_standsAt {n word : Nat} (bounded : word < 256 ^ n)
    (stands : StandsAt buffer off (orderedBytes order n word)) : wordAt order buffer off n = word := by
  rw [← Nat.mod_eq_of_lt bounded]
  cases order with
  | big => exact stands.readBig_eq
  | little => exact stands.readLittle_eq

theorem valueAt_word {w n : Nat} (whole : 2 ^ w = 256 ^ n) (value : BitVec w)
    (stands : StandsAt buffer off (orderedBytes order n value.toNat)) :
    BitVec.ofNat w (wordAt order buffer off n) = value := by
  rw [wordAt_of_standsAt (whole ▸ value.isLt) stands]
  exact (BitVec.ofNat_toNat w value).trans (BitVec.setWidth_eq value)

/-- The memory of a value reads as the value. -/
theorem valueAt_of_standsAt {elem : ElemType} {value : elem.Value}
    (stands : StandsAt buffer off (elem.memory order value)) :
    elem.valueAt order buffer off = value := by
  cases elem with
  | bool =>
      have byte : byteAt buffer off = if value then 1 else 0 := stands.head
      change (byteAt buffer off != 0) = value
      rw [byte]
      cases (value : Bool) <;> rfl
  | int type => exact valueAt_word (two_pow_bits type) value stands
  | float => exact valueAt_word (by decide) value stands
  | double => exact valueAt_word (by decide) value stands
  | bytes width positive =>
      apply Vector.ext
      intro i inside
      change (Vector.ofFn fun i : Fin width => byteAt buffer (off + i))[i] = _
      have below : i < (Vector.toList value).length := by rwa [Vector.length_toList]
      rw [Vector.getElem_ofFn]
      refine (stands.byteAt_eq below).trans ?_
      exact (List.getD_eq_getElem _ 0 below).trans (Vector.getElem_toList _)

theorem readColumn_flatMap (order : WireEndian) (elem : ElemType) (values : List elem.Value) :
    readColumn order elem values.length (values.flatMap (elem.memory order)) = values := by
  have stands : StandsAt (values.flatMap (elem.memory order)) 0
      (values.flatMap (elem.memory order)) := ⟨[], [], (List.append_nil _).symm, rfl⟩
  unfold readColumn
  apply List.ext_getElem
  · rw [List.length_map, List.length_range]
  · intro i _ below
    rw [List.getElem_map, List.getElem_range]
    have here := stands.flatMap_getElem (length_memory order elem) below
    rw [Nat.zero_add] at here
    exact valueAt_of_standsAt here

end ReadBack

end Nanotins.Soatins
