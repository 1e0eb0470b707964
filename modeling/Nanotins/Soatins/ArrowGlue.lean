import Nanotins.Library.BinaryFloat
import Nanotins.Library.ByteWriter
import Nanotins.Soatins.Soa

/-!
Contract: `to_arrow` of `arrow_glue.hpp`, which exports columns as an Arrow struct
array with the library nanoarrow.

Owns: the two exports, one row after the other from a run-time extent and one
column at a time from a fixed one, and for which columns they agree
(`exportsAgree_iff`).

Does not own: nanoarrow.  Its functions are a parameter, and what its
documentation says of them is a hypothesis (`Documented`).
-/

namespace Nanotins.Soatins

open Nanotins.Library Nanotins.Wire

/-! ### Kinds -/

/-- `arrow_kind`. -/
inductive ArrowKind where
  | i8 | u8 | i16 | u16 | i32 | u32 | i64 | u64 | f32 | f64
  | boolean | string | largeBinary | fixedBinary
deriving DecidableEq, Repr

/-- The types of nanoarrow that kinds are mapped to. -/
inductive ArrowType where
  | int8 | uint8 | int16 | uint16 | int32 | uint32 | int64 | uint64 | float | double
  | bool | string | largeBinary | fixedSizeBinary | uninitialized
deriving DecidableEq, Repr

/-- `kind_for_scalar`, and the kind of byte arrays. -/
def ElemType.kind : ElemType → ArrowKind
  | bool => .boolean
  | float => .f32
  | double => .f64
  | int ⟨true, .one⟩ => .i8
  | int ⟨true, .two⟩ => .i16
  | int ⟨true, .four⟩ => .i32
  | int ⟨true, .eight⟩ => .i64
  | int ⟨false, .one⟩ => .u8
  | int ⟨false, .two⟩ => .u16
  | int ⟨false, .four⟩ => .u32
  | int ⟨false, .eight⟩ => .u64
  | bytes _ _ => .fixedBinary

/-- The width of byte arrays, cast to `int`. -/
def ElemType.fixedWidth : ElemType → Int
  | bytes width _ => Int.bmod width (2 ^ 32)
  | _ => 0

def mapArrowType : ArrowKind → ArrowType
  | .i8 => .int8
  | .u8 => .uint8
  | .i16 => .int16
  | .u16 => .uint16
  | .i32 => .int32
  | .u32 => .uint32
  | .i64 => .int64
  | .u64 => .uint64
  | .f32 => .float
  | .f64 => .double
  | .boolean => .bool
  | .string => .string
  | .largeBinary => .largeBinary
  | .fixedBinary => .fixedSizeBinary

/-! ### Memory -/

/-- The bytes of an `n`-byte word in memory. -/
def orderedBytes (order : WireEndian) (n word : Nat) : Bytes :=
  match order with
  | .little => littleBytes n word
  | .big => bigBytes n word

/-- The bytes of a value in the memory of a machine of that byte order. -/
def ElemType.memory (order : WireEndian) : (elem : ElemType) → elem.Value → Bytes
  | bool, value => [if value then 1 else 0]
  | int type, value => orderedBytes order type.size.bytes value.toNat
  | float, value => orderedBytes order 4 value.toNat
  | double, value => orderedBytes order 8 value.toNat
  | bytes _ _, value => value.toList

/-! ### nanoarrow -/

/-- A child of a struct schema. -/
structure ArrowSchema where
  type : ArrowType
  fixedWidth : Int
  name : String
  nullable : Bool
deriving DecidableEq, Repr

/-- A child of a struct array; `data` is its buffer number 1. -/
structure ArrowArray where
  type : ArrowType
  fixedWidth : Int
  length : Nat
  nullCount : Nat
  data : Bytes
deriving DecidableEq, Repr

structure ArrowStruct (n : Nat) where
  length : Nat
  nullCount : Nat
  children : Fin n → ArrowArray

/-- The functions of nanoarrow that the exports call; `none` is an error code. -/
structure Nanoarrow where
  schemaSetTypeStruct (n : Nat) : Option (Fin n → ArrowSchema)
  schemaSetType : ArrowSchema → ArrowType → Option ArrowSchema
  schemaSetTypeFixedSize : ArrowSchema → ArrowType → Int → Option ArrowSchema
  schemaSetName : ArrowSchema → String → Option ArrowSchema
  arrayInitFromSchema {n : Nat} : (Fin n → ArrowSchema) → Option (ArrowStruct n)
  arrayStartAppending {n : Nat} : ArrowStruct n → Option (ArrowStruct n)
  arrayAppendInt : ArrowArray → Int → Option ArrowArray
  arrayAppendUInt : ArrowArray → Nat → Option ArrowArray
  arrayAppendDouble : ArrowArray → BitVec 64 → Option ArrowArray
  arrayAppendBytes : ArrowArray → Bytes → Option ArrowArray
  bufferAppend : Bytes → Bytes → Option Bytes
  arrayFinishElement {n : Nat} : ArrowStruct n → Option (ArrowStruct n)
  arrayFinishBuildingDefault {n : Nat} : ArrowStruct n → Option (ArrowStruct n)

/-- Bit `i` of a packed buffer is bit `i % 8` of byte `i / 8`, counted from the
least significant one. -/
def appendBit (i : Nat) (data : Bytes) (value : Bool) : Bytes :=
  if i % 8 = 0 then data ++ [if value then 1 else 0]
  else data.modify (i / 8) fun byte => byte ||| UInt8.ofNat (if value then 2 ^ (i % 8) else 0)

/-- One element more, and the data it makes. -/
def ArrowArray.appended (child : ArrowArray) (data : Bytes) : ArrowArray :=
  { child with length := child.length + 1, data := data }

/-- The type of a child for values of that type. -/
def ArrowArray.TypeOf (elem : ElemType) (child : ArrowArray) : Prop :=
  child.type = mapArrowType elem.kind ∧ child.fixedWidth = elem.fixedWidth

/-- How many bytes the data buffer of so many elements has at least. -/
def ElemType.bufferSize (elem : ElemType) (length : Nat) : Nat :=
  match elem with
  | bool => (length + 7) / 8
  | bytes _ _ => elem.fixedWidth.toNat * length
  | _ => elem.size * length

/-- A child whose buffer holds its elements. -/
structure ArrowArray.Complete (elem : ElemType) (elements : Nat) (child : ArrowArray) : Prop where
  typeOf : child.TypeOf elem
  length : child.length = elements
  data : elem.bufferSize elements ≤ child.data.length

/-- What is documented of nanoarrow, on a machine of that byte order, where memory
does not run out: `ArrowBufferAppend` copies bytes; appending stores the bytes of
values, those of a `double` converted to `float` in a child of that type, and
packs booleans; byte arrays have the width of the schema, which is positive. -/
structure Nanoarrow.Documented (api : Nanoarrow) (order : WireEndian) : Prop where
  schemaSetTypeStruct (n : Nat) : ∃ children, api.schemaSetTypeStruct n = some children
  schemaSetType (child : ArrowSchema) (type : ArrowType) (plain : type ≠ .fixedSizeBinary) :
    api.schemaSetType child type = some { child with type := type, fixedWidth := 0 }
  schemaSetTypeFixedSize (child : ArrowSchema) (width : Int) :
    api.schemaSetTypeFixedSize child .fixedSizeBinary width =
      if 0 < width then some { child with type := .fixedSizeBinary, fixedWidth := width } else none
  schemaSetName (child : ArrowSchema) (name : String) :
    api.schemaSetName child name = some { child with name := name }
  arrayInitFromSchema {n : Nat} (children : Fin n → ArrowSchema)
    (typed : ∀ c, (children c).type ≠ .uninitialized) :
    api.arrayInitFromSchema children =
      some ⟨0, 0, fun c => ⟨(children c).type, (children c).fixedWidth, 0, 0, []⟩⟩
  arrayStartAppending {n : Nat} (array : ArrowStruct n)
    (empty : ∀ c, (array.children c).length = 0 ∧ (array.children c).data = []) :
    api.arrayStartAppending array = some array
  arrayAppendInt_bool (child : ArrowArray) (typeOf : child.TypeOf .bool) (value : Bool) :
    api.arrayAppendInt child (if value then 1 else 0) =
      some (child.appended (appendBit child.length child.data value))
  arrayAppendInt {type : IntType} (signed : type.signed = true) (child : ArrowArray)
    (typeOf : child.TypeOf (.int type)) (value : type.Value) :
    api.arrayAppendInt child value.toInt =
      some (child.appended (child.data ++ (ElemType.int type).memory order value))
  arrayAppendUInt {type : IntType} (unsigned : type.signed = false) (child : ArrowArray)
    (typeOf : child.TypeOf (.int type)) (value : type.Value) :
    api.arrayAppendUInt child value.toNat =
      some (child.appended (child.data ++ (ElemType.int type).memory order value))
  arrayAppendDouble_float (child : ArrowArray) (typeOf : child.TypeOf .float) (value : BitVec 64) :
    api.arrayAppendDouble child value = some (child.appended
      (child.data ++ orderedBytes order 4 (BinaryFloat.narrow value.toNat)))
  arrayAppendDouble (child : ArrowArray) (typeOf : child.TypeOf .double) (value : BitVec 64) :
    api.arrayAppendDouble child value =
      some (child.appended (child.data ++ orderedBytes order 8 value.toNat))
  arrayAppendBytes (child : ArrowArray) (type : child.type = .fixedSizeBinary) (value : Bytes) :
    api.arrayAppendBytes child value =
      if (value.length : Int) = child.fixedWidth then some (child.appended (child.data ++ value))
      else none
  bufferAppend (data more : Bytes) : api.bufferAppend data more = some (data ++ more)
  arrayFinishElement {n : Nat} (array : ArrowStruct n)
    (appended : ∀ c, (array.children c).length = array.length + 1) :
    api.arrayFinishElement array = some { array with length := array.length + 1 }
  arrayFinishBuildingDefault {n : Nat} (array : ArrowStruct n) (elems : Fin n → ElemType)
    (complete : ∀ c, (array.children c).Complete (elems c) array.length) :
    api.arrayFinishBuildingDefault array = some array

/-! ### Exports -/

/-- The result of a call, or an error. -/
def check {ε α : Type} (error : ε) : Option α → Except ε α
  | some result => .ok result
  | none => .error error

/-- `for_each_column`, with a body that does nothing after a failure. -/
def forEachColumn {ε α : Type} : {n : Nat} → (Fin n → Except ε α) → Except ε (Fin n → α)
  | 0, _ => .ok Fin.elim0
  | _ + 1, body => do
      let first ← body 0
      let rest ← forEachColumn fun c => body c.succ
      return Fin.cases first rest

section Exports

variable (api : Nanoarrow)

def ntSetColumnSchema (child : ArrowSchema) (kind : ArrowKind) (fixedWidth : Int) (name : String) :
    Except String ArrowSchema := do
  let typed ← check ("failed to set column type for " ++ name)
    (if kind = .fixedBinary then api.schemaSetTypeFixedSize child .fixedSizeBinary fixedWidth
    else api.schemaSetType child (mapArrowType kind))
  let named ← check ("failed to set column name " ++ name) (api.schemaSetName typed name)
  return { named with nullable := false }

/-- The type of the value decides which function appends it. -/
def ntAppendValue (child : ArrowArray) : (elem : ElemType) → elem.Value → Option ArrowArray
  | .bool, value => api.arrayAppendInt child (if value then 1 else 0)
  | .float, value =>
      api.arrayAppendDouble child (BitVec.ofNat 64 (BinaryFloat.widen value.toNat))
  | .double, value => api.arrayAppendDouble child value
  | .int type, value =>
      if type.signed then api.arrayAppendInt child value.toInt
      else api.arrayAppendUInt child value.toNat
  | .bytes _ _, value => api.arrayAppendBytes child value.toList

variable {Row : Type} {cols : List (Column Row)}

/-- The children hold one column each. -/
def ntFillStructSchema (parent : Fin cols.length → ArrowSchema) :
    Except String (Fin cols.length → ArrowSchema) :=
  forEachColumn fun c =>
    ntSetColumnSchema api (parent c) (cols.get c).elem.kind (cols.get c).elem.fixedWidth
      (cols.get c).name

/-- Row `i`, without finishing the element. -/
def ntAppendScalarRow (parent : Fin cols.length → ArrowArray) (s : DynamicSoa cols)
    (i : Fin s.size) : Except Unit (Fin cols.length → ArrowArray) :=
  forEachColumn fun c => check () (ntAppendValue api (parent c) (cols.get c).elem (s.columns c)[i])

variable (cols) in
def arrowSchema : Except String (Fin cols.length → ArrowSchema) := do
  let out ← check "failed to allocate struct schema" (api.schemaSetTypeStruct cols.length)
  ntFillStructSchema api out

variable (cols) in
/-- How both exports begin. -/
def initArray : Except String (ArrowStruct cols.length) := do
  let schema ← arrowSchema api cols
  check "failed to init struct array" (api.arrayInitFromSchema schema)

/-- One pass of the loop over the rows. -/
def appendRow (s : DynamicSoa cols) (out : ArrowStruct cols.length) (i : Fin s.size) :
    Except String (ArrowStruct cols.length) := do
  let children ← (ntAppendScalarRow api out.children s i).mapError
    fun _ => "failed to append scalar column value"
  check "failed to finish struct element" (api.arrayFinishElement { out with children := children })

/-- `to_arrow` of a `soa<T>`: one append for each value. -/
def DynamicSoa.toArrow (s : DynamicSoa cols) : Except String (ArrowStruct cols.length) := do
  let out ← initArray api cols
  let out ← check "failed to start appending" (api.arrayStartAppending out)
  let out ← (List.finRange s.size).foldlM (appendRow api s) out
  check "failed to finalize struct array" (api.arrayFinishBuildingDefault out)

/-- The first `n` elements of a column, copied at once. -/
def bulkFill (order : WireEndian) {N : Nat} (n : Nat) (column : Column Row)
    (values : Vector column.elem.Value N) (child : ArrowArray) : Except String ArrowArray := do
  let bytes := n * column.elem.size
  let data ← check ("failed to bulk-fill column " ++ column.name)
    (api.bufferAppend child.data
      ((values.toList.flatMap (column.elem.memory order)).take bytes))
  return { child with data := data, length := n, nullCount := 0 }

/-- `to_arrow` of a `soa<T, N>`: one copy for each column. -/
def Soa.toArrow (order : WireEndian) {N : Nat} (s : Soa cols N) :
    Except String (ArrowStruct cols.length) := do
  let out ← initArray api cols
  let children ← forEachColumn fun c =>
    bulkFill api order s.size (cols.get c) (s.columns c) (out.children c)
  check "failed to finalize fixed struct array"
    (api.arrayFinishBuildingDefault ⟨s.size, 0, children⟩)

end Exports

/-! ### Results of calls -/

theorem bind_eq_ok_iff {ε α β : Type} {first : Except ε α} {next : α → Except ε β} {result : β} :
    first >>= next = .ok result ↔ ∃ value, first = .ok value ∧ next value = .ok result := by
  cases first with
  | error error =>
      constructor
      · intro failed
        contradiction
      · intro succeeded
        obtain ⟨value, failed, -⟩ := succeeded
        contradiction
  | ok value =>
      constructor
      · intro continued
        exact ⟨value, rfl, continued⟩
      · intro succeeded
        obtain ⟨_, same, continued⟩ := succeeded
        cases same
        exact continued

theorem check_eq_ok_iff {ε α : Type} {error : ε} {call : Option α} {result : α} :
    check error call = .ok result ↔ call = some result := by
  cases call <;> simp [check]

theorem mapError_eq_ok_iff {ε ε' α : Type} {call : Except ε α} {error : ε → ε'} {result : α} :
    call.mapError error = .ok result ↔ call = .ok result := by
  cases call <;> simp [Except.mapError]

/-- A loop over the columns succeeds if its body does for each. -/
theorem forEachColumn_eq_ok_iff {ε α : Type} {n : Nat} {body : Fin n → Except ε α}
    {results : Fin n → α} :
    forEachColumn body = .ok results ↔ ∀ c, body c = .ok (results c) := by
  induction n with
  | zero =>
      constructor
      · intro _ c
        exact c.elim0
      · intro _
        exact congrArg Except.ok (funext fun c => c.elim0)
  | succ n inductionHypothesis =>
      unfold forEachColumn
      rw [bind_eq_ok_iff]
      constructor
      · intro ran
        obtain ⟨first, here, ran⟩ := ran
        obtain ⟨rest, there, built⟩ := bind_eq_ok_iff.mp ran
        cases built
        intro c
        cases c using Fin.cases with
        | zero => exact here
        | succ c => exact inductionHypothesis.mp there c
      · intro each
        refine ⟨results 0, each 0, bind_eq_ok_iff.mpr ⟨fun c => results c.succ, ?_, ?_⟩⟩
        · exact inductionHypothesis.mpr fun c => each c.succ
        · apply congrArg Except.ok
          funext c
          cases c using Fin.cases <;> rfl

/-! ### Schema -/

/-- Byte arrays are given a positive width. -/
def ElemType.SchemaAccepts (elem : ElemType) : Prop :=
  elem.kind = .fixedBinary → 0 < elem.fixedWidth

/-- The cast keeps the width of byte arrays. -/
def ElemType.WidthKept (elem : ElemType) : Prop :=
  elem.kind = .fixedBinary → (elem.size : Int) = elem.fixedWidth

theorem fixedWidth_of_plain {elem : ElemType} (plain : elem.kind ≠ .fixedBinary) :
    elem.fixedWidth = 0 := by
  cases elem with
  | bytes width positive => exact absurd rfl plain
  | _ => rfl

theorem mapArrowType_eq_fixedSizeBinary_iff {kind : ArrowKind} :
    mapArrowType kind = .fixedSizeBinary ↔ kind = .fixedBinary := by
  cases kind <;> decide

theorem mapArrowType_ne_uninitialized (kind : ArrowKind) : mapArrowType kind ≠ .uninitialized := by
  cases kind <;> decide

/-- A child without elements. -/
def ArrowArray.empty (elem : ElemType) : ArrowArray :=
  ⟨mapArrowType elem.kind, elem.fixedWidth, 0, 0, []⟩

section Documented

variable {api : Nanoarrow} {order : WireEndian}

theorem ntSetColumnSchema_eq_ok_iff (documented : api.Documented order) {child set : ArrowSchema}
    {elem : ElemType} {name : String} :
    ntSetColumnSchema api child elem.kind elem.fixedWidth name = .ok set ↔
      elem.SchemaAccepts ∧ set = ⟨mapArrowType elem.kind, elem.fixedWidth, name, false⟩ := by
  have typed : ∀ typed : ArrowSchema,
      (if elem.kind = .fixedBinary then
        api.schemaSetTypeFixedSize child .fixedSizeBinary elem.fixedWidth
      else api.schemaSetType child (mapArrowType elem.kind)) = some typed ↔
        elem.SchemaAccepts ∧
          typed = { child with type := mapArrowType elem.kind, fixedWidth := elem.fixedWidth } := by
    intro typed
    unfold ElemType.SchemaAccepts
    by_cases binary : elem.kind = .fixedBinary
    · rw [if_pos binary, documented.schemaSetTypeFixedSize, binary]
      by_cases positive : 0 < elem.fixedWidth
      · simp [positive, mapArrowType, eq_comm]
      · simp [positive]
    · have other : mapArrowType elem.kind ≠ .fixedSizeBinary :=
        fun same => binary (mapArrowType_eq_fixedSizeBinary_iff.mp same)
      rw [if_neg binary, documented.schemaSetType child _ other, fixedWidth_of_plain binary]
      simp [binary, eq_comm]
  unfold ntSetColumnSchema
  constructor
  · intro ran
    obtain ⟨first, set, ran⟩ := bind_eq_ok_iff.mp ran
    obtain ⟨accepts, rfl⟩ := (typed first).mp (check_eq_ok_iff.mp set)
    obtain ⟨second, named, ran⟩ := bind_eq_ok_iff.mp ran
    rw [documented.schemaSetName, check_eq_ok_iff] at named
    cases named
    cases ran
    exact ⟨accepts, rfl⟩
  · intro result
    obtain ⟨accepts, rfl⟩ := result
    apply bind_eq_ok_iff.mpr
    refine ⟨_, check_eq_ok_iff.mpr ((typed _).mpr ⟨accepts, rfl⟩), ?_⟩
    rw [documented.schemaSetName]
    rfl

variable {Row : Type} {cols : List (Column Row)}

variable (cols) in
/-- The struct array of a schema. -/
def emptyStruct : ArrowStruct cols.length := ⟨0, 0, fun c => .empty (cols.get c).elem⟩

theorem initArray_eq_ok_iff (documented : api.Documented order) {out : ArrowStruct cols.length} :
    initArray api cols = .ok out ↔
      (∀ c : Fin cols.length, (cols.get c).elem.SchemaAccepts) ∧ out = emptyStruct cols := by
  unfold initArray arrowSchema ntFillStructSchema
  obtain ⟨parent, allocated⟩ := documented.schemaSetTypeStruct cols.length
  rw [allocated]
  constructor
  · intro ran
    obtain ⟨schema, filled, ran⟩ := bind_eq_ok_iff.mp ran
    have columns := fun c => (ntSetColumnSchema_eq_ok_iff documented).mp
      (forEachColumn_eq_ok_iff.mp filled c)
    have typed : ∀ c, (schema c).type ≠ .uninitialized := by
      intro c
      rw [(columns c).2]
      exact mapArrowType_ne_uninitialized _
    rw [documented.arrayInitFromSchema schema typed] at ran
    cases ran
    refine ⟨fun c => (columns c).1, ?_⟩
    unfold emptyStruct ArrowArray.empty
    simp [(columns _).2]
  · intro result
    obtain ⟨accepts, rfl⟩ := result
    apply bind_eq_ok_iff.mpr
    refine ⟨_, forEachColumn_eq_ok_iff.mpr fun c =>
      (ntSetColumnSchema_eq_ok_iff documented).mpr ⟨accepts c, rfl⟩, ?_⟩
    rw [documented.arrayInitFromSchema _ fun c => mapArrowType_ne_uninitialized _]
    rfl

end Documented

/-! ### Values appended -/

/-- The data of a child with `i` elements after a value is appended. -/
def ElemType.stored (order : WireEndian) : (elem : ElemType) → Nat → Bytes → elem.Value → Bytes
  | bool, i, data, value => appendBit i data value
  | int type, _, data, value => data ++ (int type).memory order value
  | float, _, data, value =>
      data ++ orderedBytes order 4 (BinaryFloat.narrow (BinaryFloat.widen value.toNat))
  | double, _, data, value => data ++ double.memory order value
  | bytes width positive, _, data, value => data ++ (bytes width positive).memory order value

/-- A child after a value is appended. -/
def ElemType.append (order : WireEndian) (elem : ElemType) (child : ArrowArray)
    (value : elem.Value) : ArrowArray :=
  child.appended (elem.stored order child.length child.data value)

def ElemType.appendAll (order : WireEndian) (elem : ElemType) (child : ArrowArray)
    (values : List elem.Value) : ArrowArray :=
  values.foldl (elem.append order) child

section Documented

variable {api : Nanoarrow} {order : WireEndian}

theorem widthKept_of_plain {elem : ElemType} (plain : elem.kind ≠ .fixedBinary) :
    elem.WidthKept :=
  fun binary => absurd binary plain

theorem kind_int_ne (type : IntType) : (ElemType.int type).kind ≠ .fixedBinary := by
  rcases type with ⟨_ | _, _ | _ | _ | _⟩ <;> decide

theorem append_iff_of_plain {elem : ElemType} {child after : ArrowArray} {value : elem.Value}
    (plain : elem.kind ≠ .fixedBinary)
    (appended : ntAppendValue api child elem value = some (elem.append order child value)) :
    ntAppendValue api child elem value = some after ↔
      elem.WidthKept ∧ after = elem.append order child value := by
  rw [appended, and_iff_right (widthKept_of_plain plain), Option.some_inj]
  exact eq_comm

/-- Only a byte array can be of the wrong width. -/
theorem ntAppendValue_eq_some_iff (documented : api.Documented order) {elem : ElemType}
    {child after : ArrowArray} (typeOf : child.TypeOf elem) (value : elem.Value) :
    ntAppendValue api child elem value = some after ↔
      elem.WidthKept ∧ after = elem.append order child value := by
  cases elem with
  | bool =>
      apply append_iff_of_plain (by decide)
      rw [ntAppendValue, documented.arrayAppendInt_bool child typeOf]
      rfl
  | int type =>
      apply append_iff_of_plain (kind_int_ne type)
      rw [ntAppendValue]
      cases signed : type.signed with
      | true =>
          rw [if_pos rfl, documented.arrayAppendInt signed child typeOf]
          rfl
      | false =>
          rw [if_neg Bool.false_ne_true, documented.arrayAppendUInt signed child typeOf]
          rfl
  | float =>
      apply append_iff_of_plain (by decide)
      rw [ntAppendValue, documented.arrayAppendDouble_float child typeOf, BitVec.toNat_ofNat,
        Nat.mod_eq_of_lt (BinaryFloat.widen_lt _)]
      rfl
  | double =>
      apply append_iff_of_plain (by decide)
      rw [ntAppendValue, documented.arrayAppendDouble child typeOf]
      rfl
  | bytes width positive =>
      rw [ntAppendValue, documented.arrayAppendBytes child typeOf.1, typeOf.2, Vector.length_toList]
      unfold ElemType.WidthKept
      by_cases kept : (width : Int) = (ElemType.bytes width positive).fixedWidth
      · simp [← kept, ElemType.kind, ElemType.size, ElemType.append, ElemType.stored,
          ElemType.memory, eq_comm]
      · simp [kept, ElemType.kind, ElemType.size]

@[simp] theorem length_appendAll (elem : ElemType) (child : ArrowArray)
    (values : List elem.Value) :
    (elem.appendAll order child values).length = child.length + values.length := by
  unfold ElemType.appendAll
  induction values generalizing child with
  | nil => rfl
  | cons value values inductionHypothesis =>
      rw [List.foldl_cons, inductionHypothesis, List.length_cons]
      change child.length + 1 + _ = _
      omega

theorem typeOf_appendAll {elem : ElemType} {child : ArrowArray} (typeOf : child.TypeOf elem)
    (values : List elem.Value) : (elem.appendAll order child values).TypeOf elem := by
  unfold ElemType.appendAll
  induction values generalizing child with
  | nil => exact typeOf
  | cons value values inductionHypothesis => exact inductionHypothesis typeOf

variable {Row : Type} {cols : List (Column Row)}

/-- A struct array that takes another row. -/
structure Appendable (out : ArrowStruct cols.length) : Prop where
  typeOf (c : Fin cols.length) : (out.children c).TypeOf (cols.get c).elem
  length (c : Fin cols.length) : (out.children c).length = out.length

/-- The struct array after the rows `is` are appended. -/
def appendedRows (order : WireEndian) (out : ArrowStruct cols.length) (s : DynamicSoa cols)
    (is : List (Fin s.size)) : ArrowStruct cols.length where
  length := out.length + is.length
  nullCount := out.nullCount
  children := fun c =>
    (cols.get c).elem.appendAll order (out.children c) (is.map fun i => (s.columns c)[i])

variable {out after : ArrowStruct cols.length} {s : DynamicSoa cols}

theorem Appendable.appendedRows (appendable : Appendable out) (is : List (Fin s.size)) :
    Appendable (appendedRows order out s is) where
  typeOf c := typeOf_appendAll (appendable.typeOf c) _
  length c := by
    refine (length_appendAll _ _ _).trans ?_
    rw [appendable.length c, List.length_map]
    rfl

theorem appendRow_eq_ok_iff (documented : api.Documented order) (appendable : Appendable out)
    (i : Fin s.size) :
    appendRow api s out i = .ok after ↔
      (∀ c : Fin cols.length, (cols.get c).elem.WidthKept) ∧
        after = appendedRows order out s [i] := by
  have finished : api.arrayFinishElement
      { out with
          children := fun c => (cols.get c).elem.append order (out.children c) (s.columns c)[i] } =
        some (appendedRows order out s [i]) := by
    apply documented.arrayFinishElement
    intro c
    exact congrArg (· + 1) (appendable.length c)
  unfold appendRow ntAppendScalarRow
  constructor
  · intro ran
    obtain ⟨children, appended, ran⟩ := bind_eq_ok_iff.mp ran
    have each := fun c => (ntAppendValue_eq_some_iff documented (appendable.typeOf c) _).mp
      (check_eq_ok_iff.mp (forEachColumn_eq_ok_iff.mp (mapError_eq_ok_iff.mp appended) c))
    obtain rfl : children = fun c =>
        (cols.get c).elem.append order (out.children c) (s.columns c)[i] :=
      funext fun c => (each c).2
    rw [finished] at ran
    cases ran
    exact ⟨fun c => (each c).1, rfl⟩
  · intro result
    obtain ⟨kept, rfl⟩ := result
    apply bind_eq_ok_iff.mpr
    refine ⟨_, mapError_eq_ok_iff.mpr (forEachColumn_eq_ok_iff.mpr fun c => check_eq_ok_iff.mpr
      ((ntAppendValue_eq_some_iff documented (appendable.typeOf c) _).mpr ⟨kept c, rfl⟩)), ?_⟩
    rw [finished]
    rfl

/-- The loop over the rows. -/
theorem appendRows_eq_ok_iff (documented : api.Documented order) (appendable : Appendable out)
    (is : List (Fin s.size)) :
    is.foldlM (appendRow api s) out = .ok after ↔
      (is = [] ∨ ∀ c : Fin cols.length, (cols.get c).elem.WidthKept) ∧
        after = appendedRows order out s is := by
  induction is generalizing out with
  | nil =>
      constructor
      · intro ran
        cases ran
        exact ⟨.inl rfl, rfl⟩
      · intro result
        rw [result.2]
        rfl
  | cons i is inductionHypothesis =>
      have later : appendedRows order (appendedRows order out s [i]) s is =
          appendedRows order out s (i :: is) := by
        unfold appendedRows
        simp [ElemType.appendAll, Nat.add_assoc, Nat.add_comm 1]
      rw [List.foldlM_cons, bind_eq_ok_iff]
      constructor
      · intro ran
        obtain ⟨first, appended, ran⟩ := ran
        obtain ⟨kept, rfl⟩ := (appendRow_eq_ok_iff documented appendable i).mp appended
        obtain ⟨-, rfl⟩ := (inductionHypothesis (appendable.appendedRows [i])).mp ran
        exact ⟨.inr kept, later⟩
      · intro result
        obtain ⟨kept | kept, rfl⟩ := result
        · contradiction
        · refine ⟨_, (appendRow_eq_ok_iff documented appendable i).mpr ⟨kept, rfl⟩, ?_⟩
          exact (inductionHypothesis (appendable.appendedRows [i])).mpr ⟨.inr kept, later.symm⟩

end Documented

/-! ### Sizes of buffers -/

section Sizes

variable {order : WireEndian} {elem : ElemType}

@[simp] theorem length_orderedBytes (order : WireEndian) (n word : Nat) :
    (orderedBytes order n word).length = n := by
  cases order <;> simp [orderedBytes]

@[simp] theorem length_memory (order : WireEndian) (elem : ElemType) (value : elem.Value) :
    (elem.memory order value).length = elem.size := by
  cases elem <;> simp [ElemType.memory, ElemType.size]

theorem bufferSize_le (elem : ElemType) (n : Nat) : elem.bufferSize n ≤ n * elem.size := by
  cases elem with
  | bool =>
      change (n + 7) / 8 ≤ n * 1
      omega
  | bytes width positive =>
      have narrower : (ElemType.bytes width positive).fixedWidth.toNat ≤ width := by
        unfold ElemType.fixedWidth Int.bmod
        dsimp only
        split <;> omega
      rw [Nat.mul_comm n]
      exact Nat.mul_le_mul_right n narrower
  | _ => exact Nat.le_of_eq (Nat.mul_comm _ _)

/-- Whatever is not packed is appended as bytes. -/
theorem stored_eq_append (unpacked : elem ≠ .bool) (i : Nat) (data : Bytes) (value : elem.Value) :
    elem.stored order i data value = data ++ elem.stored order 0 [] value := by
  cases elem with
  | bool => contradiction
  | _ => rfl

theorem length_stored (unpacked : elem ≠ .bool) (value : elem.Value) :
    (elem.stored order 0 [] value).length = elem.size := by
  cases elem with
  | bool => contradiction
  | _ => simp [ElemType.stored, ElemType.size]

theorem data_appendAll (unpacked : elem ≠ .bool) (child : ArrowArray) (values : List elem.Value) :
    (elem.appendAll order child values).data =
      child.data ++ values.flatMap (elem.stored order 0 []) := by
  unfold ElemType.appendAll
  induction values generalizing child with
  | nil => exact (List.append_nil _).symm
  | cons value values inductionHypothesis =>
      rw [List.foldl_cons, inductionHypothesis, List.flatMap_cons, ← List.append_assoc,
        ← stored_eq_append unpacked child.length]
      rfl

theorem length_appendBit (i : Nat) {data : Bytes} (packed : data.length = (i + 7) / 8)
    (value : Bool) : (appendBit i data value).length = (i + 1 + 7) / 8 := by
  unfold appendBit
  split
  · rw [List.length_append, packed, List.length_singleton]
    omega
  · rw [List.length_modify, packed]
    omega

/-- Booleans are packed, eight to a byte. -/
theorem length_data_appendAll_bool {child : ArrowArray}
    (packed : child.data.length = (child.length + 7) / 8) (values : List Bool) :
    (ElemType.bool.appendAll order child values).data.length =
      (child.length + values.length + 7) / 8 := by
  unfold ElemType.appendAll
  induction values generalizing child with
  | nil => exact packed
  | cons value values inductionHypothesis =>
      rw [List.foldl_cons, inductionHypothesis (length_appendBit _ packed value), List.length_cons]
      change (child.length + 1 + _ + 7) / 8 = _
      omega

theorem complete_appendAll (order : WireEndian) (elem : ElemType) (values : List elem.Value) :
    (elem.appendAll order (.empty elem) values).Complete elem values.length where
  typeOf := typeOf_appendAll ⟨rfl, rfl⟩ values
  length := (length_appendAll _ _ _).trans (Nat.zero_add _)
  data := by
    by_cases packed : elem = .bool
    · subst packed
      rw [length_data_appendAll_bool rfl]
      change (values.length + 7) / 8 ≤ (0 + values.length + 7) / 8
      rw [Nat.zero_add]
    · rw [data_appendAll packed, List.length_append,
        length_flatMap_of_stride (length_stored packed)]
      exact Nat.le_trans (bufferSize_le _ _) (Nat.le_add_left _ _)

end Sizes

/-! ### Results of the exports -/

section Documented

variable {api : Nanoarrow} {order : WireEndian} {Row : Type} {cols : List (Column Row)}
  {after : ArrowStruct cols.length}

/-- Appending the rows gives every column's values, appended. -/
theorem DynamicSoa.toArrow_eq_ok_iff (documented : api.Documented order) (s : DynamicSoa cols) :
    s.toArrow api = .ok after ↔
      (∀ c : Fin cols.length, (cols.get c).elem.SchemaAccepts) ∧
      (s.size = 0 ∨ ∀ c : Fin cols.length, (cols.get c).elem.WidthKept) ∧
      after = ⟨s.size, 0, fun c =>
        (cols.get c).elem.appendAll order (.empty (cols.get c).elem) (s.columns c).toList⟩ := by
  have appendable : Appendable (emptyStruct cols) := ⟨fun _ => ⟨rfl, rfl⟩, fun _ => rfl⟩
  have started : api.arrayStartAppending (emptyStruct cols) = some (emptyStruct cols) :=
    documented.arrayStartAppending _ fun _ => ⟨rfl, rfl⟩
  have values : ∀ c, (List.finRange s.size).map (fun i => (s.columns c)[i]) =
      (s.columns c).toList := by
    intro c
    apply List.ext_getElem
    · simp
    · intro k _ _
      simp
  have rows : appendedRows order (emptyStruct cols) s (List.finRange s.size) =
      ⟨s.size, 0, fun c =>
        (cols.get c).elem.appendAll order (.empty (cols.get c).elem) (s.columns c).toList⟩ := by
    unfold appendedRows emptyStruct
    simp only [values, List.length_finRange, Nat.zero_add]
  have nothing : List.finRange s.size = [] ↔ s.size = 0 := List.finRange_eq_nil_iff
  have finished : api.arrayFinishBuildingDefault
      (appendedRows order (emptyStruct cols) s (List.finRange s.size)) =
        some (appendedRows order (emptyStruct cols) s (List.finRange s.size)) := by
    apply documented.arrayFinishBuildingDefault _ fun c => (cols.get c).elem
    intro c
    rw [rows]
    have complete := complete_appendAll order (cols.get c).elem (s.columns c).toList
    rwa [Vector.length_toList] at complete
  unfold DynamicSoa.toArrow
  rw [← nothing, ← rows]
  constructor
  · intro ran
    obtain ⟨out, begun, ran⟩ := bind_eq_ok_iff.mp ran
    obtain ⟨accepts, rfl⟩ := (initArray_eq_ok_iff documented).mp begun
    obtain ⟨out, ready, ran⟩ := bind_eq_ok_iff.mp ran
    cases check_eq_ok_iff.mp (started ▸ ready)
    obtain ⟨out, appended, ran⟩ := bind_eq_ok_iff.mp ran
    obtain ⟨kept, rfl⟩ := (appendRows_eq_ok_iff documented appendable _).mp appended
    rw [finished] at ran
    cases ran
    exact ⟨accepts, kept, rfl⟩
  · intro result
    obtain ⟨accepts, kept, rfl⟩ := result
    refine bind_eq_ok_iff.mpr ⟨_, (initArray_eq_ok_iff documented).mpr ⟨accepts, rfl⟩, ?_⟩
    refine bind_eq_ok_iff.mpr ⟨_, check_eq_ok_iff.mpr started, ?_⟩
    refine bind_eq_ok_iff.mpr
      ⟨_, (appendRows_eq_ok_iff documented appendable _).mpr ⟨kept, rfl⟩, ?_⟩
    rw [finished]
    rfl

/-- A child filled with the memory of values. -/
def bulkFilled (order : WireEndian) (elem : ElemType) (values : List elem.Value) : ArrowArray :=
  { ArrowArray.empty elem with
    length := values.length
    data := values.flatMap (elem.memory order) }

theorem complete_bulkFilled (order : WireEndian) (elem : ElemType) (values : List elem.Value) :
    (bulkFilled order elem values).Complete elem values.length where
  typeOf := ⟨rfl, rfl⟩
  length := rfl
  data := by
    change _ ≤ (values.flatMap (elem.memory order)).length
    rw [length_flatMap_of_stride (length_memory order elem)]
    exact bufferSize_le _ _

/-- Copying the columns gives every column's memory. -/
theorem Soa.toArrow_eq_ok_iff (documented : api.Documented order) {N : Nat} {s : Soa cols N}
    (inside : s.size ≤ N) :
    s.toArrow api order = .ok after ↔
      (∀ c : Fin cols.length, (cols.get c).elem.SchemaAccepts) ∧
      after = ⟨s.size, 0, fun c => bulkFilled order (cols.get c).elem (s.rows c)⟩ := by
  have occupied : ∀ c, (s.rows c).length = s.size := by
    intro c
    unfold Soa.rows
    rw [List.length_take, Vector.length_toList, Nat.min_eq_left inside]
  have filled : ∀ c,
      bulkFill api order s.size (cols.get c) (s.columns c) (.empty (cols.get c).elem) =
        .ok (bulkFilled order (cols.get c).elem (s.rows c)) := by
    intro c
    unfold bulkFill bulkFilled
    dsimp only [ArrowArray.empty]
    rw [documented.bufferAppend, take_flatMap_of_stride (length_memory order _), occupied c]
    rfl
  have finished : api.arrayFinishBuildingDefault
      (⟨s.size, 0, fun c => bulkFilled order (cols.get c).elem (s.rows c)⟩ :
        ArrowStruct cols.length) =
        some ⟨s.size, 0, fun c => bulkFilled order (cols.get c).elem (s.rows c)⟩ := by
    apply documented.arrayFinishBuildingDefault _ fun c => (cols.get c).elem
    intro c
    have complete := complete_bulkFilled order (cols.get c).elem (s.rows c)
    rwa [occupied c] at complete
  unfold Soa.toArrow
  constructor
  · intro ran
    obtain ⟨out, begun, ran⟩ := bind_eq_ok_iff.mp ran
    obtain ⟨accepts, rfl⟩ := (initArray_eq_ok_iff documented).mp begun
    obtain ⟨children, copied, ran⟩ := bind_eq_ok_iff.mp ran
    obtain rfl : children = fun c : Fin cols.length =>
        bulkFilled order (cols.get c).elem (s.rows c) := by
      funext c
      exact Except.ok.inj ((forEachColumn_eq_ok_iff.mp copied c).symm.trans (filled c))
    rw [finished] at ran
    cases ran
    exact ⟨accepts, rfl⟩
  · intro result
    obtain ⟨accepts, rfl⟩ := result
    refine bind_eq_ok_iff.mpr ⟨_, (initArray_eq_ok_iff documented).mpr ⟨accepts, rfl⟩, ?_⟩
    refine bind_eq_ok_iff.mpr ⟨_, forEachColumn_eq_ok_iff.mpr filled, ?_⟩
    rw [finished]
    rfl

end Documented

/-! ### An implementation -/

/-- Whether an integer type is signed, and its bytes. -/
def ArrowType.word : ArrowType → Option IntType
  | int8 => some ⟨true, .one⟩
  | int16 => some ⟨true, .two⟩
  | int32 => some ⟨true, .four⟩
  | int64 => some ⟨true, .eight⟩
  | uint8 => some ⟨false, .one⟩
  | uint16 => some ⟨false, .two⟩
  | uint32 => some ⟨false, .four⟩
  | uint64 => some ⟨false, .eight⟩
  | _ => none

/-- Integers outside the range of the child's type are refused. -/
def appendInteger (order : WireEndian) (child : ArrowArray) (value : Int) : Option ArrowArray := do
  let type ← child.type.word
  let word := BitVec.ofInt type.bits value
  if (if type.signed then word.toInt else word.toNat) = value then
    return child.appended (child.data ++ (ElemType.int type).memory order word)
  else none

/-- nanoarrow on a machine of that byte order. -/
def nanoarrow (order : WireEndian) : Nanoarrow where
  schemaSetTypeStruct _ := some fun _ => ⟨.uninitialized, 0, "", true⟩
  schemaSetType child type :=
    if type = .fixedSizeBinary then none else some { child with type := type, fixedWidth := 0 }
  schemaSetTypeFixedSize child type width :=
    if type = .fixedSizeBinary ∧ 0 < width then
      some { child with type := type, fixedWidth := width }
    else none
  schemaSetName child name := some { child with name := name }
  arrayInitFromSchema children :=
    if ∀ c, (children c).type ≠ .uninitialized then
      some ⟨0, 0, fun c => ⟨(children c).type, (children c).fixedWidth, 0, 0, []⟩⟩
    else none
  arrayStartAppending array := some array
  arrayAppendInt child value :=
    if child.type = .bool then
      some (child.appended (appendBit child.length child.data (value ≠ 0)))
    else appendInteger order child value
  arrayAppendUInt child value :=
    if child.type = .bool then
      some (child.appended (appendBit child.length child.data (value ≠ 0)))
    else appendInteger order child value
  arrayAppendDouble child value :=
    match child.type with
    | .float => some (child.appended
        (child.data ++ orderedBytes order 4 (BinaryFloat.narrow value.toNat)))
    | .double => some (child.appended (child.data ++ orderedBytes order 8 value.toNat))
    | _ => none
  arrayAppendBytes child value :=
    if child.type = .fixedSizeBinary ∧ (value.length : Int) = child.fixedWidth then
      some (child.appended (child.data ++ value))
    else none
  bufferAppend data more := some (data ++ more)
  arrayFinishElement array :=
    if ∀ c, (array.children c).length = array.length + 1 then
      some { array with length := array.length + 1 }
    else none
  arrayFinishBuildingDefault array := some array

theorem word_mapArrowType (type : IntType) :
    (mapArrowType (ElemType.int type).kind).word = some type := by
  rcases type with ⟨_ | _, _ | _ | _ | _⟩ <;> rfl

theorem mapArrowType_int_ne_bool (type : IntType) :
    mapArrowType (ElemType.int type).kind ≠ .bool := by
  rcases type with ⟨_ | _, _ | _ | _ | _⟩ <;> decide

theorem appendInteger_eq (order : WireEndian) {type : IntType} {child : ArrowArray}
    (typeOf : child.TypeOf (.int type)) (value : type.Value) :
    appendInteger order child (if type.signed then value.toInt else value.toNat) =
      some (child.appended (child.data ++ (ElemType.int type).memory order value)) := by
  have same : BitVec.ofInt type.bits (if type.signed then value.toInt else value.toNat) =
      value := by
    split
    · exact BitVec.ofInt_toInt
    · rw [BitVec.ofInt_natCast, BitVec.ofNat_toNat, BitVec.setWidth_eq]
  unfold appendInteger
  rw [typeOf.1, word_mapArrowType]
  dsimp only [Option.bind_eq_bind, Option.bind_some]
  rw [same, if_pos rfl]
  rfl

theorem nanoarrow_documented (order : WireEndian) : (nanoarrow order).Documented order where
  schemaSetTypeStruct n := ⟨_, rfl⟩
  schemaSetType child type plain := if_neg plain
  schemaSetTypeFixedSize child width := by
    change (if _ ∧ 0 < width then _ else _) = _
    simp
  schemaSetName child name := rfl
  arrayInitFromSchema children typed := if_pos typed
  arrayStartAppending array empty := rfl
  arrayAppendInt_bool child typeOf value := by
    refine (if_pos typeOf.1).trans ?_
    cases value <;> rfl
  arrayAppendInt signed child typeOf value := by
    have plain : child.type ≠ .bool := typeOf.1 ▸ mapArrowType_int_ne_bool _
    refine (if_neg plain).trans ?_
    have appended := appendInteger_eq order typeOf value
    rwa [if_pos signed] at appended
  arrayAppendUInt unsigned child typeOf value := by
    have plain : child.type ≠ .bool := typeOf.1 ▸ mapArrowType_int_ne_bool _
    refine (if_neg plain).trans ?_
    have appended := appendInteger_eq order typeOf value
    rwa [if_neg (by rw [unsigned]; decide)] at appended
  arrayAppendDouble_float child typeOf value := by
    have type : child.type = .float := typeOf.1
    change (match child.type with | .float => _ | .double => _ | _ => _) = _
    rw [type]
  arrayAppendDouble child typeOf value := by
    have type : child.type = .double := typeOf.1
    change (match child.type with | .float => _ | .double => _ | _ => _) = _
    rw [type]
  arrayAppendBytes child type value := by
    change (if child.type = .fixedSizeBinary ∧ _ then _ else _) = _
    simp [type]
  bufferAppend data more := rfl
  arrayFinishElement array appended := if_pos appended
  arrayFinishBuildingDefault array elems complete := rfl

/-! ### Agreement -/

/-- The two exports of the rows, from storage that held anything, succeed and have
the same lengths and data. -/
def ExportsAgree (api : Nanoarrow) (order : WireEndian) {Row : Type} {cols : List (Column Row)}
    {N : Nat} (columns : (c : Fin cols.length) → Vector (cols.get c).elem.Value N)
    (rows : List Row) : Prop :=
  ∃ (fixed : Soa cols N) (dynamic : DynamicSoa cols) (copied appended : ArrowStruct cols.length),
    (Soa.mk columns 0).appendAll rows = some fixed ∧ DynamicSoa.ofRows rows = some dynamic ∧
      fixed.toArrow api order = .ok copied ∧ dynamic.toArrow api = .ok appended ∧
      copied.length = appended.length ∧
      ∀ c, (copied.children c).length = (appended.children c).length ∧
        (copied.children c).data = (appended.children c).data

/-- At most one boolean, no signaling NaN, and a width of byte arrays that `int`
holds; without rows it is enough that the cast leaves it positive. -/
def ElemType.ExportsAlike : (elem : ElemType) → List elem.Value → Prop
  | bool, values => values.length ≤ 1
  | int _, _ => True
  | float, values => ∀ value ∈ values, ¬ BinaryFloat.IsSignaling32 value.toNat
  | double, _ => True
  | bytes width positive, values =>
      0 < (bytes width positive).fixedWidth ∧
        (values = [] ∨ (width : Int) = (bytes width positive).fixedWidth)

section Agreement

variable {api : Nanoarrow} {order : WireEndian}

theorem orderedBytes_inj {n word word' : Nat} (bounded : word < 256 ^ n)
    (bounded' : word' < 256 ^ n) :
    orderedBytes order n word = orderedBytes order n word' ↔ word = word' := by
  constructor
  · intro same
    have values : word % 256 ^ n = word' % 256 ^ n := by
      cases order with
      | big =>
          rw [← bigValue_bigBytes, ← bigValue_bigBytes]
          exact congrArg bigValue same
      | little =>
          rw [← readLittle_littleBytes, ← readLittle_littleBytes]
          exact congrArg (fun bytes => readLittle bytes 0 n) same
    rwa [Nat.mod_eq_of_lt bounded, Nat.mod_eq_of_lt bounded'] at values
  · intro same
    rw [same]

/-- Up to one boolean, a byte each and packed are the same. -/
theorem data_appendAll_bool_iff (values : List Bool) :
    values.flatMap (ElemType.bool.memory order) =
      (ElemType.bool.appendAll order (.empty .bool) values).data ↔ values.length ≤ 1 := by
  constructor
  · intro same
    have lengths := congrArg List.length same
    rw [length_data_appendAll_bool rfl, length_flatMap_of_stride (length_memory order .bool)]
      at lengths
    change values.length * 1 = (0 + values.length + 7) / 8 at lengths
    omega
  · intro few
    rcases values with _ | ⟨value, _ | ⟨value', values⟩⟩
    · rfl
    · rfl
    · rw [List.length_cons, List.length_cons] at few
      omega

/-- Converting to `double` and back keeps what is not a signaling NaN. -/
theorem data_appendAll_float_iff (values : List (BitVec 32)) :
    values.flatMap (ElemType.float.memory order) =
      (ElemType.float.appendAll order (.empty .float) values).data ↔
      ∀ value ∈ values, ¬ BinaryFloat.IsSignaling32 value.toNat := by
  have unpacked : ElemType.float ≠ .bool := by decide
  rw [data_appendAll unpacked]
  refine (flatMap_eq_flatMap_iff (length_memory order .float) (length_stored unpacked)
    values).trans ?_
  apply forall₂_congr
  intro value _
  have bounded : value.toNat < 2 ^ 32 := value.isLt
  change orderedBytes order 4 value.toNat = orderedBytes order 4
    (BinaryFloat.narrow (BinaryFloat.widen value.toNat)) ↔ _
  rw [BinaryFloat.narrow_widen bounded, ← BinaryFloat.quiet32_eq_self_iff bounded]
  exact (orderedBytes_inj bounded (BinaryFloat.quiet32_lt bounded)).trans eq_comm

theorem succeeds_and_iff_of_plain {elem : ElemType} (plain : elem.kind ≠ .fixedBinary)
    {values : List elem.Value} {same : Prop} :
    elem.SchemaAccepts ∧ (values = [] ∨ elem.WidthKept) ∧ same ↔ same := by
  have accepts : elem.SchemaAccepts := fun binary => absurd binary plain
  rw [and_iff_right accepts, and_iff_right (.inr (widthKept_of_plain plain))]

theorem exportsAlike_iff (order : WireEndian) (elem : ElemType) (values : List elem.Value) :
    elem.ExportsAlike values ↔
      elem.SchemaAccepts ∧ (values = [] ∨ elem.WidthKept) ∧
        values.flatMap (elem.memory order) =
          (elem.appendAll order (.empty elem) values).data := by
  cases elem with
  | bool =>
      rw [succeeds_and_iff_of_plain (by decide)]
      exact (data_appendAll_bool_iff values).symm
  | float =>
      rw [succeeds_and_iff_of_plain (by decide)]
      exact (data_appendAll_float_iff values).symm
  | int type =>
      rw [succeeds_and_iff_of_plain (kind_int_ne type), data_appendAll (by nofun)]
      exact iff_of_true trivial rfl
  | double =>
      rw [succeeds_and_iff_of_plain (by decide), data_appendAll (by nofun)]
      exact iff_of_true trivial rfl
  | bytes width positive =>
      rw [data_appendAll (by nofun)]
      constructor
      · intro alike
        exact ⟨fun _ => alike.1, alike.2.imp_right fun kept _ => kept, rfl⟩
      · intro all
        exact ⟨all.1 rfl, all.2.1.imp_right fun kept => kept rfl⟩

/-- What the exports have to agree on. -/
theorem exportsAgree_iff_data (documented : api.Documented order) {T : Described} {N : Nat}
    (columns : (c : Fin T.columns.length) → Vector (T.columns.get c).elem.Value N)
    (rows : List T.Row) (room : rows.length ≤ N) :
    ExportsAgree api order columns rows ↔
      ∀ c : Fin T.columns.length,
        (T.columns.get c).elem.SchemaAccepts ∧
        (rows.map (T.columns.get c).get = [] ∨ (T.columns.get c).elem.WidthKept) ∧
        (rows.map (T.columns.get c).get).flatMap ((T.columns.get c).elem.memory order) =
          ((T.columns.get c).elem.appendAll order (.empty (T.columns.get c).elem)
            (rows.map (T.columns.get c).get)).data := by
  obtain ⟨fixed, filled, size, held⟩ : ∃ fixed, (Soa.mk columns 0).appendAll rows = some fixed ∧
      fixed.size = 0 + rows.length ∧
      ∀ c : Fin T.columns.length, fixed.rows c = [] ++ rows.map (T.columns.get c).get :=
    Soa.appendAll_eq (by rwa [Nat.zero_add])
  obtain ⟨dynamic, stored, size', held'⟩ : ∃ dynamic : DynamicSoa T.columns,
      DynamicSoa.ofRows rows = some dynamic ∧ dynamic.size = rows.length ∧
      ∀ c, (dynamic.columns c).toList = rows.map (T.columns.get c).get :=
    DynamicSoa.ofRows_eq rows
  have inside : fixed.size ≤ N := by
    rwa [size, Nat.zero_add]
  have nothing : ∀ c : Fin T.columns.length,
      dynamic.size = 0 ↔ rows.map (T.columns.get c).get = [] := by
    intro c
    rw [size', List.map_eq_nil_iff, List.length_eq_zero_iff]
  constructor
  · intro agree
    obtain ⟨fixed', dynamic', copied, appended, filled', stored', copies, appends, -, same⟩ := agree
    cases filled.symm.trans filled'
    cases stored.symm.trans stored'
    obtain ⟨accepts, rfl⟩ := (Soa.toArrow_eq_ok_iff documented inside).mp copies
    obtain ⟨-, kept, rfl⟩ := (DynamicSoa.toArrow_eq_ok_iff documented dynamic).mp appends
    intro c
    refine ⟨accepts c, ?_, ?_⟩
    · rw [← nothing c]
      exact kept.imp_right fun kept => kept c
    · have data := (same c).2
      dsimp only [bulkFilled] at data
      rwa [held c, held' c, List.nil_append] at data
  · intro alike
    refine ⟨fixed, dynamic, _, _, filled, stored,
      (Soa.toArrow_eq_ok_iff documented inside).mpr ⟨fun c => (alike c).1, rfl⟩,
      (DynamicSoa.toArrow_eq_ok_iff documented dynamic).mpr
        ⟨fun c => (alike c).1, ?_, rfl⟩, ?_, ?_⟩
    · by_cases empty : dynamic.size = 0
      · exact .inl empty
      · refine .inr fun c => ?_
        exact (alike c).2.1.resolve_left fun none => empty ((nothing c).mpr none)
    · exact size.trans ((Nat.zero_add _).trans size'.symm)
    · intro c
      dsimp only [bulkFilled]
      rw [held c, held' c, List.nil_append]
      exact ⟨(complete_appendAll order _ _).length.symm, (alike c).2.2⟩

/-- The exports agree exactly if they do for the values of each column. -/
theorem exportsAgree_iff (documented : api.Documented order) (T : Described) {N : Nat}
    (columns : (c : Fin T.columns.length) → Vector (T.columns.get c).elem.Value N)
    (rows : List T.Row) (room : rows.length ≤ N) :
    ExportsAgree api order columns rows ↔
      ∀ c : Fin T.columns.length,
        (T.columns.get c).elem.ExportsAlike (rows.map (T.columns.get c).get) := by
  rw [exportsAgree_iff_data documented columns rows room]
  apply forall_congr'
  intro c
  exact (exportsAlike_iff order _ _).symm

end Agreement

def levelStruct : Described := [⟨"flag", .plain .bool⟩, ⟨"level", .plain .float⟩]

def levelRow (flag : Bool) (level : BitVec 32) : levelStruct.Row
  | ⟨0, _⟩ => flag
  | ⟨1, _⟩ => level

def addressStruct : Described :=
  [⟨"level", .plain .float⟩, ⟨"port", .be ⟨false, .two⟩⟩, ⟨"address", .plain (.bytes 4 (by decide))⟩]

def addressRow (level : BitVec 32) (port : Vector UInt8 2) (address : Vector UInt8 4) :
    addressStruct.Row
  | ⟨0, _⟩ => level
  | ⟨1, _⟩ => port
  | ⟨2, _⟩ => address

/-- A number, an infinity and a quiet NaN, with ports and addresses. -/
def addressRows : List addressStruct.Row :=
  [addressRow 0x3F800000 #v[0, 80] #v[10, 0, 0, 1], addressRow 0xFF800000 #v[1, 187] #v[10, 0, 0, 2],
    addressRow 0x7FC00001 #v[118, 61] #v[224, 0, 0, 1]]

theorem exportsAgree_iff_addressRows :
    ExportsAgree (nanoarrow .little) .little
      (fun c => Vector.replicate 4 (addressStruct.columns.get c).elem.default) addressRows := by
  have numbers : ∀ level ∈ [0x3F800000#32, 0xFF800000#32, 0x7FC00001#32],
      ¬ BinaryFloat.IsSignaling32 level.toNat := by
    simp [BinaryFloat.IsSignaling32, BinaryFloat.exponent32, BinaryFloat.fraction32]
  refine (exportsAgree_iff (nanoarrow_documented .little) addressStruct _ addressRows
    (by decide)).mpr ?_
  rintro ⟨index, inside⟩
  match index, inside with
  | 0, _ => exact numbers
  | 1, _ => trivial
  | 2, _ => exact ⟨by decide, .inr rfl⟩

/-- Two booleans are copied as two bytes, and appended as two bits of one. -/
theorem exportsAgree_fails :
    ¬ ExportsAgree (nanoarrow .little) .little
      (fun c => Vector.replicate 2 (levelStruct.columns.get c).elem.default)
      [levelRow true 0, levelRow true 0] := by
  intro agree
  have alike := (exportsAgree_iff_data (nanoarrow_documented .little) _ _ (by decide)).mp agree
  have few : [true, true].length ≤ 1 :=
    (data_appendAll_bool_iff [true, true]).mp (alike ⟨0, Nat.zero_lt_two⟩).2.2
  contradiction

end Nanotins.Soatins
