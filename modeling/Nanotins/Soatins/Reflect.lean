import Mathlib.Algebra.GroupWithZero.Nat
import Mathlib.Tactic.Common
import Nanotins.Wire.Spec

/-!
Contract: described structs and the columns they flatten into, as the headers
`endian.hpp`, `bits.hpp`, `column_traits.hpp` and `reflect.hpp` of soatins define
them.

Owns: element and field types with their values, and the columns of a struct with
their extractors.

Does not own: storage of columns.

A floating-point value is its bit pattern.
-/

namespace Nanotins.Soatins

open Nanotins.Library Nanotins.Wire

/-! ### Element types -/

/-- `sizeof` an integral type. -/
inductive IntSize where
  | one | two | four | eight
deriving DecidableEq, Repr

def IntSize.bytes : IntSize → Nat
  | one => 1
  | two => 2
  | four => 4
  | eight => 8

/-- An integral type other than `bool`. -/
structure IntType where
  signed : Bool
  size : IntSize
deriving DecidableEq, Repr

namespace IntType

def bits (type : IntType) : Nat := 8 * type.size.bytes

abbrev Value (type : IntType) : Type := BitVec type.bits

/-- The memory of a big- or little-endian value. -/
abbrev Raw (type : IntType) : Type := Vector UInt8 type.size.bytes

end IntType

/-- The types that a column may hold: arithmetic types, and byte arrays, which are
not empty. -/
inductive ElemType where
  | bool
  | int (type : IntType)
  | float
  | double
  | bytes (width : Nat) (positive : 0 < width)
deriving DecidableEq, Repr

abbrev ElemType.Value : ElemType → Type
  | bool => Bool
  | int type => type.Value
  | float => BitVec 32
  | double => BitVec 64
  | bytes width _ => Vector UInt8 width

def ElemType.default : (elem : ElemType) → elem.Value
  | bool => false
  | int _ => 0
  | float => 0
  | double => 0
  | bytes width _ => Vector.replicate width 0

/-- `sizeof` the type. -/
def ElemType.size : ElemType → Nat
  | bool => 1
  | int type => type.size.bytes
  | float => 4
  | double => 8
  | bytes width _ => width

/-! ### Field types -/

/-- `be<T>::host`: the first byte is the most significant one. -/
def IntType.hostBig (type : IntType) (raw : type.Raw) : type.Value :=
  raw.toList.foldl (fun v byte => (v <<< 8) ||| byte.toBitVec.setWidth type.bits) 0

/-- `le<T>::host`. -/
def IntType.hostLittle (type : IntType) (raw : type.Raw) : type.Value :=
  raw.toList.reverse.foldl (fun v byte => (v <<< 8) ||| byte.toBitVec.setWidth type.bits) 0

/-- What a word field holds: `be<U>`, `le<U>` or, with no order, a bare `U`. -/
abbrev IntType.Word (type : IntType) : Option WireEndian → Type
  | none => type.Value
  | some _ => type.Raw

/-- `host_value`. -/
def IntType.host (type : IntType) : (order : Option WireEndian) → type.Word order → type.Value
  | none, word => word
  | some .big, raw => type.hostBig raw
  | some .little, raw => type.hostLittle raw

structure SubField where
  name : String
  width : Nat
deriving DecidableEq, Repr

/-- `bits<Word, Fields...>`. -/
structure BitsType where
  type : IntType
  order : Option WireEndian
  fields : List SubField
  sum_widths : (fields.map SubField.width).sum = type.bits

/-- `uint_for_bits`: the smallest unsigned type of that many bits. -/
def uintForBits (width : Nat) : IntType where
  signed := false
  size :=
    if width ≤ 8 then .one
    else if width ≤ 16 then .two
    else if width ≤ 32 then .four
    else .eight

namespace BitsType

variable (bits : BitsType)

abbrev Word : Type := bits.type.Word bits.order

/-- The word as a 64-bit number; a signed one is extended by its sign. -/
def wordHost (word : bits.Word) : BitVec 64 :=
  if bits.type.signed then (bits.type.host bits.order word).signExtend 64
  else (bits.type.host bits.order word).setWidth 64

/-- The first sub-field takes the most significant bits. -/
def shiftAt (j : Nat) : Nat := bits.type.bits - ((bits.fields.take (j + 1)).map SubField.width).sum

def maskAt (j : Fin bits.fields.length) : BitVec 64 :=
  ((1 : BitVec 64) <<< (bits.fields.get j).width) - 1

end BitsType

inductive FieldType where
  | plain (elem : ElemType)
  | be (type : IntType)
  | le (type : IntType)
  | bits (type : BitsType)

/-- What a member of that type holds. -/
abbrev FieldType.Object : FieldType → Type
  | plain elem => elem.Value
  | be type => type.Raw
  | le type => type.Raw
  | bits type => type.Word

/-! ### Columns -/

/-- A column of rows: its name, element type and extractor. -/
structure Column (Row : Type) where
  name : String
  elem : ElemType
  get : Row → elem.Value

/-- The column of what a part of the row holds. -/
def Column.comap {Row Part : Type} (part : Row → Part) (column : Column Part) : Column Row where
  name := column.name
  elem := column.elem
  get := column.get ∘ part

/-- `bits_col`: the cast keeps the low bits. -/
def BitsType.column (bits : BitsType) (j : Fin bits.fields.length) : Column bits.Word where
  name := (bits.fields.get j).name
  elem := .int (uintForBits (bits.fields.get j).width)
  get word := ((bits.wordHost word >>> bits.shiftAt j) &&& bits.maskAt j).setWidth _

/-- A plain member makes one column, a bit-field member one for each sub-field. -/
def FieldType.columns (name : String) : (type : FieldType) → List (Column type.Object)
  | plain elem => [{ name := name, elem := elem, get := fun value : elem.Value => value }]
  | be type => [{ name := name, elem := .int type, get := fun raw : type.Raw => type.hostBig raw }]
  | le type =>
      [{ name := name, elem := .int type, get := fun raw : type.Raw => type.hostLittle raw }]
  | bits type => (List.finRange type.fields.length).map type.column

structure Member where
  name : String
  type : FieldType

/-- A described struct. -/
abbrev Described := List Member

namespace Described

variable (T : Described)

/-- An object of the struct. -/
abbrev Row : Type := (k : Fin T.length) → (T.get k).type.Object

/-- `columns_of`. -/
def columns : List (Column T.Row) :=
  (List.finRange T.length).flatMap fun k =>
    ((T.get k).type.columns (T.get k).name).map (Column.comap fun row : T.Row => row k)

end Described

end Nanotins.Soatins
