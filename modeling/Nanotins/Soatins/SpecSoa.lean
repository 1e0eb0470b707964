import Nanotins.Soatins.ArrowBatch

/-!
Contract: columnar storage of the fields of a wire spec, as `wire_spec_soa.hpp` has
it.

Owns: the columns that a spec makes, `spec_soa` and its Arrow export, and that a spec
which lists the columns of a struct makes the struct's columns (`columnsOfSpec_eq`)
and record batches (`batchOf_columnsOfSpec`).

Does not own: the specs and structs of any protocol.
-/

namespace Nanotins.Soatins

open Nanotins.Library Nanotins.Wire

/-! ### Columns of a spec -/

def IntSize.ofBytes : Nat → Option IntSize
  | 1 => some .one
  | 2 => some .two
  | 4 => some .four
  | 8 => some .eight
  | _ => none

/-- `value_type`; `none` is a type that no column can have. -/
def valueType : FieldKind → Option ElemType
  | .scalar size signed _ => (IntSize.ofBytes size).map fun size => .int ⟨signed, size⟩
  | .bits _ _ width _ => some (.int (uintForBits width))
  | .bytes count => if positive : 0 < count then some (.bytes count positive) else none

/-- The value of a column from that of a field. -/
def ElemType.ofFieldValue : (elem : ElemType) → FieldValue → elem.Value
  | bool, value => value.word != 0
  | int type, .int value => BitVec.ofInt type.bits value
  | int type, value => BitVec.ofNat type.bits value.word
  | float, value => BitVec.ofNat 32 value.word
  | double, value => BitVec.ofNat 64 value.word
  | bytes _ _, .bytes value => Vector.ofFn fun i => value.getD i 0
  | bytes width _, _ => Vector.replicate width 0

/-- A pointer to a PDU that is as long as the spec. -/
structure SpecPdu (spec : WireSpec) where
  buffer : Bytes
  off : Nat
  inside : off + specSize spec ≤ buffer.length

/-- Where the pointer points. -/
def SpecPdu.place {spec : WireSpec} (pdu : SpecPdu spec) : Bytes × Nat := (pdu.buffer, pdu.off)

/-- `spec_col`. -/
def specCol {spec : WireSpec} (field : Field) : Option (Column (SpecPdu spec)) :=
  (valueType field.kind).map fun elem =>
    ⟨field.name, elem, fun pdu => elem.ofFieldValue (readField pdu.buffer pdu.off field)⟩

def columnsOfSpec (spec : WireSpec) : List (Column (SpecPdu spec)) := spec.filterMap specCol

/-! ### Storage -/

/-- `spec_soa<Spec, N>`. -/
abbrev SpecSoa (spec : WireSpec) (N : Nat) := Soa (columnsOfSpec spec) N

namespace SpecSoa

variable {spec : WireSpec} {N : Nat}

/-- Read the fields of a PDU into row `i`. -/
def scatter (soa : SpecSoa spec N) (i : Nat) (pdu : SpecPdu spec) : Option (SpecSoa spec N) :=
  soa.store i pdu

/-- The flag says that the storage is full now. -/
def append (soa : SpecSoa spec N) (pdu : SpecPdu spec) : Option (SpecSoa spec N × Bool) := do
  let scattered ← scatter soa soa.size pdu
  let size := soa.size + 1
  return ({ scattered with size := size }, decide (N ≤ size))

/-- Appending PDUs one after the other. -/
def appendAll (soa : SpecSoa spec N) (pdus : List (SpecPdu spec)) : Option (SpecSoa spec N) :=
  runSteps (fun soa pdu => (append soa pdu).map Prod.fst) soa pdus

/-- `to_arrow_spec`: one copy for each column. -/
def toArrowSpec (api : Nanoarrow) (order : WireEndian) (s : SpecSoa spec N) :
    Except String (ArrowStruct (columnsOfSpec spec).length) := do
  let schema ← check "spec arrow: alloc struct schema"
    (api.schemaSetTypeStruct (columnsOfSpec spec).length)
  let schema ← ntFillStructSchema api schema
  let out ← check "spec arrow: init array" (api.arrayInitFromSchema schema)
  let children ← forEachColumn fun c =>
    (bulkFill api order s.size ((columnsOfSpec spec).get c) (s.columns c) (out.children c)).mapError
      fun _ => "spec arrow: bulk fill column"
  check "spec arrow: finalize" (api.arrayFinishBuildingDefault ⟨s.size, 0, children⟩)

/-- Both exports of fixed storage make the same calls, under other error texts. -/
theorem toArrowSpec_eq_ok_iff {api : Nanoarrow} {order : WireEndian} {s : SpecSoa spec N}
    {after : ArrowStruct (columnsOfSpec spec).length} :
    s.toArrowSpec api order = .ok after ↔ Soa.toArrow api order s = .ok after := by
  have mapped : ∀ {call : Except String ArrowArray} {child : ArrowArray} {error : String → String},
      call.mapError error = .ok child ↔ call = .ok child := mapError_eq_ok_iff
  simp only [toArrowSpec, Soa.toArrow, initArray, arrowSchema, bind_eq_ok_iff, check_eq_ok_iff,
    forEachColumn_eq_ok_iff, mapped]
  constructor
  · rintro ⟨typed, alloc, schema, set, out, init, rest⟩
    exact ⟨out, ⟨schema, ⟨typed, alloc, set⟩, init⟩, rest⟩
  · rintro ⟨out, ⟨schema, ⟨typed, alloc, set⟩, init⟩, rest⟩
    exact ⟨typed, alloc, schema, set, out, init, rest⟩

/-- The PDUs, appended to a `spec_soa` that held anything, are exported as that batch. -/
def Exports (api : Nanoarrow) (order : WireEndian) (N : Nat) (pdus : List (SpecPdu spec))
    (batch : RecordBatch) : Prop :=
  ∀ columns : (c : Fin (columnsOfSpec spec).length) →
      Vector ((columnsOfSpec spec).get c).elem.Value N,
    ∃ soa out, appendAll (Soa.mk columns 0) pdus = some soa ∧
      soa.toArrowSpec api order = .ok out ∧ out.batch = batch

theorem exports_batchOf {api : Nanoarrow} {order : WireEndian} (documented : api.Documented order)
    (uniform : ∀ column ∈ columnsOfSpec spec, column.elem.Uniform) {pdus : List (SpecPdu spec)}
    (room : pdus.length ≤ N) :
    Exports api order N pdus (batchOf order (columnsOfSpec spec) pdus) := by
  intro columns
  obtain ⟨soa, out, filled, ran, batch⟩ := Soa.exports_batchOf documented uniform room columns
  exact ⟨soa, out, filled, toArrowSpec_eq_ok_iff.mpr ran, batch⟩

end SpecSoa

/-! ### Columns of a struct -/

theorem ofNat_toNat_self {w : Nat} (value : BitVec w) : BitVec.ofNat w value.toNat = value :=
  (BitVec.ofNat_toNat w value).trans (BitVec.setWidth_eq value)

theorem ofFieldValue_fieldValue (elem : ElemType) (value : elem.Value) :
    elem.ofFieldValue (elem.fieldValue value) = value := by
  cases elem with
  | bool => cases (value : Bool) <;> rfl
  | int type =>
      change (ElemType.int type).ofFieldValue
        (if type.signed then .int (BitVec.toInt value) else .uint (BitVec.toNat value)) = value
      cases type.signed with
      | true => exact BitVec.ofInt_toInt
      | false => exact ofNat_toNat_self value
  | float => exact ofNat_toNat_self value
  | double => exact ofNat_toNat_self value
  | bytes width positive =>
      apply Vector.ext
      intro i inside
      change (Vector.ofFn fun i : Fin width => (Vector.toList value).getD i 0)[i] = _
      rw [Vector.getElem_ofFn]
      simp [inside]

/-- Columns are those of the fields if they are named and typed alike and hold what
the fields read. -/
theorem filterMap_specCol {spec : WireSpec} {cols : List (Column (SpecPdu spec))}
    {fields : List Field}
    (shape : cols.map (fun column => (column.name, some column.elem)) =
      fields.map fun field => (field.name, valueType field.kind))
    (values : ∀ pdu : SpecPdu spec,
      cols.map (fun column => column.elem.fieldValue (column.get pdu)) =
        fields.map fun field => readField pdu.buffer pdu.off field) :
    fields.filterMap specCol = cols := by
  induction cols generalizing fields with
  | nil =>
      obtain rfl := List.map_eq_nil_iff.mp shape.symm
      rfl
  | cons column cols inductionHypothesis =>
      cases fields with
      | nil => exact absurd shape (List.cons_ne_nil _ _)
      | cons field fields =>
          obtain ⟨here, others⟩ := List.cons.inj shape
          obtain ⟨name, elem⟩ := Prod.mk.inj here
          have read : ∀ pdu, column.elem.ofFieldValue (readField pdu.buffer pdu.off field) =
              column.get pdu := by
            intro pdu
            have value : column.elem.fieldValue (column.get pdu) =
                readField pdu.buffer pdu.off field := (List.cons.inj (values pdu)).1
            rw [← value]
            exact ofFieldValue_fieldValue column.elem (column.get pdu)
          have same : specCol field = some column := by
            rw [specCol, ← elem, Option.map_some]
            simp only [read, ← name]
          rw [List.filterMap_cons_some same, inductionHypothesis others fun pdu =>
            (List.cons.inj (values pdu)).2]

section Structs

variable {spec : WireSpec} {S : WireStruct}

/-- The object of the struct that a PDU is. -/
def SpecPdu.object (native : WireEndian) (S : WireStruct) (pdu : SpecPdu spec) :
    S.described.Row :=
  fun k => (S.described.get k).type.objectAt native pdu.buffer (pdu.off + S.offsetOf k)

theorem SpecPdu.overlay_eq (native : WireEndian) (size : S.size = specSize spec)
    (pdu : SpecPdu spec) :
    S.overlay native pdu.buffer pdu.off = some (pdu.object native S) := by
  refine if_neg ?_
  rw [size]
  exact Nat.not_lt.mpr pdu.inside

/-- The columns of a spec that lists the columns of a struct are those columns. -/
theorem columnsOfSpec_eq (native : WireEndian) (size : S.size = specSize spec)
    (fields : S.fields = spec) (onWire : ∀ placed ∈ S.layout, placed.1.type.OnWire)
    (shape : S.described.columns.map (fun column => (column.name, some column.elem)) =
      spec.map fun field => (field.name, valueType field.kind)) :
    columnsOfSpec spec =
      S.described.columns.map (Column.comap fun pdu : SpecPdu spec => pdu.object native S) := by
  apply filterMap_specCol
  · rw [List.map_map]
    exact shape
  · intro pdu
    have columns := WireStruct.columns_overlay onWire (pdu.overlay_eq native size)
    rw [fields] at columns
    have values := congrArg (List.map Prod.snd) columns
    rw [List.map_map, List.map_map] at values
    rw [List.map_map]
    exact values

/-- The batch of PDUs is the batch of the objects that they are. -/
theorem batchOf_columnsOfSpec (order : WireEndian) (size : S.size = specSize spec)
    (fields : S.fields = spec) (onWire : ∀ placed ∈ S.layout, placed.1.type.OnWire)
    (shape : S.described.columns.map (fun column => (column.name, some column.elem)) =
      spec.map fun field => (field.name, valueType field.kind))
    (pdus : List (SpecPdu spec)) :
    batchOf order (columnsOfSpec spec) pdus =
      batchOf order S.described.columns (pdus.map fun pdu => pdu.object order S) := by
  rw [columnsOfSpec_eq order size fields onWire shape, batchOf, batchOf, List.map_map,
    List.length_map]
  congr 1
  apply List.map_congr_left
  intro column _
  change bulkFilled order column.elem (pdus.map (column.get ∘ fun pdu => pdu.object order S)) = _
  rw [List.map_map]

end Structs

end Nanotins.Soatins
