import Nanotins.Dpar.DescribedRow
import Nanotins.Soatins.ArrowBatch

/-!
Contract: the Arrow export of rule tables, as `dpar_arrow.hpp` makes it.

Owns: `table_to_arrow`, how a record batch reads back to rows, and that the exports
of an engine's tables read back to the rows its calls made (`tables_exported`).

Does not own: what nanoarrow does, beyond its documentation.
-/

namespace Nanotins.Dpar

open Nanotins.Library Nanotins.Wire Nanotins.Soatins

section Export

variable {Row : Type}

def RowField.column (field : RowField Row) : Column Row where
  name := field.name
  elem := .int field.type
  get row := BitVec.ofNat field.type.bits (field.get row)

def DescribedRow.columns (described : DescribedRow Row) : List (Column Row) :=
  described.fields.map RowField.column

/-- `none` is a row stored out of bounds. -/
def tableToArrow (api : Nanoarrow) (described : DescribedRow Row) (rows : List Row) :
    Option (Except String (ArrowStruct described.columns.length)) :=
  (DynamicSoa.ofRows rows).map (DynamicSoa.toArrow api)

/-- The values of a member in the child for it. -/
def readCells (order : WireEndian) (n : Nat) (field : RowField Row) (child : ArrowArray) :
    List Nat :=
  (readColumn order (.int field.type) n child.data).map BitVec.toNat

/-- The rows of a batch. -/
def readTable (order : WireEndian) (described : DescribedRow Row) (batch : RecordBatch) :
    Option (List Row) :=
  let columns := List.zipWith (readCells order batch.length) described.fields batch.children
  (List.range batch.length).mapM fun i => described.ofCells (columns.map (·.getD i 0))

end Export

/-! ### Reading back -/

section ReadBack

variable {Row : Type} {order : WireEndian} {described : DescribedRow Row} {rows : List Row}

theorem readCells_column (field : RowField Row)
    (inRange : ∀ row ∈ rows, field.get row < 2 ^ field.type.bits) :
    readCells order rows.length field
        (bulkFilled order field.column.elem (rows.map field.column.get)) =
      rows.map field.get := by
  have value : ∀ row ∈ rows,
      (BitVec.ofNat field.type.bits (field.get row)).toNat = field.get row := by
    intro row member
    rw [BitVec.toNat_ofNat, Nat.mod_eq_of_lt (inRange row member)]
  have read : readColumn order (.int field.type) rows.length
      (bulkFilled order (.int field.type) (rows.map field.column.get)).data =
        rows.map fun row => BitVec.ofNat field.type.bits (field.get row) := by
    have filled := readColumn_flatMap order field.column.elem (rows.map field.column.get)
    rw [List.length_map] at filled
    exact filled
  have cells := congrArg (List.map BitVec.toNat) read
  rw [List.map_map] at cells
  exact cells.trans (List.map_congr_left value)

theorem mapM_range_eq_some {α : Type} {items : List α} {found : Nat → Option α}
    (each : ∀ i (below : i < items.length), found i = some items[i]) :
    (List.range items.length).mapM found = some items := by
  rw [← List.map_coe_finRange_eq_range, List.mapM_map]
  have listed : (List.finRange items.length).mapM (found ∘ Fin.val) =
      some ((List.finRange items.length).map items.get) :=
    mapM_eq_some fun i _ => each i i.isLt
  rw [List.map_get_finRange] at listed
  exact listed

/-- A batch of rows whose values fit their members reads back to the rows. -/
theorem readTable_batchOf (inRange : ∀ row ∈ rows, described.InRange row) :
    readTable order described (batchOf order described.columns rows) = some rows := by
  have columns : List.zipWith (readCells order rows.length) described.fields
      (described.columns.map fun column => bulkFilled order column.elem (rows.map column.get)) =
        described.fields.map fun field => rows.map field.get := by
    rw [DescribedRow.columns, List.map_map, List.zipWith_map_right, List.zipWith_self]
    apply List.map_congr_left
    intro field member
    exact readCells_column field fun row listed => inRange row listed field member
  unfold readTable batchOf
  dsimp only
  rw [columns]
  apply mapM_range_eq_some
  intro i below
  rw [List.map_map, ← described.ofCells_cells rows[i]]
  congr 1
  apply List.map_congr_left
  intro field _
  change (rows.map field.get).getD i 0 = field.get rows[i]
  rw [List.getD_eq_getElem _ _ (by rwa [List.length_map]), List.getElem_map]

/-- The export of a table reads back to it. -/
theorem tableToArrow_reads {api : Nanoarrow} (documented : api.Documented order)
    (inRange : ∀ row ∈ rows, described.InRange row) :
    ∃ out, tableToArrow api described rows = some (.ok out) ∧
      readTable order described out.batch = some rows := by
  have uniform : ∀ column ∈ described.columns, column.elem.Uniform :=
    List.forall_mem_map.mpr fun _ _ => trivial
  obtain ⟨soa, out, stored, ran, batch⟩ := DynamicSoa.exports_batchOf documented uniform rows
  refine ⟨out, ?_, ?_⟩
  · rw [tableToArrow, stored, Option.map_some, ran]
  · rw [batch, readTable_batchOf inRange]

end ReadBack

/-! ### Tables of an engine -/

/-- After any loads and runs on a fresh engine, every table is exported, and its
batch reads back to the rows that the Kind made of the calls which select it, in
order. -/
theorem tables_exported {api : Nanoarrow} {order : WireEndian} (documented : api.Documented order)
    {palette : Palette} (appends : ∀ kind ∈ palette, kind.Appends)
    (described : (i : Fin palette.length) → (palette.get i).Described) (calls : List EngineCall)
    (ids : PacketIdsFit calls) :
    ∃ engine, Engine.after palette buildL2l3Catalog calls = some engine ∧
      ∀ i, ∃ out,
        tableToArrow api (described i).row (palette.table engine.tables i) = some (.ok out) ∧
          readTable order (described i).row out.batch =
            some ((callsMade palette buildL2l3Catalog [] calls).flatMap (palette.rowsAt i)) := by
  obtain ⟨engine, reached, tables⟩ := exists_after appends calls
  refine ⟨engine, reached, fun i => ?_⟩
  rw [tables i]
  exact tableToArrow_reads documented (inRange_of_callsMade ids i (described i))

theorem tables_exported_ipv4Rule :
    let calls := [.loadRules ipv4Rule, .run ⟨recordPacket, 0⟩, .loadRules "=>".toList,
      .run ⟨recordPacket, 1⟩]
    ∃ engine, Engine.after DefaultPalette buildL2l3Catalog calls = some engine ∧
      ∀ i, ∃ out,
        tableToArrow (nanoarrow .big) (DefaultPalette.described i).row
            (DefaultPalette.table engine.tables i) = some (.ok out) ∧
          readTable .big (DefaultPalette.described i).row out.batch =
            some ((callsMade DefaultPalette buildL2l3Catalog [] calls).flatMap
              (DefaultPalette.rowsAt i)) := by
  refine tables_exported (nanoarrow_documented .big) defaultPalette_appends _ _ ?_
  intro pkt run
  simp only [List.mem_cons, EngineCall.run.injEq, reduceCtorEq, false_or, List.not_mem_nil,
    or_false] at run
  rcases run with rfl | rfl <;> decide

end Nanotins.Dpar
