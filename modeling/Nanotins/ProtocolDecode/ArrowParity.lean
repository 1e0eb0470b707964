import Nanotins.ProtocolDecode.TableParity
import Nanotins.Soatins.SpecSoa

/-!
Contract: the record batches of the graph decoder are those of the hand-written one.

Owns: the PDUs that the graph walk visits, and that storing them by their spec
exports the batch of the hand-written table of structs (`batches_agree`).

Does not own: packets with IPv6 extension headers, where the graph walk sees more.
-/

namespace Nanotins.ProtocolDecode

open Nanotins.Library Nanotins.Wire Nanotins.SpecDag Nanotins.Soatins

/-- Where the graph walk visits a node in the packets. -/
def nodeVisits (node : L2L3Node) (pkts : List DagPacket) : List (Bytes × Nat) :=
  pkts.flatMap fun pkt =>
    ((walk l2l3 kEthRoot pkt.data).visits.filter fun visit => visit.1 = node).map
      fun visit => (pkt.data, visit.2)

section Struct

variable (type : PduType)

theorem size_struct_eq_specSize : type.struct.size = specSize type.node.spec := by
  rw [size_struct, specSize_node]

/-- The struct types its columns as the node's spec types its fields. -/
theorem shape_struct :
    type.struct.described.columns.map (fun column => (column.name, some column.elem)) =
      type.node.spec.map fun field => (field.name, valueType field.kind) := by
  cases type <;> rfl

theorem uniform_struct : ∀ column ∈ type.struct.described.columns, column.elem.Uniform := by
  cases type <;> decide

end Struct

/-! ### Objects -/

theorem fieldValue_inj {elem : ElemType} {first second : elem.Value}
    (same : elem.fieldValue first = elem.fieldValue second) : first = second := by
  rw [← ofFieldValue_fieldValue elem first, same, ofFieldValue_fieldValue]

section Objects

variable {native : WireEndian} {type : PduType}

/-- The columns of an object are those of the PDU that it was copied from. -/
theorem get_headerObject (pdu : SpecPdu type.node.spec) :
    ∀ column ∈ type.struct.described.columns,
      column.get (headerObject native type pdu.buffer pdu.off) =
        column.get (pdu.object native type.struct) := by
  have inside : pdu.off + type.size ≤ pdu.buffer.length := by
    rw [← specSize_node]
    exact pdu.inside
  have overlaid := WireStruct.columns_overlay (onWire_struct type)
    (pdu.overlay_eq native (size_struct_eq_specSize type))
  rw [fields_struct] at overlaid
  intro column member
  have copied := (@columns_headerObject native _ _ _ inside).trans overlaid.symm
  have same := List.map_inj_left.mp copied column member
  exact fieldValue_inj (congrArg Prod.snd same)

/-- Headers that are whole in their packets are PDUs. -/
theorem exists_pdus {headers : List (DagPacket × Nat)}
    (inside : ∀ header ∈ headers, header.2 + type.size ≤ header.1.data.length) :
    ∃ pdus : List (SpecPdu type.node.spec),
      pdus.map SpecPdu.place = headers.map fun (pkt, off) => (pkt.data, off) := by
  induction headers with
  | nil => exact ⟨[], rfl⟩
  | cons header headers inductionHypothesis =>
      obtain ⟨here, others⟩ := List.forall_mem_cons.mp inside
      obtain ⟨pdus, places⟩ := inductionHypothesis others
      refine ⟨⟨header.1.data, header.2, by rw [specSize_node]; exact here⟩ :: pdus, ?_⟩
      rw [List.map_cons, List.map_cons, places]
      rfl

/-- The batch of the copied objects is the batch of the PDUs. -/
theorem batchOf_headerObjects (order : WireEndian) {pdus : List (SpecPdu type.node.spec)}
    {headers : List (DagPacket × Nat)}
    (places : pdus.map SpecPdu.place = headers.map fun (pkt, off) => (pkt.data, off)) :
    batchOf order type.struct.described.columns
        (headers.map fun (pkt, off) => headerObject order type pkt.data off) =
      batchOf order (columnsOfSpec type.node.spec) pdus := by
  have objects : (headers.map fun (pkt, off) => headerObject order type pkt.data off) =
      pdus.map fun pdu => headerObject order type pdu.buffer pdu.off := by
    have mapped := congrArg (List.map fun place => headerObject order type place.1 place.2) places
    rw [List.map_map, List.map_map] at mapped
    exact mapped.symm
  rw [batchOf_columnsOfSpec order (size_struct_eq_specSize type) (fields_struct type)
    (onWire_struct type) (shape_struct type), objects, batchOf, batchOf, List.length_map,
    List.length_map]
  congr 1
  apply List.map_congr_left
  intro column member
  congr 1
  rw [List.map_map, List.map_map]
  apply List.map_congr_left
  intro pdu _
  exact get_headerObject pdu column member

/-- The graph walk visits the node where the hand-written walk copies its headers. -/
theorem nodeVisits_eq {pkts : List DagPacket} (plain : ∀ pkt ∈ pkts, PlainPacket pkt.data) :
    nodeVisits type.node pkts =
      (headersOf type pkts).map fun (pkt, off) => (pkt.data, off) := by
  rw [nodeVisits, headersOf, List.map_flatMap]
  apply List.flatMap_congr
  intro pkt member
  rw [visits_of_plain (plain pkt member), List.map_map, List.map_map]
  rfl

end Objects

/-! ### Agreement -/

/-- The columns that the node's spec makes are those of the struct, seen from the PDU. -/
theorem columnsOfSpec_node (native : WireEndian) (type : PduType) :
    columnsOfSpec type.node.spec = type.struct.described.columns.map
      (Column.comap fun pdu : SpecPdu type.node.spec => pdu.object native type.struct) :=
  columnsOfSpec_eq native (size_struct_eq_specSize type) (fields_struct type) (onWire_struct type)
    (shape_struct type)

/-- The hand-written table of structs, through `soa<T, N>` and through `soa<T>`, and
the PDUs that the graph walk visits, through `spec_soa`, are exported as one batch,
under the same column names.  The storage of a fixed extent may have held anything. -/
def BatchesAgree (api : Nanoarrow) (order : WireEndian) (type : PduType) (N : Nat)
    (pkts : List DagPacket) : Prop :=
  (columnsOfSpec type.node.spec).map Column.name =
      type.struct.described.columns.map Column.name ∧
    ∃ rows pdus batch,
      (decodePackets pkts (fun _ => []) (.rows type)).mapM (PduCell.object order type) = some rows ∧
      pdus.map SpecPdu.place = nodeVisits type.node pkts ∧
      Soa.Exports api order N type.struct.described.columns rows batch ∧
      DynamicSoa.Exports api type.struct.described.columns rows batch ∧
      SpecSoa.Exports api order N (pdus : List (SpecPdu type.node.spec)) batch

/-- Both decoders of plain packets make the same record batches, byte by byte. -/
theorem batches_agree {api : Nanoarrow} {order : WireEndian} (documented : api.Documented order)
    {pkts : List DagPacket} (plain : ∀ pkt ∈ pkts, PlainPacket pkt.data) (type : PduType) {N : Nat}
    (room : (nodeVisits type.node pkts).length ≤ N) : BatchesAgree api order type N pkts := by
  have columns := columnsOfSpec_node order type
  have visits : nodeVisits type.node pkts =
      (headersOf type pkts).map fun (pkt, off) => (pkt.data, off) := nodeVisits_eq plain
  have inside : ∀ header ∈ headersOf type pkts,
      header.2 + type.size ≤ header.1.data.length := fun _ member => inside_of_mem_headersOf member
  obtain ⟨pdus, places⟩ := exists_pdus inside
  have batch := batchOf_headerObjects order places
  have uniform : ∀ column ∈ columnsOfSpec type.node.spec, column.elem.Uniform := by
    rw [columns]
    exact List.forall_mem_map.mpr (uniform_struct type)
  have count : pdus.length = (nodeVisits type.node pkts).length := by
    rw [visits, ← places, List.length_map]
  have headers : (headersOf type pkts).length = (nodeVisits type.node pkts).length := by
    rw [visits, List.length_map]
  refine ⟨?_, (headersOf type pkts).map fun (pkt, off) => headerObject order type pkt.data off,
    pdus, batchOf order (columnsOfSpec type.node.spec) pdus, ?_, places.trans visits.symm, ?_, ?_,
    SpecSoa.exports_batchOf documented uniform (by rwa [count])⟩
  · rw [columns, List.map_map]
    rfl
  · rw [rows_decodePackets, List.mapM_map]
    apply mapM_eq_some
    intro header member
    exact object_headerBytes (inside_of_mem_headersOf member)
  · rw [← batch]
    exact Soa.exports_batchOf documented (uniform_struct type) (by rwa [List.length_map, headers])
  · rw [← batch]
    exact DynamicSoa.exports_batchOf documented (uniform_struct type) _

theorem batches_agree_qinq :
    BatchesAgree (nanoarrow .little) .little .vlan 8 [⟨qinqPacket, 1⟩, ⟨qinqPacket, 2⟩] := by
  have plain : PlainPacket qinqPacket := by decide +kernel
  refine batches_agree (nanoarrow_documented .little) ?_ .vlan (by decide +kernel)
  intro pkt member
  rcases List.mem_cons.mp member with rfl | member
  · exact plain
  · obtain rfl := List.mem_singleton.mp member
    exact plain

end Nanotins.ProtocolDecode
