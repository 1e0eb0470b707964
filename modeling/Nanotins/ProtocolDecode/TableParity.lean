import Nanotins.ProtocolDecode.WalkReads
import Nanotins.ProtocolDecode.Window
import Nanotins.Soatins.Overlay
import Nanotins.SpecDag.Decode

/-!
Contract: the tables of the graph decoder are the tables of the hand-written one.

Owns: the struct that each PDU type is stored as, the columns of a PDU table seen
through it, and that both decoders of a list of plain packets fill equal tables
(`tables_agree`).

Does not own: packets with IPv6 extension headers, where the graph walk sees more,
or how the tables are exported.
-/

namespace Nanotins.ProtocolDecode

open Nanotins.Library Nanotins.Wire Nanotins.SpecDag Nanotins.Soatins

/-! ### The rows of both tables -/

/-- A packet on which both traversals see the same headers: no header behind IPv6
but TCP or UDP, and no more headers than the graph walk takes. -/
structure PlainPacket (pkt : Bytes) : Prop where
  no_extension : ¬ HasExtension (walkPacket kLinkTypeEthernet pkt).1
  short : (walkPacket kLinkTypeEthernet pkt).1.length ≤ kMaxWalkSteps

instance (pkt : Bytes) : Decidable (PlainPacket pkt) :=
  decidable_of_iff
    ((∀ pdu ∈ (walkPacket kLinkTypeEthernet pkt).1, pdu.type = .ipv6 →
        ¬ (Ipv6.nextHeader pdu.bytes = 0 ∨ Ipv6.nextHeader pdu.bytes = 43 ∨
          Ipv6.nextHeader pdu.bytes = 44 ∨ Ipv6.nextHeader pdu.bytes = 51 ∨
          Ipv6.nextHeader pdu.bytes = 60)) ∧
      (walkPacket kLinkTypeEthernet pkt).1.length ≤ kMaxWalkSteps)
    ⟨fun checked => ⟨fun ⟨pdu, member, ipv6, extension⟩ => checked.1 pdu member ipv6 extension,
        checked.2⟩,
      fun plain => ⟨fun pdu member ipv6 extension =>
        plain.no_extension ⟨pdu, member, ipv6, extension⟩, plain.short⟩⟩

/-- Where the headers of one type stand in the packets. -/
def headersOf (type : PduType) (pkts : List DagPacket) : List (DagPacket × Nat) :=
  pkts.flatMap fun pkt =>
    ((walkPacket kLinkTypeEthernet pkt.data).1.filter fun pdu => pdu.type = type).map
      fun pdu => (pkt, pdu.offset)

/-- The bytes that a callback gets for the header at `off`. -/
def headerBytes (type : PduType) (pkt : Bytes) (off : Nat) : Bytes := (pkt.drop off).take type.size

theorem PduType.node_inj {type other : PduType} : type.node = other.node ↔ type = other := by
  cases type <;> cases other <;> decide

theorem isBase_node (type : PduType) : isBase type.node = true := by cases type <;> rfl

/-- The graph walk visits the node of a type where the hand-written walk emits its
headers. -/
theorem visits_of_plain {pkt : Bytes} (plain : PlainPacket pkt) (type : PduType) :
    (walk l2l3 kEthRoot pkt).visits.filter (fun visit => visit.1 = type.node) =
      ((walkPacket kLinkTypeEthernet pkt).1.filter fun pdu => pdu.type = type).map Pdu.place := by
  have same := (agree_walkPacket pkt).equal plain.no_extension
  rw [List.take_of_length_le (by rw [List.length_map]; exact plain.short)] at same
  have base : (walk l2l3 kEthRoot pkt).visits.filter (fun visit => visit.1 = type.node) =
      (baseVisits (walk l2l3 kEthRoot pkt).visits).filter fun visit => visit.1 = type.node := by
    rw [baseVisits, List.filter_filter]
    apply List.filter_congr
    intro visit _
    by_cases own : visit.1 = type.node
    · rw [own, isBase_node type, Bool.and_true]
    · simp [own]
  rw [base, ← same, List.filter_map]
  congr 1
  apply List.filter_congr
  intro pdu _
  exact decide_eq_decide.mpr PduType.node_inj

/-- The serial decode of a list of Ethernet packets. -/
def decodePackets (pkts : List DagPacket) (out : DecodedPdus) : DecodedPdus :=
  pkts.foldl (fun out pkt => decodePacket pkt.packetId kLinkTypeEthernet pkt.data out) out

def dagDecodePackets (pkts : List DagPacket) (tabs : DagTables l2l3) : DagTables l2l3 :=
  pkts.foldl (fun tabs pkt => dagDecodePacket l2l3 kEthRoot pkt.packetId pkt.data tabs) tabs

theorem decodePackets_apply (pkts : List DagPacket) (out : DecodedPdus) (array : PduArray) :
    decodePackets pkts out array = out array ++
      pkts.flatMap fun pkt =>
        cellsOf array (pduRows pkt.packetId kLinkTypeEthernet pkt.data) := by
  unfold decodePackets
  induction pkts generalizing out with
  | nil => rw [List.foldl_nil, List.flatMap_nil, List.append_nil]
  | cons pkt pkts inductionHypothesis =>
      rw [List.foldl_cons, inductionHypothesis, decodePacket_eq, Store.appendAll_apply,
        List.flatMap_cons, List.append_assoc]

theorem dagDecodePackets_apply (pkts : List DagPacket) (tabs : DagTables l2l3)
    (col : DagColumn l2l3) :
    dagDecodePackets pkts tabs col =
      tabs col ++ pkts.flatMap fun pkt => cellsOf col (dagRows kEthRoot pkt) := by
  unfold dagDecodePackets
  induction pkts generalizing tabs with
  | nil => rw [List.foldl_nil, List.flatMap_nil, List.append_nil]
  | cons pkt pkts inductionHypothesis =>
      rw [List.foldl_cons, inductionHypothesis, dagDecodePacket_eq, Store.appendAll_apply,
        List.flatMap_cons, List.append_assoc]

section Cells

variable {pkts : List DagPacket} {type : PduType}

theorem cellsOf_pduRows (array : PduArray) (packetId linkType : Nat) (pkt : Bytes) :
    cellsOf array (pduRows packetId linkType pkt) =
      ((walkPacket linkType pkt).1.filter fun pdu => pdu.type = array.type).map
        fun pdu => (pduRow packetId pdu).cell array := by
  rw [cellsOf, pduRows, List.filter_map, List.map_map]
  rfl

theorem cellsOf_dagRows (col : DagColumn l2l3) (pkt : DagPacket) :
    cellsOf col (dagRows kEthRoot pkt) =
      ((walk l2l3 kEthRoot pkt.data).visits.filter fun visit => visit.1 = col.node).map
        fun visit => (dagRow pkt.packetId pkt.data visit).cell col := by
  rw [cellsOf, dagRows, List.filter_map, List.map_map]
  rfl

/-- The rows of a PDU table, by where their headers stand. -/
theorem rows_decodePackets (pkts : List DagPacket) (type : PduType) :
    decodePackets pkts (fun _ => []) (.rows type) =
      (headersOf type pkts).map fun (pkt, off) => .header (headerBytes type pkt.data off) := by
  rw [decodePackets_apply, List.nil_append, headersOf, List.map_flatMap]
  apply List.flatMap_congr
  intro pkt _
  rw [cellsOf_pduRows, List.map_map]
  apply List.map_congr_left
  intro pdu member
  obtain ⟨emitted, own⟩ := List.mem_filter.mp member
  obtain rfl : pdu.type = type := of_decide_eq_true own
  have copied := (copied_of_mem_walkPacket pdu emitted).symm
  rw [overlay_of_le (le_of_overlay copied.symm)] at copied
  exact congrArg PduCell.header (Option.some.inj copied)

theorem packetIds_decodePackets (pkts : List DagPacket) (type : PduType) :
    decodePackets pkts (fun _ => []) (.packetId type) =
      (headersOf type pkts).map fun (pkt, _) => .id pkt.packetId := by
  rw [decodePackets_apply, List.nil_append, headersOf, List.map_flatMap]
  apply List.flatMap_congr
  intro pkt _
  rw [cellsOf_pduRows, List.map_map]
  rfl

/-- A column of the node's table, by where the headers stand. -/
theorem column_dagDecodePackets (plain : ∀ pkt ∈ pkts, PlainPacket pkt.data)
    (col : DagColumn l2l3) (own : col.node = type.node) :
    dagDecodePackets pkts (fun _ => []) col =
      (headersOf type pkts).map fun (pkt, off) =>
        (dagRow pkt.packetId pkt.data (type.node, off)).cell col := by
  rw [dagDecodePackets_apply, List.nil_append, headersOf, List.map_flatMap]
  apply List.flatMap_congr
  intro pkt member
  rw [cellsOf_dagRows, own, visits_of_plain (plain pkt member), List.map_map, List.map_map]
  apply List.map_congr_left
  intro pdu emitted
  have same : pdu.type = type := of_decide_eq_true (List.mem_filter.mp emitted).2
  change (dagRow pkt.packetId pkt.data (pdu.type.node, pdu.offset)).cell col = _
  rw [same]
  rfl

end Cells

/-! ### The columns of a PDU table -/

/-- The struct that the callback of a PDU type takes. -/
def PduType.struct : PduType → WireStruct
  | .ethernet => Protocols.Ethernet
  | .vlan => Protocols.VlanTag
  | .ipv4 => Protocols.Ipv4
  | .ipv6 => Protocols.Ipv6
  | .tcp => Protocols.Tcp
  | .udp => Protocols.Udp

/-- An object of the row array; ids are none. -/
def PduCell.object (native : WireEndian) (type : PduType) :
    PduCell → Option type.struct.described.Row
  | .id _ => none
  | .header bytes => type.struct.overlay native bytes 0

/-- An element of the packet-id array. -/
def PduCell.idValue : PduCell → FieldValue
  | .id packetId => .uint packetId
  | .header bytes => .bytes bytes

section Struct

variable (type : PduType)

theorem size_struct : type.struct.size = type.size := by cases type <;> decide

theorem fields_struct : type.struct.fields = type.node.spec := by cases type <;> decide

theorem onWire_struct : ∀ placed ∈ type.struct.layout, placed.1.type.OnWire := by
  cases type <;> decide

/-- The struct names its columns as the node's spec names its fields. -/
theorem names_struct :
    type.struct.described.columns.map Column.name = type.node.spec.map Field.name := by
  cases type <;> rfl

end Struct

/-- Rows that agree column by column agree as columns. -/
theorem map_columns {α β γ ρ Name : Type} {first : List α} {second : List β} {firstName : α → Name}
    {secondName : β → Name} (names : first.map firstName = second.map secondName)
    {firstValue : α → ρ → γ} {secondValue : β → ρ → γ} {rows : List ρ}
    (each : ∀ row ∈ rows, first.map (fun col => (firstName col, firstValue col row)) =
      second.map fun col => (secondName col, secondValue col row)) :
    first.map (fun col => (firstName col, rows.map (firstValue col))) =
      second.map fun col => (secondName col, rows.map (secondValue col)) := by
  induction first generalizing second with
  | nil =>
      obtain rfl := List.map_eq_nil_iff.mp names.symm
      rfl
  | cons col first inductionHypothesis =>
      cases second with
      | nil => contradiction
      | cons other second =>
          obtain ⟨name, names⟩ := List.cons.inj names
          have split := fun row member => List.cons.inj (each row member)
          have values : rows.map (firstValue col) = rows.map (secondValue other) :=
            List.map_congr_left fun row member => congrArg Prod.snd (split row member).1
          rw [List.map_cons, List.map_cons, name, values,
            inductionHypothesis names fun row member => (split row member).2]

/-- The two tables for one PDU type hold the same ids and, as columns named and
ordered alike, the same values. -/
structure TablesAgree (native : WireEndian) (type : PduType) (out : DecodedPdus)
    (tabs : DagTables l2l3) : Prop where
  packetId : (out (.packetId type)).map PduCell.idValue = tabs (.packetId type.node)
  columns : ∃ rows, (out (.rows type)).mapM (PduCell.object native type) = some rows ∧
    type.struct.described.columns.map
        (fun column => (column.name, rows.map fun row => column.elem.fieldValue (column.get row))) =
      (List.finRange type.node.spec.length).map
        fun index => ((type.node.spec.get index).name, tabs (.field type.node index))

/-- The object that the callback gets for the header at `off`. -/
def headerObject (native : WireEndian) (type : PduType) (pkt : Bytes) (off : Nat) :
    type.struct.described.Row :=
  fun k => (type.struct.described.get k).type.objectAt native (headerBytes type pkt off)
    (0 + type.struct.offsetOf k)

section Objects

variable {native : WireEndian} {type : PduType} {pkt : Bytes} {off : Nat}

theorem object_headerBytes (inside : off + type.size ≤ pkt.length) :
    PduCell.object native type (.header (headerBytes type pkt off)) =
      some (headerObject native type pkt off) := by
  refine if_neg ?_
  rw [headerBytes, List.length_take, List.length_drop, size_struct]
  omega

/-- An object of the row array has the fields of the header in the packet. -/
theorem columns_headerObject (inside : off + type.size ≤ pkt.length) :
    type.struct.described.columns.map
        (fun column => (column.name,
          column.elem.fieldValue (column.get (headerObject native type pkt off)))) =
      type.node.spec.map fun field => (field.name, readField pkt off field) := by
  rw [WireStruct.columns_overlay (onWire_struct type) (object_headerBytes inside), fields_struct]
  apply List.map_congr_left
  intro field member
  have bound := endOffset_le_specSize member
  rw [specSize_node] at bound
  rw [headerBytes, readField_copy pkt off bound]

theorem inside_of_mem_headersOf {pkts : List DagPacket} {header : DagPacket × Nat}
    (member : header ∈ headersOf type pkts) :
    header.2 + type.size ≤ header.1.data.length := by
  obtain ⟨pkt, _, placed⟩ := List.mem_flatMap.mp member
  obtain ⟨pdu, emitted, rfl⟩ := List.mem_map.mp placed
  obtain ⟨walked, own⟩ := List.mem_filter.mp emitted
  obtain rfl : pdu.type = type := of_decide_eq_true own
  exact le_of_overlay (copied_of_mem_walkPacket pdu walked)

end Objects

/-- Both decoders fill equal tables from plain packets. -/
theorem tables_agree (native : WireEndian) {pkts : List DagPacket}
    (plain : ∀ pkt ∈ pkts, PlainPacket pkt.data) (type : PduType) :
    TablesAgree native type (decodePackets pkts fun _ => []) (dagDecodePackets pkts fun _ => []) := by
  let spec := type.node.spec
  refine ⟨?_, (headersOf type pkts).map fun (pkt, off) => headerObject native type pkt.data off,
    ?_, ?_⟩
  · rw [packetIds_decodePackets, column_dagDecodePackets plain (.packetId type.node) rfl,
      List.map_map]
    rfl
  · rw [rows_decodePackets, List.mapM_map]
    apply mapM_eq_some
    intro header member
    exact object_headerBytes (inside_of_mem_headersOf member)
  · have columns : ∀ header ∈ headersOf type pkts,
        type.struct.described.columns.map
            (fun column => (column.name, column.elem.fieldValue
              (column.get (headerObject native type header.1.data header.2)))) =
          spec.map fun field => (field.name, readField header.1.data header.2 field) :=
      fun header member => columns_headerObject (inside_of_mem_headersOf member)
    have filled : ∀ index, dagDecodePackets pkts (fun _ => []) (.field type.node index) =
        (headersOf type pkts).map fun header =>
          readField header.1.data header.2 (spec.get index) :=
      fun index => column_dagDecodePackets plain (.field type.node index) rfl
    simp only [filled, List.map_map]
    refine (map_columns (names_struct type) columns).trans ?_
    have listed := congrArg
      (List.map fun field => (field.name, (headersOf type pkts).map fun header =>
        readField header.1.data header.2 field)) (List.map_get_finRange spec)
    rw [List.map_map] at listed
    exact listed.symm

theorem tables_agree_qinq :
    TablesAgree .little .vlan (decodePackets [⟨qinqPacket, 1⟩, ⟨qinqPacket, 2⟩] fun _ => [])
      (dagDecodePackets [⟨qinqPacket, 1⟩, ⟨qinqPacket, 2⟩] fun _ => []) := by
  have plain : PlainPacket qinqPacket := by decide +kernel
  refine tables_agree .little ?_ .vlan
  intro pkt member
  rcases List.mem_cons.mp member with rfl | member
  · exact plain
  · obtain rfl := List.mem_singleton.mp member
    exact plain

end Nanotins.ProtocolDecode
