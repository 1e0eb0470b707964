import Nanotins.Children.Tlv
import Nanotins.SpecDag.Decode

/-!
Contract: the SRv6 segments and the options of IPv6 extension headers, as
`ipv6_children.hpp` and `ipv6_children_bulk.hpp` tabulate them.

Owns: the two traversals over an arbitrary byte reader, the child tables, the
serial, count and scatter passes, and that all three act on the same rows.

Does not own: schedules of the scatter kernels.
-/

namespace Nanotins.Children

open Nanotins.Library Nanotins.Wire Nanotins.SpecDag

/-! ### Traversals -/

/-- A child of a segment routing header; `ptr` is the offset of a 16-byte
address. -/
inductive SrhChild where
  | segment (index : UInt8) (ptr : Nat)
  | tlv (type length : UInt8)
deriving DecidableEq, Repr

/-- The segment loop from index `i`, with `remaining` rounds to go. -/
def srhSegments (segBase nseg stop : Nat) : Nat → Nat → List SrhChild
  | 0, _ => []
  | remaining + 1, i =>
      match repeatAt segBase nseg 16 stop i with
      | none => []
      | some s => .segment (UInt8.ofNat i) s :: srhSegments segBase nseg stop remaining (i + 1)

section Traversals

variable {m : Type → Type} [Monad m] (rd : Nat → m UInt8)

/-- The segments, then the TLVs, of the header at `off`. -/
def forEachSrhChildM (off size : Nat) : m (List SrhChild) := do
  let srhLen := ((← readUintM rd off Ipv6SrhSpec.hdrExtLen) + 1) * 8
  let stop := clampEnd (off + srhLen) size
  let nseg := (← readUintM rd off Ipv6SrhSpec.lastEntry) + 1
  let segBase := off + 8
  let segments := srhSegments segBase nseg stop nseg 0
  let tlvStart := segBase + nseg * 16
  if tlvStart < stop then
    let records ← TlvCursor.recordsM rd ⟨tlvStart, stop, .ipv6Options⟩
    return segments ++ records.map fun record => .tlv record.type record.length
  else
    return segments

/-- The options of the Hop-by-Hop or Destination Options header at `off`. -/
def forEachOptM (off size : Nat) : m (List OptChild) := do
  let hdrLen := ((← readUintM rd off Ipv6ExtOptSpec.hdrExtLen) + 1) * 8
  let stop := clampEnd (off + hdrLen) size
  -- behind the next header and length octets
  let start := off + 2
  if stop ≤ start then
    return []
  else
    let records ← TlvCursor.recordsM rd ⟨start, stop, .ipv6Options⟩
    return records.map fun record => ⟨record.type, record.length⟩

end Traversals

def forEachSrhChild (pkt : Bytes) (off : Nat) : List SrhChild :=
  Id.run (forEachSrhChildM (byteAt pkt) off pkt.length)

def forEachOpt (pkt : Bytes) (off : Nat) : List OptChild :=
  Id.run (forEachOptM (byteAt pkt) off pkt.length)

theorem segment_mem_srhSegments {segBase nseg stop remaining i ptr : Nat} {index : UInt8}
    (member : .segment index ptr ∈ srhSegments segBase nseg stop remaining i) :
    segBase ≤ ptr ∧ ptr + 16 ≤ stop := by
  induction remaining generalizing i with
  | zero => contradiction
  | succ remaining inductionHypothesis =>
      rw [srhSegments] at member
      split at member
      · contradiction
      · next s found =>
          rcases List.mem_cons.mp member with here | later
          · cases here
            have := repeatAt_some found
            omega
          · exact inductionHypothesis later

theorem forEachSrhChild_eq (pkt : Bytes) (off : Nat) :
    forEachSrhChild pkt off =
      let srhLen := (readUint pkt off Ipv6SrhSpec.hdrExtLen + 1) * 8
      let stop := clampEnd (off + srhLen) pkt.length
      let nseg := readUint pkt off Ipv6SrhSpec.lastEntry + 1
      if off + 8 + nseg * 16 < stop then
        srhSegments (off + 8) nseg stop nseg 0 ++
          (TlvCursor.records pkt ⟨off + 8 + nseg * 16, stop, .ipv6Options⟩).map
            fun record => .tlv record.type record.length
      else srhSegments (off + 8) nseg stop nseg 0 :=
  rfl

theorem forEachOpt_eq (pkt : Bytes) (off : Nat) :
    forEachOpt pkt off =
      let hdrLen := (readUint pkt off Ipv6ExtOptSpec.hdrExtLen + 1) * 8
      let stop := clampEnd (off + hdrLen) pkt.length
      if stop ≤ off + 2 then []
      else (TlvCursor.records pkt ⟨off + 2, stop, .ipv6Options⟩).map
        fun record => ⟨record.type, record.length⟩ :=
  rfl

/-- The address of a reported segment lies in the packet. -/
theorem segment_mem_forEachSrhChild {pkt : Bytes} {off ptr : Nat} {index : UInt8}
    (member : .segment index ptr ∈ forEachSrhChild pkt off) : ptr + 16 ≤ pkt.length := by
  rw [forEachSrhChild_eq] at member
  dsimp only at member
  have inside := clampEnd_le (off + (readUint pkt off Ipv6SrhSpec.hdrExtLen + 1) * 8) pkt.length
  split at member
  · rcases List.mem_append.mp member with segment | tlv
    · have := segment_mem_srhSegments segment
      omega
    · simp at tlv
  · have := segment_mem_srhSegments member
    omega

section Guarded

variable {pkt : Bytes} {off : Nat}

theorem forEachSrhChildM_guarded (fits : off + specSize Ipv6SrhSpec.fields ≤ pkt.length) :
    forEachSrhChildM (guardedByte pkt 0 pkt.length) off pkt.length =
      some (forEachSrhChild pkt off) := by
  have field : ∀ field ∈ Ipv6SrhSpec.fields, readUintM (guardedByte pkt 0 pkt.length) off field =
      some (readUint pkt off field) := fun field member =>
    readUintM_guarded_of_mem member (Nat.zero_le off) fits
  rw [forEachSrhChildM, field Ipv6SrhSpec.hdrExtLen (by decide),
    field Ipv6SrhSpec.lastEntry (by decide), forEachSrhChild_eq]
  dsimp only [bind, Option.bind]
  split
  · rw [TlvCursor.recordsM_guarded (Nat.zero_le _) (clampEnd_le _ _)]
    rfl
  · rfl

theorem forEachOptM_guarded (fits : off + specSize Ipv6ExtOptSpec.fields ≤ pkt.length) :
    forEachOptM (guardedByte pkt 0 pkt.length) off pkt.length = some (forEachOpt pkt off) := by
  have member : Ipv6ExtOptSpec.hdrExtLen ∈ Ipv6ExtOptSpec.fields := by decide
  rw [forEachOptM, readUintM_guarded_of_mem member (Nat.zero_le off) fits, forEachOpt_eq]
  dsimp only [bind, Option.bind]
  split
  · rfl
  · rw [TlvCursor.recordsM_guarded (Nat.zero_le _) (clampEnd_le _ _)]
    rfl

end Guarded

/-! ### Child tables -/

inductive Ipv6ChildTable where
  | srhSegment | opt
deriving DecidableEq, Repr

inductive Ipv6ChildColumn where
  | segPacketId | srhOrder | segmentIndex | address
  | optPacketId | containerType | optType | optLen
deriving DecidableEq, Repr

namespace Ipv6ChildColumn

def table : Ipv6ChildColumn → Ipv6ChildTable
  | segPacketId | srhOrder | segmentIndex | address => .srhSegment
  | optPacketId | containerType | optType | optLen => .opt

def ofTable : Ipv6ChildTable → List Ipv6ChildColumn
  | .srhSegment => [segPacketId, srhOrder, segmentIndex, address]
  | .opt => [optPacketId, containerType, optType, optLen]

end Ipv6ChildColumn

abbrev ipv6ChildSchema : Schema where
  Table := Ipv6ChildTable
  Col := Ipv6ChildColumn
  Value := FieldValue
  tableOf := Ipv6ChildColumn.table
  columns := Ipv6ChildColumn.ofTable
  key
    | .srhSegment => .segPacketId
    | .opt => .optPacketId
  mem_columns table col := by cases table <;> cases col <;> decide
  nodup_columns table := by cases table <;> decide
  tableOf_key table := by cases table <;> rfl

abbrev Ipv6ChildTables := Store ipv6ChildSchema

def Ipv6SrhSegmentTable.add (kids : Ipv6ChildTables) (packetId : Nat) (order idx : UInt8)
    (a : Bytes) : Ipv6ChildTables :=
  kids.pushAll
    [(.segPacketId, .uint packetId), (.srhOrder, .uint order.toNat),
      (.segmentIndex, .uint idx.toNat), (.address, .bytes a)]

def Ipv6OptTable.add (kids : Ipv6ChildTables) (packetId : Nat) (container type len : UInt8) :
    Ipv6ChildTables :=
  kids.pushAll
    [(.optPacketId, .uint packetId), (.containerType, .uint container.toNat),
      (.optType, .uint type.toNat), (.optLen, .uint len.toNat)]

/-! ### The serial pass -/

section Passes

variable {G : Graph Id} (nodeType : G.Node → Option L2L3Node) (packetId : Nat) (pkt : Bytes)

/-- The two callbacks of `emit_srh_children`. -/
def emitSrhChild (srhOrder : UInt8) (kids : Ipv6ChildTables) : SrhChild → Ipv6ChildTables
  | .segment idx s => Ipv6SrhSegmentTable.add kids packetId srhOrder idx (readBytes pkt s 16)
  | .tlv type len => Ipv6OptTable.add kids packetId 43 type len

def emitSrhChildren (off : Nat) (srhOrder : UInt8) (kids : Ipv6ChildTables) : Ipv6ChildTables :=
  (forEachSrhChild pkt off).foldl (emitSrhChild packetId pkt srhOrder) kids

def emitOptChildren (off : Nat) (container : UInt8) (kids : Ipv6ChildTables) : Ipv6ChildTables :=
  (forEachOpt pkt off).foldl
    (fun kids opt => Ipv6OptTable.add kids packetId container opt.type opt.length) kids

/-- What `dag_decode_packet_with_children` does at a visit beside appending the
node's row.  The second component is the next `srh_order`, a `uint8_t`;
`nodeType` is the type of a node of the graph, if it is one of those the child
decoders know. -/
def emitIpv6Visit (state : Ipv6ChildTables × UInt8) (visit : G.Node × Nat) :
    Ipv6ChildTables × UInt8 :=
  if nodeType visit.1 = some .ipv6Routing then
    (emitSrhChildren packetId pkt visit.2 state.2 state.1, state.2 + 1)
  else if nodeType visit.1 = some .ipv6HopByHop then
    (emitOptChildren packetId pkt visit.2 0 state.1, state.2)
  else if nodeType visit.1 = some .ipv6DestOpt then
    (emitOptChildren packetId pkt visit.2 60 state.1, state.2)
  else state

def dagDecodePacketWithChildren (tabs : DagTables G) (kids : Ipv6ChildTables) (root : G.Node) :
    DagTables G × Ipv6ChildTables :=
  let decoded := dagDecodePacketWith G (emitIpv6Visit nodeType packetId pkt) packetId pkt tabs
    (kids, 0) root
  (decoded.1, decoded.2.1)

/-! ### The count and scatter passes -/

abbrev Ipv6ChildCounts := Counters ipv6ChildSchema

def countSrhChild (c : Ipv6ChildCounts) : SrhChild → Ipv6ChildCounts
  | .segment _ _ => bump counterModulus c .srhSegment
  | .tlv _ _ => bump counterModulus c .opt

def countIpv6Visit (c : Ipv6ChildCounts) (visit : G.Node × Nat) : Ipv6ChildCounts :=
  if nodeType visit.1 = some .ipv6Routing then
    (forEachSrhChild pkt visit.2).foldl countSrhChild c
  else if nodeType visit.1 = some .ipv6HopByHop ∨ nodeType visit.1 = some .ipv6DestOpt then
    (forEachOpt pkt visit.2).foldl (fun c _ => bump counterModulus c .opt) c
  else c

def countPacketIpv6Children (root : G.Node) : Ipv6ChildCounts :=
  (walk G root pkt).visits.foldl (countIpv6Visit nodeType pkt) fun _ => 0

/-- The writes of an option into row `slot`. -/
def scatterIpv6Opt (container type len : UInt8) (slot : Nat) : List (Write ipv6ChildSchema) :=
  [⟨.optPacketId, slot, .uint packetId⟩, ⟨.containerType, slot, .uint container.toNat⟩,
    ⟨.optType, slot, .uint type.toNat⟩, ⟨.optLen, slot, .uint len.toNat⟩]

/-- The two callbacks for a routing header.  The copy of an address into its
16-byte row is one write. -/
def scatterSrhChild (order : UInt8) (state : Scatter ipv6ChildSchema) :
    SrhChild → Scatter ipv6ChildSchema
  | .segment idx s => state.row counterModulus .srhSegment fun seg =>
      [⟨.segPacketId, seg, .uint packetId⟩, ⟨.srhOrder, seg, .uint order.toNat⟩,
        ⟨.segmentIndex, seg, .uint idx.toNat⟩, ⟨.address, seg, .bytes (readBytes pkt s 16)⟩]
  | .tlv type len => state.row counterModulus .opt (scatterIpv6Opt packetId 43 type len)

/-- The scatter visitor; the second component is the next `srh_order`. -/
def scatterIpv6Visit (state : Scatter ipv6ChildSchema × UInt8) (visit : G.Node × Nat) :
    Scatter ipv6ChildSchema × UInt8 :=
  if nodeType visit.1 = some .ipv6Routing then
    ((forEachSrhChild pkt visit.2).foldl (scatterSrhChild packetId pkt state.2) state.1,
      state.2 + 1)
  else if nodeType visit.1 = some .ipv6HopByHop ∨ nodeType visit.1 = some .ipv6DestOpt then
    let container : UInt8 := if nodeType visit.1 = some .ipv6HopByHop then 0 else 60
    ((forEachOpt pkt visit.2).foldl
      (fun state opt => state.row counterModulus .opt
        (scatterIpv6Opt packetId container opt.type opt.length)) state.1, state.2)
  else state

def scatterPacketIpv6Children (root : G.Node) (base : Ipv6ChildCounts) :
    List (Write ipv6ChildSchema) :=
  ((walk G root pkt).visits.foldl (scatterIpv6Visit nodeType packetId pkt)
    (⟨base, []⟩, 0)).1.issued

/-! ### All passes act on the same rows -/

def ipv6OptRow (container : UInt8) (opt : OptChild) : Row ipv6ChildSchema where
  table := .opt
  cell
    | .optPacketId => .uint packetId
    | .containerType => .uint container.toNat
    | .optType => .uint opt.type.toNat
    | .optLen => .uint opt.length.toNat
    | _ => default

def srhRow (order : UInt8) : SrhChild → Row ipv6ChildSchema
  | .segment idx s =>
      { table := .srhSegment
        cell := fun
          | .segPacketId => .uint packetId
          | .srhOrder => .uint order.toNat
          | .segmentIndex => .uint idx.toNat
          | .address => .bytes (readBytes pkt s 16)
          | _ => default }
  | .tlv type len => ipv6OptRow packetId 43 ⟨type, len⟩

/-- The rows of a visited header, `order` routing headers into the packet. -/
def ipv6VisitRows (order : UInt8) (visit : G.Node × Nat) : List (Row ipv6ChildSchema) :=
  if nodeType visit.1 = some .ipv6Routing then
    (forEachSrhChild pkt visit.2).map (srhRow packetId pkt order)
  else if nodeType visit.1 = some .ipv6HopByHop ∨ nodeType visit.1 = some .ipv6DestOpt then
    let container : UInt8 := if nodeType visit.1 = some .ipv6HopByHop then 0 else 60
    (forEachOpt pkt visit.2).map (ipv6OptRow packetId container)
  else []

def nextSrhOrder (order : UInt8) (node : G.Node) : UInt8 :=
  if nodeType node = some .ipv6Routing then order + 1 else order

def ipv6VisitsRows : UInt8 → List (G.Node × Nat) → List (Row ipv6ChildSchema)
  | _, [] => []
  | order, visit :: visits =>
      ipv6VisitRows nodeType packetId pkt order visit ++
        ipv6VisitsRows (nextSrhOrder nodeType order visit.1) visits

/-- The child rows of a packet. -/
def ipv6ChildRows (root : G.Node) : List (Row ipv6ChildSchema) :=
  ipv6VisitsRows nodeType packetId pkt 0 (walk G root pkt).visits

end Passes

section Rows

variable {G : Graph Id} {nodeType : G.Node → Option L2L3Node} {packetId : Nat} {pkt : Bytes}

theorem emitSrhChild_eq (order : UInt8) :
    emitSrhChild packetId pkt order =
      fun kids child => kids.append (srhRow packetId pkt order child) := by
  funext kids child
  cases child <;> rfl

theorem countSrhChild_eq (order : UInt8) :
    countSrhChild = fun c child => bump counterModulus c (srhRow packetId pkt order child).table := by
  funext c child
  cases child <;> rfl

theorem scatterSrhChild_eq (order : UInt8) :
    scatterSrhChild packetId pkt order = fun state child =>
      state.row counterModulus (srhRow packetId pkt order child).table
        (srhRow packetId pkt order child).writes := by
  funext state child
  cases child <;> rfl

theorem emitOptChildren_eq (off : Nat) (container : UInt8) (kids : Ipv6ChildTables) :
    emitOptChildren packetId pkt off container kids =
      kids.appendAll ((forEachOpt pkt off).map (ipv6OptRow packetId container)) := by
  rw [Store.appendAll, List.foldl_map]
  rfl

theorem emitIpv6Visit_eq (kids : Ipv6ChildTables) (order : UInt8) (visit : G.Node × Nat) :
    emitIpv6Visit nodeType packetId pkt (kids, order) visit =
      (kids.appendAll (ipv6VisitRows nodeType packetId pkt order visit),
        nextSrhOrder nodeType order visit.1) := by
  rw [emitIpv6Visit, ipv6VisitRows, nextSrhOrder]
  by_cases srh : nodeType visit.1 = some .ipv6Routing
  · rw [if_pos srh, if_pos srh, if_pos srh, emitSrhChildren, emitSrhChild_eq, Store.appendAll,
      List.foldl_map]
  rw [if_neg srh, if_neg srh, if_neg srh]
  by_cases hopByHop : nodeType visit.1 = some .ipv6HopByHop
  · rw [if_pos hopByHop, if_pos (.inl hopByHop), if_pos hopByHop, emitOptChildren_eq]
  rw [if_neg hopByHop, if_neg hopByHop]
  by_cases destOpt : nodeType visit.1 = some .ipv6DestOpt
  · rw [if_pos destOpt, if_pos (.inr destOpt), emitOptChildren_eq]
  · rw [if_neg destOpt, if_neg (not_or.mpr ⟨hopByHop, destOpt⟩)]
    rfl

theorem countIpv6Visit_eq (order : UInt8) (c : Ipv6ChildCounts) (visit : G.Node × Nat) :
    countIpv6Visit nodeType pkt c visit =
      countRows counterModulus c (ipv6VisitRows nodeType packetId pkt order visit) := by
  rw [countIpv6Visit, ipv6VisitRows]
  split_ifs
  · rw [countSrhChild_eq order, countRows, List.foldl_map]
  · rw [countRows, List.foldl_map]
    rfl
  · rw [countRows, List.foldl_map]
    rfl
  · rfl

theorem scatterIpv6Visit_eq (state : Scatter ipv6ChildSchema) (order : UInt8)
    (visit : G.Node × Nat) :
    scatterIpv6Visit nodeType packetId pkt (state, order) visit =
      (state.rows counterModulus (ipv6VisitRows nodeType packetId pkt order visit),
        nextSrhOrder nodeType order visit.1) := by
  rw [scatterIpv6Visit, ipv6VisitRows, nextSrhOrder]
  by_cases srh : nodeType visit.1 = some .ipv6Routing
  · rw [if_pos srh, if_pos srh, if_pos srh, scatterSrhChild_eq, Scatter.rows, List.foldl_map]
  rw [if_neg srh, if_neg srh, if_neg srh]
  split
  · rw [Scatter.rows, List.foldl_map]
    rfl
  · rfl

/-! ### Whole packets -/

theorem foldl_emitIpv6Visit (kids : Ipv6ChildTables) (order : UInt8)
    (visits : List (G.Node × Nat)) :
    (visits.foldl (emitIpv6Visit nodeType packetId pkt) (kids, order)).1 =
      kids.appendAll (ipv6VisitsRows nodeType packetId pkt order visits) := by
  induction visits generalizing kids order with
  | nil => rfl
  | cons visit visits inductionHypothesis =>
      rw [List.foldl_cons, emitIpv6Visit_eq, inductionHypothesis, ipv6VisitsRows,
        Store.appendAll_append]

theorem foldl_countIpv6Visit (order : UInt8) (c : Ipv6ChildCounts) (visits : List (G.Node × Nat)) :
    visits.foldl (countIpv6Visit nodeType pkt) c =
      countRows counterModulus c (ipv6VisitsRows nodeType packetId pkt order visits) := by
  induction visits generalizing order c with
  | nil => rfl
  | cons visit visits inductionHypothesis =>
      rw [List.foldl_cons, inductionHypothesis (nextSrhOrder nodeType order visit.1),
        countIpv6Visit_eq order, ipv6VisitsRows, countRows_append]

theorem foldl_scatterIpv6Visit (state : Scatter ipv6ChildSchema) (order : UInt8)
    (visits : List (G.Node × Nat)) :
    (visits.foldl (scatterIpv6Visit nodeType packetId pkt) (state, order)).1 =
      state.rows counterModulus (ipv6VisitsRows nodeType packetId pkt order visits) := by
  induction visits generalizing state order with
  | nil => rfl
  | cons visit visits inductionHypothesis =>
      rw [List.foldl_cons, scatterIpv6Visit_eq, inductionHypothesis, ipv6VisitsRows,
        Scatter.rows_append]

variable {tabs : DagTables G} {kids : Ipv6ChildTables} {root : G.Node}

/-- The serial decoder appends the child rows, and fills the node tables as
without children. -/
theorem dagDecodePacketWithChildren_eq :
    dagDecodePacketWithChildren nodeType packetId pkt tabs kids root =
      (dagDecodePacket G root packetId pkt tabs,
        kids.appendAll (ipv6ChildRows nodeType packetId pkt root)) := by
  rw [dagDecodePacketWithChildren, dagDecodePacketWith_eq]
  exact congrArg (Prod.mk _) (foldl_emitIpv6Visit kids 0 _)

theorem countPacketIpv6Children_eq :
    countPacketIpv6Children nodeType pkt root =
      countRows counterModulus (fun _ => 0) (ipv6ChildRows nodeType packetId pkt root) :=
  foldl_countIpv6Visit 0 _ _

theorem scatterPacketIpv6Children_eq (base : Ipv6ChildCounts) :
    scatterPacketIpv6Children nodeType packetId pkt root base =
      scatterRows counterModulus base (ipv6ChildRows nodeType packetId pkt root) := by
  rw [scatterPacketIpv6Children, foldl_scatterIpv6Visit, Scatter.issued_rows]
  rfl

end Rows

end Nanotins.Children
