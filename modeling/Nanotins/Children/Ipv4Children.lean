import Nanotins.Children.Tlv
import Nanotins.SpecDag.Decode

/-!
Contract: the options of IPv4 headers, as `ipv4_children.hpp` and
`ipv4_children_bulk.hpp` tabulate them.

Owns: the option traversal over an arbitrary byte reader, the child table, the
serial, count and scatter passes, and that all three act on the same rows.

Does not own: schedules of the scatter kernels.
-/

namespace Nanotins.Children

open Nanotins.Library Nanotins.Wire Nanotins.SpecDag

/-! ### Traversal -/

/-- The options of the IPv4 header at `off`, each with its length on the wire. -/
def forEachIpv4OptM {m : Type → Type} [Monad m] (rd : Nat → m UInt8) (off size : Nat) :
    m (List OptChild) := do
  let hdrLen := (← readUintM rd off Ipv4Spec.ihl) * 4
  if hdrLen ≤ 20 then
    return []
  else
    let stop := clampEnd (off + hdrLen) size
    let start := off + 20
    if stop ≤ start then
      return []
    else
      let records ← TlvCursor.recordsM rd ⟨start, stop, .ipv4Options⟩
      return records.map fun record =>
        ⟨record.type, if record.value = none then 1 else record.length + 2⟩

def forEachIpv4Opt (pkt : Bytes) (off : Nat) : List OptChild :=
  Id.run (forEachIpv4OptM (byteAt pkt) off pkt.length)

theorem forEachIpv4Opt_eq (pkt : Bytes) (off : Nat) :
    forEachIpv4Opt pkt off =
      let hdrLen := readUint pkt off Ipv4Spec.ihl * 4
      let stop := clampEnd (off + hdrLen) pkt.length
      if hdrLen ≤ 20 then []
      else if stop ≤ off + 20 then []
      else (TlvCursor.records pkt ⟨off + 20, stop, .ipv4Options⟩).map fun record =>
        ⟨record.type, if record.value = none then 1 else record.length + 2⟩ := by
  have ihl : readUintM (byteAt pkt) off Ipv4Spec.ihl =
      (pure (readUint pkt off Ipv4Spec.ihl) : Id Nat) := rfl
  rw [forEachIpv4Opt, forEachIpv4OptM, ihl]
  generalize readUint pkt off Ipv4Spec.ihl = words
  rfl

theorem forEachIpv4OptM_guarded {pkt : Bytes} {off : Nat}
    (fits : off + specSize Ipv4Spec.fields ≤ pkt.length) :
    forEachIpv4OptM (guardedByte pkt 0 pkt.length) off pkt.length =
      some (forEachIpv4Opt pkt off) := by
  have member : Ipv4Spec.ihl ∈ Ipv4Spec.fields := by decide
  rw [forEachIpv4OptM, readUintM_guarded_of_mem member (Nat.zero_le off) fits, forEachIpv4Opt_eq]
  dsimp only [bind, Option.bind]
  split
  · rfl
  · split
    · rfl
    · rw [TlvCursor.recordsM_guarded (Nat.zero_le _) (clampEnd_le _ _)]
      rfl

/-! ### Child table -/

inductive Ipv4ChildTable where
  | opt
deriving DecidableEq, Repr

inductive Ipv4ChildColumn where
  | packetId | optType | optLen
deriving DecidableEq, Repr

abbrev ipv4ChildSchema : Schema where
  Table := Ipv4ChildTable
  Col := Ipv4ChildColumn
  Value := FieldValue
  tableOf _ := .opt
  columns _ := [.packetId, .optType, .optLen]
  key _ := .packetId
  mem_columns
    | .opt, col => by cases col <;> decide
  nodup_columns _ := by decide
  tableOf_key _ := rfl

abbrev Ipv4ChildTables := Store ipv4ChildSchema

def Ipv4OptTable.add (kids : Ipv4ChildTables) (packetId : Nat) (type len : UInt8) :
    Ipv4ChildTables :=
  kids.pushAll
    [(.packetId, .uint packetId), (.optType, .uint type.toNat), (.optLen, .uint len.toNat)]

/-! ### Passes -/

section Passes

variable {G : Graph Id} (nodeType : G.Node → Option L2L3Node) (packetId : Nat) (pkt : Bytes)

def emitIpv4OptChildren (off : Nat) (kids : Ipv4ChildTables) : Ipv4ChildTables :=
  (forEachIpv4Opt pkt off).foldl
    (fun kids opt => Ipv4OptTable.add kids packetId opt.type opt.length) kids

/-- What `dag_decode_packet_with_ipv4_children` does at a visit beside appending
the node's row. -/
def emitIpv4Visit (kids : Ipv4ChildTables) (visit : G.Node × Nat) : Ipv4ChildTables :=
  if nodeType visit.1 = some .ipv4 then emitIpv4OptChildren packetId pkt visit.2 kids else kids

def dagDecodePacketWithIpv4Children (tabs : DagTables G) (kids : Ipv4ChildTables)
    (root : G.Node) : DagTables G × Ipv4ChildTables :=
  dagDecodePacketWith G (emitIpv4Visit nodeType packetId pkt) packetId pkt tabs kids root

abbrev Ipv4ChildCounts := Counters ipv4ChildSchema

def countIpv4Visit (c : Ipv4ChildCounts) (visit : G.Node × Nat) : Ipv4ChildCounts :=
  if nodeType visit.1 = some .ipv4 then
    (forEachIpv4Opt pkt visit.2).foldl (fun c _ => bump counterModulus c .opt) c
  else c

def countPacketIpv4Children (root : G.Node) : Ipv4ChildCounts :=
  (walk G root pkt).visits.foldl (countIpv4Visit nodeType pkt) fun _ => 0

def scatterIpv4Visit (state : Scatter ipv4ChildSchema) (visit : G.Node × Nat) :
    Scatter ipv4ChildSchema :=
  if nodeType visit.1 = some .ipv4 then
    (forEachIpv4Opt pkt visit.2).foldl
      (fun state opt => state.row counterModulus .opt fun slot =>
        [⟨.packetId, slot, .uint packetId⟩, ⟨.optType, slot, .uint opt.type.toNat⟩,
          ⟨.optLen, slot, .uint opt.length.toNat⟩]) state
  else state

def scatterPacketIpv4Children (root : G.Node) (base : Ipv4ChildCounts) :
    List (Write ipv4ChildSchema) :=
  ((walk G root pkt).visits.foldl (scatterIpv4Visit nodeType packetId pkt) ⟨base, []⟩).issued

/-! ### All passes act on the same rows -/

def ipv4OptRow (opt : OptChild) : Row ipv4ChildSchema where
  table := .opt
  cell
    | .packetId => .uint packetId
    | .optType => .uint opt.type.toNat
    | .optLen => .uint opt.length.toNat

def ipv4VisitRows (visit : G.Node × Nat) : List (Row ipv4ChildSchema) :=
  if nodeType visit.1 = some .ipv4 then (forEachIpv4Opt pkt visit.2).map (ipv4OptRow packetId)
  else []

/-- The child rows of a packet. -/
def ipv4ChildRows (root : G.Node) : List (Row ipv4ChildSchema) :=
  (walk G root pkt).visits.flatMap (ipv4VisitRows nodeType packetId pkt)

end Passes

section Rows

variable {G : Graph Id} {nodeType : G.Node → Option L2L3Node} {packetId : Nat} {pkt : Bytes}

theorem emitIpv4Visit_eq :
    emitIpv4Visit nodeType packetId pkt =
      fun kids visit => kids.appendAll (ipv4VisitRows nodeType packetId pkt visit) := by
  funext kids visit
  rw [emitIpv4Visit, ipv4VisitRows]
  split
  · rw [Store.appendAll, List.foldl_map]
    rfl
  · rfl

theorem countIpv4Visit_eq (packetId : Nat) :
    countIpv4Visit nodeType pkt =
      fun c visit => countRows counterModulus c (ipv4VisitRows nodeType packetId pkt visit) := by
  funext c visit
  rw [countIpv4Visit, ipv4VisitRows]
  split
  · rw [countRows, List.foldl_map]
  · rfl

theorem scatterIpv4Visit_eq :
    scatterIpv4Visit nodeType packetId pkt =
      fun state visit =>
        state.rows counterModulus (ipv4VisitRows nodeType packetId pkt visit) := by
  funext state visit
  rw [scatterIpv4Visit, ipv4VisitRows]
  split
  · rw [Scatter.rows, List.foldl_map]
    rfl
  · rfl

variable {tabs : DagTables G} {kids : Ipv4ChildTables} {root : G.Node}

/-- The serial decoder appends the child rows, and fills the node tables as
without children. -/
theorem dagDecodePacketWithIpv4Children_eq :
    dagDecodePacketWithIpv4Children nodeType packetId pkt tabs kids root =
      (dagDecodePacket G root packetId pkt tabs,
        kids.appendAll (ipv4ChildRows nodeType packetId pkt root)) := by
  rw [dagDecodePacketWithIpv4Children, dagDecodePacketWith_eq, emitIpv4Visit_eq, ipv4ChildRows,
    Store.appendAll_flatMap]

theorem countPacketIpv4Children_eq :
    countPacketIpv4Children nodeType pkt root =
      countRows counterModulus (fun _ => 0) (ipv4ChildRows nodeType packetId pkt root) := by
  rw [countPacketIpv4Children, countIpv4Visit_eq packetId, ipv4ChildRows,
    countRows_flatMap]

theorem scatterPacketIpv4Children_eq (base : Ipv4ChildCounts) :
    scatterPacketIpv4Children nodeType packetId pkt root base =
      scatterRows counterModulus base (ipv4ChildRows nodeType packetId pkt root) := by
  rw [scatterPacketIpv4Children, scatterIpv4Visit_eq, ← Scatter.rows_flatMap, Scatter.issued_rows]
  rfl

end Rows

end Nanotins.Children
