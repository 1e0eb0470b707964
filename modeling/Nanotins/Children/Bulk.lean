import Nanotins.Children.Ipv4Children
import Nanotins.Children.Ipv6Children
import Nanotins.Children.SomeipSd

/-!
Contract: the three bulk child pipelines fill their tables as the serial
decoders do.

Owns: `ipv6_children_bulk`, `ipv4_children_bulk` and `someip_sd_bulk` under an
arbitrary schedule, and their equality with packet-by-packet decoding over any
batches.

Does not own: what the rows of a packet are.
-/

namespace Nanotins.Children

open Nanotins.Library Nanotins.Wire Nanotins.SpecDag

section Pipelines

variable {G : Graph Id} (nodeType : G.Node → Option L2L3Node) (root : G.Node)

def Ipv6ChildrenBulk : Ipv6ChildTables → List DagPacket → Option Ipv6ChildTables → Prop :=
  Store.CountScatter counterModulus
    (fun pkt => countPacketIpv6Children nodeType pkt.data root)
    (fun base pkt => scatterPacketIpv6Children nodeType pkt.packetId pkt.data root base)

def Ipv4ChildrenBulk : Ipv4ChildTables → List DagPacket → Option Ipv4ChildTables → Prop :=
  Store.CountScatter counterModulus
    (fun pkt => countPacketIpv4Children nodeType pkt.data root)
    (fun base pkt => scatterPacketIpv4Children nodeType pkt.packetId pkt.data root base)

def SomeipSdBulk : SomeipSdChildTables → List DagPacket → Option SomeipSdChildTables → Prop :=
  Store.CountScatter counterModulus
    (fun pkt => countPacketSomeipSdChildren nodeType pkt.data root)
    (fun base pkt => scatterPacketSomeipSdChildren nodeType pkt.packetId pkt.data root base)

end Pipelines

section Agreement

variable {G : Graph Id} {S : Schema}

/-- Decode packets one after the other. -/
def decodeEach (decode : DagTables G × Store S → DagPacket → DagTables G × Store S)
    (tabs : DagTables G) (kids : Store S) (pkts : List DagPacket) : DagTables G × Store S :=
  pkts.foldl decode (tabs, kids)

/-- From whole child tables, as long as no row count reaches the counter width:
whatever the batches and the schedule of each, the pipeline leaves the child
tables of the serial decoder, which are whole again, and whose node tables are
those of `dag_decode_packet`. -/
def BulkEqualsSerial (root : G.Node)
    (decode : DagTables G × Store S → DagPacket → DagTables G × Store S)
    (bulk : Store S → List DagPacket → Option (Store S) → Prop) : Prop :=
  ∀ (tabs : DagTables G) (kids : Store S) (batches : List (List DagPacket))
    (outcome : Option (Store S)),
    kids.Rectangular →
    (∀ table, (decodeEach decode tabs kids batches.flatten).2.height table < 2 ^ 32) →
    BatchRun bulk kids batches outcome →
      outcome = some (decodeEach decode tabs kids batches.flatten).2 ∧
        (decodeEach decode tabs kids batches.flatten).2.Rectangular ∧
        (decodeEach decode tabs kids batches.flatten).1 =
          batches.flatten.foldl
            (fun tabs pkt => dagDecodePacket G root pkt.packetId pkt.data tabs) tabs

variable {root : G.Node} {rowsOf : DagPacket → List (Row S)}
  {decode : DagTables G × Store S → DagPacket → DagTables G × Store S}

theorem decodeEach_eq
    (serial : ∀ tabs kids pkt, decode (tabs, kids) pkt =
      (dagDecodePacket G root pkt.packetId pkt.data tabs, kids.appendAll (rowsOf pkt)))
    (tabs : DagTables G) (kids : Store S) (pkts : List DagPacket) :
    decodeEach decode tabs kids pkts =
      (pkts.foldl (fun tabs pkt => dagDecodePacket G root pkt.packetId pkt.data tabs) tabs,
        kids.appendPackets rowsOf pkts) := by
  rw [decodeEach, Store.appendPackets]
  induction pkts generalizing tabs kids with
  | nil => rfl
  | cons pkt pkts inductionHypothesis =>
      rw [List.foldl_cons, serial, inductionHypothesis, List.foldl_cons, List.foldl_cons]

/-- Three passes over the same rows agree. -/
theorem bulkEqualsSerial {count : DagPacket → Counters S}
    {scatter : Counters S → DagPacket → List (Write S)}
    (serial : ∀ tabs kids pkt, decode (tabs, kids) pkt =
      (dagDecodePacket G root pkt.packetId pkt.data tabs, kids.appendAll (rowsOf pkt)))
    (counts : ∀ pkt, count pkt = countRows counterModulus (fun _ => 0) (rowsOf pkt))
    (scatters : ∀ base pkt, scatter base pkt = scatterRows counterModulus base (rowsOf pkt)) :
    BulkEqualsSerial root decode (Store.CountScatter counterModulus count scatter) := by
  intro tabs kids batches outcome rectangular bounded run
  rw [decodeEach_eq serial] at bounded ⊢
  refine ⟨?_, rectangular.appendPackets rowsOf batches.flatten, rfl⟩
  apply Store.batchRun_countScatter_eq counts scatters rectangular
  · exact bounded
  · exact run

/-- Batches of packets into empty tables have a run, and it ends in the serial tables. -/
theorem BulkEqualsSerial.run_empty {bulk : Store S → List DagPacket → Option (Store S) → Prop}
    (agrees : BulkEqualsSerial root decode bulk)
    (runs : ∀ kids pkts, ∃ outcome, bulk kids pkts outcome)
    {tabs : DagTables G} {batches : List (List DagPacket)}
    (few : ∀ table, (decodeEach decode tabs (fun _ => []) batches.flatten).2.height table < 2 ^ 32) :
    ∃ outcome, BatchRun bulk (fun _ => []) batches outcome ∧
      outcome = some (decodeEach decode tabs (fun _ => []) batches.flatten).2 := by
  obtain ⟨outcome, run⟩ := BatchRun.exists runs (fun _ => []) batches
  exact ⟨outcome, run, (agrees tabs _ batches outcome Store.rectangular_empty few run).1⟩

end Agreement

section Results

variable (G : Graph Id) (nodeType : G.Node → Option L2L3Node) (root : G.Node)

/-- Each of the three bulk pipelines leaves the tables of its serial decoder. -/
theorem childrenBulk_eq_serial :
    BulkEqualsSerial root
        (fun state pkt => dagDecodePacketWithChildren nodeType pkt.packetId pkt.data state.1
          state.2 root)
        (Ipv6ChildrenBulk nodeType root) ∧
      BulkEqualsSerial root
        (fun state pkt => dagDecodePacketWithIpv4Children nodeType pkt.packetId pkt.data state.1
          state.2 root)
        (Ipv4ChildrenBulk nodeType root) ∧
      BulkEqualsSerial root
        (fun state pkt => dagDecodePacketWithSomeipSd nodeType pkt.packetId pkt.data state.1
          state.2 root)
        (SomeipSdBulk nodeType root) := by
  refine ⟨?_, ?_, ?_⟩
  · apply bulkEqualsSerial
    · intro tabs kids pkt
      exact dagDecodePacketWithChildren_eq
    · intro pkt
      exact countPacketIpv6Children_eq
    · intro base pkt
      exact scatterPacketIpv6Children_eq base
  · apply bulkEqualsSerial
    · intro tabs kids pkt
      exact dagDecodePacketWithIpv4Children_eq
    · intro pkt
      exact countPacketIpv4Children_eq
    · intro base pkt
      exact scatterPacketIpv4Children_eq base
  · apply bulkEqualsSerial
    · intro tabs kids pkt
      exact dagDecodePacketWithSomeipSd_eq
    · intro pkt
      exact countPacketSomeipSdChildren_eq
    · intro base pkt
      exact scatterPacketSomeipSdChildren_eq base

end Results

/-- Ethernet, IPv6, a routing header with one segment and one TLV, and a
Hop-by-Hop header with one option. -/
def srv6Packet : Bytes :=
  List.replicate 12 0 ++ [0x86, 0xDD] ++
    [0x60, 0, 0, 0, 0, 0, 43, 64] ++ List.replicate 32 0xAA ++
    [0, 3, 4, 1, 0, 0, 0xBE, 0xEF] ++ List.replicate 16 0x30 ++ [5, 6, 0, 0, 0, 0, 0, 0] ++
    [6, 0, 5, 4, 0xCC, 0xCC, 0xCC, 0xCC]

/-- Ethernet and IPv4 with one option. -/
def routerAlertPacket : Bytes :=
  List.replicate 12 0 ++ [0x08, 0x00] ++
    ([0x46, 0, 0, 24, 0, 0, 0, 0, 64, 1] ++ List.replicate 10 0) ++ [148, 4, 0, 0]

/-- SOME/IP-SD over UDP with one entry and one IPv4 endpoint option. -/
def offerPacket : Bytes :=
  List.replicate 12 0 ++ [0x08, 0x00] ++
    ([0x45, 0, 0, 0, 0, 0, 0, 0, 64, 17] ++ List.replicate 10 0) ++
    ([0x77, 0x1A, 0x77, 0x1A] ++ List.replicate 4 0) ++
    ([0xFF, 0xFF, 0x81, 0x00, 0, 0, 0, 48] ++ List.replicate 8 1) ++
    ([0, 0, 0, 0, 0, 0, 0, 16] ++ List.replicate 16 0) ++
    ([0, 0, 0, 12] ++ [0x00, 0x09, 0x04, 0, 10, 0, 0, 1, 0, 17, 0x77, 0x1A])

/-- Each pipeline tabulates its own packets of two batches. -/
theorem childrenBulk_eq_serial_batches :
    let batches : List (List DagPacket) :=
      [[⟨srv6Packet, 7⟩, ⟨offerPacket, 8⟩], [⟨routerAlertPacket, 9⟩, ⟨srv6Packet, 10⟩]]
    let ipv6 := decodeEach (G := L2L3Graph Id) (S := ipv6ChildSchema)
      (fun state pkt => dagDecodePacketWithChildren some pkt.packetId pkt.data state.1 state.2
        kEthRoot) (fun _ => []) (fun _ => []) batches.flatten
    let ipv4 := decodeEach (G := L2L3Graph Id) (S := ipv4ChildSchema)
      (fun state pkt => dagDecodePacketWithIpv4Children some pkt.packetId pkt.data state.1 state.2
        kEthRoot) (fun _ => []) (fun _ => []) batches.flatten
    let sd := decodeEach (G := L2L3Graph Id) (S := someipSdChildSchema)
      (fun state pkt => dagDecodePacketWithSomeipSd some pkt.packetId pkt.data state.1 state.2
        kEthRoot) (fun _ => []) (fun _ => []) batches.flatten
    (∃ outcome, BatchRun (Ipv6ChildrenBulk (G := L2L3Graph Id) some kEthRoot) (fun _ => []) batches
        outcome ∧ outcome = some ipv6.2) ∧
      (∃ outcome, BatchRun (Ipv4ChildrenBulk (G := L2L3Graph Id) some kEthRoot) (fun _ => [])
        batches outcome ∧ outcome = some ipv4.2) ∧
      (∃ outcome, BatchRun (SomeipSdBulk (G := L2L3Graph Id) some kEthRoot) (fun _ => []) batches
        outcome ∧ outcome = some sd.2) ∧
      (ipv6.2.height .srhSegment = 2 ∧ ipv6.2.height .opt = 4) ∧ ipv4.2.height .opt = 1 ∧
        sd.2.height .entry = 1 ∧ sd.2.height .option = 1 := by
  intro batches ipv6 ipv4 sd
  have ipv6Rows : ipv6.2.height .srhSegment = 2 ∧ ipv6.2.height .opt = 4 := by decide +kernel
  have ipv4Rows : ipv4.2.height .opt = 1 := by decide +kernel
  have sdRows : sd.2.height .entry = 1 ∧ sd.2.height .option = 1 := by decide +kernel
  obtain ⟨first, second, third⟩ := childrenBulk_eq_serial (L2L3Graph Id) some kEthRoot
  have small : ∀ {rows bound : Nat}, rows = bound → bound < 5 → rows < 2 ^ 32 := by omega
  refine ⟨?_, ?_, ?_, ipv6Rows, ipv4Rows, sdRows⟩
  · refine first.run_empty Store.exists_countScatter fun table => ?_
    cases table with
    | srhSegment => exact small ipv6Rows.1 (by decide)
    | opt => exact small ipv6Rows.2 (by decide)
  · refine second.run_empty Store.exists_countScatter fun table => ?_
    cases table with
    | opt => exact small ipv4Rows (by decide)
  · refine third.run_empty Store.exists_countScatter fun table => ?_
    cases table with
    | entry => exact small sdRows.1 (by decide)
    | option => exact small sdRows.2 (by decide)

end Nanotins.Children
