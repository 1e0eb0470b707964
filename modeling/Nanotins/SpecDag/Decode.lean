import Nanotins.Library.CountScatter
import Nanotins.SpecDag.L2L3Graph

/-!
Contract: decoding packets into one columnar table for each graph node, serially
(`dag_decode.hpp`) and in bulk (`dag_bulk.hpp`).

Owns: the table schema of a graph, `append`, `dagDecodePacket` alone and in
lockstep with an emitter, the count and scatter passes, `DagDecodeBulk` under an
arbitrary schedule, and the equality of the two decoders over any batches.

Does not own: child tables, or where in a packet the rows come from.
-/

namespace Nanotins.SpecDag

open Nanotins.Library Nanotins.Wire

/-! ### Tables -/

/-- A node's table has a `packet_id` column and one column for each field of
the node's spec. -/
inductive DagColumn (G : Graph Id) where
  | packetId (node : G.Node)
  | field (node : G.Node) (index : Fin (G.spec node).length)
deriving DecidableEq

namespace DagColumn

variable {G : Graph Id}

def node : DagColumn G → G.Node
  | packetId node => node
  | field node _ => node

def ofNode (node : G.Node) : List (DagColumn G) :=
  packetId node :: (List.finRange (G.spec node).length).map (field node)

theorem mem_ofNode (node : G.Node) (col : DagColumn G) : col ∈ ofNode node ↔ col.node = node := by
  cases col with
  | packetId other => simp [ofNode, DagColumn.node]
  | field other index =>
      constructor
      · intro member
        simp only [ofNode, List.mem_cons, reduceCtorEq, List.mem_map, field.injEq, false_or] at member
        obtain ⟨_, -, same, -⟩ := member
        exact same.symm
      · intro same
        subst same
        simp [ofNode, DagColumn.node]

theorem nodup_ofNode (node : G.Node) : (ofNode node).Nodup := by
  refine List.nodup_cons.mpr ⟨by simp, ?_⟩
  exact (List.nodup_finRange _).map fun first second same => by simpa using same

end DagColumn

abbrev dagSchema (G : Graph Id) : Schema where
  Table := G.Node
  Col := DagColumn G
  Value := FieldValue
  tableOf := DagColumn.node
  columns := DagColumn.ofNode
  key := .packetId
  mem_columns := DagColumn.mem_ofNode
  nodup_columns := DagColumn.nodup_ofNode
  tableOf_key _ := rfl

abbrev DagTables (G : Graph Id) := Store (dagSchema G)

section Decode

variable (G : Graph Id)

/-- Push the packet id, then each field of the header at `off`. -/
def dagAppend (tabs : DagTables G) (node : G.Node) (packetId : Nat) (pkt : Bytes) (off : Nat) :
    DagTables G :=
  (List.finRange (G.spec node).length).foldl
    (fun tabs index =>
      tabs.push (.field node index, readField pkt off ((G.spec node).get index)))
    (tabs.push (.packetId node, .uint packetId))

/-- Walk the packet, appending each visited header to its node's table. -/
def dagDecodePacket (root : G.Node) (packetId : Nat) (pkt : Bytes) (tabs : DagTables G) :
    DagTables G :=
  (walk G root pkt).visits.foldl (fun tabs visit => dagAppend G tabs visit.1 packetId pkt visit.2)
    tabs

/-- Decode a packet and, in lockstep, act on other tables at each visit. -/
def dagDecodePacketWith {Kids : Type} (emit : Kids → G.Node × Nat → Kids) (packetId : Nat)
    (pkt : Bytes) (tabs : DagTables G) (kids : Kids) (root : G.Node) : DagTables G × Kids :=
  (walk G root pkt).visits.foldl
    (fun state visit =>
      (dagAppend G state.1 visit.1 packetId pkt visit.2, emit state.2 visit))
    (tabs, kids)

/-! ### Count, scan, scatter -/

abbrev NodeCounts := Counters (dagSchema G)

/-- Counters are `uint32_t`. -/
def counterModulus : Nat := 2 ^ 32

def countPacketDag (root : G.Node) (pkt : Bytes) : NodeCounts G :=
  (walk G root pkt).visits.foldl (fun counts visit => bump counterModulus counts visit.1)
    (fun _ => 0)

/-- The writes of one visited header into row `slot` of its node's columns. -/
def scatterRow (packetId : Nat) (pkt : Bytes) (node : G.Node) (off slot : Nat) :
    List (Write (dagSchema G)) :=
  ⟨.packetId node, slot, .uint packetId⟩ ::
    (List.finRange (G.spec node).length).map fun index =>
      ⟨.field node index, slot, readField pkt off ((G.spec node).get index)⟩

/-- The scatter visitor: write at the node's cursor, then advance the cursor. -/
def scatterVisits (packetId : Nat) (pkt : Bytes) :
    NodeCounts G → List (G.Node × Nat) → List (Write (dagSchema G))
  | _, [] => []
  | cur, (node, off) :: visits =>
      scatterRow G packetId pkt node off (cur node) ++
        scatterVisits packetId pkt (bump counterModulus cur node) visits

def scatterPacketDag (packetId : Nat) (root : G.Node) (pkt : Bytes) (base : NodeCounts G) :
    List (Write (dagSchema G)) :=
  scatterVisits G packetId pkt base (walk G root pkt).visits

/-- A packet to decode and the id stamped on its rows. -/
structure DagPacket where
  data : Bytes
  packetId : Nat
deriving DecidableEq, Repr

/-- One bulk decode: count every packet, scan the counts from the current table
sizes, resize the tables to the totals, and run the scatter kernels.  The
executor interleaves the slot writes of the kernels arbitrarily; the outcome is
`none` when a write falls outside its column. -/
def DagDecodeBulk (root : G.Node) (tabs : DagTables G) (pkts : List DagPacket)
    (outcome : Option (DagTables G)) : Prop :=
  let seed : NodeCounts G := fun node => tabs.height node % counterModulus
  let counts := pkts.map fun pkt => countPacketDag G root pkt.data
  let base := exclusiveScan counterModulus seed counts
  let sized := tabs.resize (scanTotal counterModulus seed counts)
  let kernels := List.zipWith (fun base pkt => scatterPacketDag G pkt.packetId root pkt.data base)
    base pkts
  ∃ trace, Interleaving kernels trace ∧ outcome = sized.writeAll trace

end Decode

/-! ### Both decoders emit the same rows -/

variable {G : Graph Id}

/-- The node tables do not depend on what is emitted beside them. -/
theorem dagDecodePacketWith_eq {Kids : Type} (emit : Kids → G.Node × Nat → Kids) (packetId : Nat)
    (pkt : Bytes) (tabs : DagTables G) (kids : Kids) (root : G.Node) :
    dagDecodePacketWith G emit packetId pkt tabs kids root =
      (dagDecodePacket G root packetId pkt tabs, (walk G root pkt).visits.foldl emit kids) := by
  rw [dagDecodePacketWith, dagDecodePacket]
  induction (walk G root pkt).visits generalizing tabs kids with
  | nil => rfl
  | cons visit visits inductionHypothesis =>
      rw [List.foldl_cons, List.foldl_cons, List.foldl_cons, inductionHypothesis]

/-- The row of the header at `off`. -/
def dagRow (packetId : Nat) (pkt : Bytes) (visit : G.Node × Nat) : Row (dagSchema G) where
  table := visit.1
  cell
    | .packetId _ => .uint packetId
    | .field node index => readField pkt visit.2 ((G.spec node).get index)

/-- The rows of one packet. -/
def dagRows (root : G.Node) (pkt : DagPacket) : List (Row (dagSchema G)) :=
  (walk G root pkt.data).visits.map (dagRow pkt.packetId pkt.data)

theorem dagAppend_eq (tabs : DagTables G) (packetId : Nat) (pkt : Bytes) (visit : G.Node × Nat) :
    dagAppend G tabs visit.1 packetId pkt visit.2 = tabs.append (dagRow packetId pkt visit) := by
  rw [Store.append, Row.pushes, Store.pushAll]
  change _ = List.foldl Store.push tabs ((DagColumn.ofNode visit.1).map _)
  rw [DagColumn.ofNode, List.map_cons, List.foldl_cons, List.map_map, List.foldl_map]
  rfl

theorem dagDecodePacket_eq (root : G.Node) (pkt : DagPacket) (tabs : DagTables G) :
    dagDecodePacket G root pkt.packetId pkt.data tabs = tabs.appendAll (dagRows root pkt) := by
  rw [dagDecodePacket, Store.appendAll, dagRows, List.foldl_map]
  simp only [dagAppend_eq]

theorem countPacketDag_eq (root : G.Node) (pkt : DagPacket) :
    countPacketDag G root pkt.data = countRows counterModulus (fun _ => 0) (dagRows root pkt) := by
  rw [countPacketDag, countRows, dagRows, List.foldl_map]
  rfl

theorem scatterRow_eq (packetId : Nat) (pkt : Bytes) (visit : G.Node × Nat) (slot : Nat) :
    scatterRow G packetId pkt visit.1 visit.2 slot = (dagRow packetId pkt visit).writes slot := by
  change _ = (DagColumn.ofNode visit.1).map _
  rw [DagColumn.ofNode, List.map_cons, List.map_map]
  rfl

theorem scatterPacketDag_eq (root : G.Node) (pkt : DagPacket) (base : NodeCounts G) :
    scatterPacketDag G pkt.packetId root pkt.data base =
      scatterRows counterModulus base (dagRows root pkt) := by
  rw [scatterPacketDag, dagRows]
  induction (walk G root pkt.data).visits generalizing base with
  | nil => rfl
  | cons visit visits inductionHypothesis =>
      rw [scatterVisits, inductionHypothesis, List.map_cons, scatterRows, ← scatterRow_eq]
      rfl

theorem dagDecodePackets_eq (root : G.Node) (tabs : DagTables G) (pkts : List DagPacket) :
    pkts.foldl (fun tabs pkt => dagDecodePacket G root pkt.packetId pkt.data tabs) tabs =
      tabs.appendPackets (dagRows root) pkts := by
  simp only [dagDecodePacket_eq]
  rfl

/-- Serial decoding keeps all columns of a table equally long. -/
theorem rectangular_dagDecodePackets (root : G.Node) {tabs : DagTables G}
    (rectangular : tabs.Rectangular) (pkts : List DagPacket) :
    Store.Rectangular
      (pkts.foldl (fun tabs pkt => dagDecodePacket G root pkt.packetId pkt.data tabs) tabs) := by
  rw [dagDecodePackets_eq]
  exact rectangular.appendPackets _ _

/-- Bulk decoding of any batches, each under any schedule, gives the tables of
serial decoding, and no slot write leaves its column. -/
theorem dagDecodeBulk_eq (G : Graph Id) (root : G.Node) {tabs : DagTables G}
    {batches : List (List DagPacket)} {outcome : Option (DagTables G)}
    (rectangular : tabs.Rectangular)
    (bounded : ∀ node, Store.height
      (batches.flatten.foldl
        (fun tabs pkt => dagDecodePacket G root pkt.packetId pkt.data tabs) tabs) node < 2 ^ 32)
    (run : BatchRun (DagDecodeBulk G root) tabs batches outcome) :
    outcome = some (batches.flatten.foldl
      (fun tabs pkt => dagDecodePacket G root pkt.packetId pkt.data tabs) tabs) := by
  rw [dagDecodePackets_eq] at bounded ⊢
  exact Store.batchRun_countScatter_eq (countPacketDag_eq root)
    (fun base pkt => scatterPacketDag_eq root pkt base) rectangular bounded run

theorem exists_dagDecodeBulk (root : G.Node) (tabs : DagTables G) (pkts : List DagPacket) :
    ∃ outcome, DagDecodeBulk G root tabs pkts outcome :=
  Store.exists_countScatter tabs pkts

/-- An Ethernet header and two VLAN tags. -/
def qinqPacket : Bytes :=
  List.replicate 12 0 ++ [0x88, 0xA8, 0, 1, 0x81, 0x00, 0, 2, 0x12, 0x34]

theorem dagDecodeBulk_eq_qinq :
    let first : DagPacket := ⟨qinqPacket, 1⟩
    let second : DagPacket := ⟨qinqPacket, 2⟩
    let batches := [[first, second], [first]]
    ∃ outcome, BatchRun (DagDecodeBulk (L2L3Graph Id) kEthRoot) (fun _ => []) batches outcome ∧
      outcome = some (batches.flatten.foldl
        (fun tabs pkt => dagDecodePacket (L2L3Graph Id) kEthRoot pkt.packetId pkt.data tabs)
          fun _ => []) := by
  intro first second batches
  obtain ⟨outcome, run⟩ := BatchRun.exists (exists_dagDecodeBulk (G := L2L3Graph Id) kEthRoot)
    (fun _ => []) batches
  refine ⟨outcome, run, dagDecodeBulk_eq _ _ Store.rectangular_empty ?_ run⟩
  intro node
  cases node <;> decide +kernel

end Nanotins.SpecDag
