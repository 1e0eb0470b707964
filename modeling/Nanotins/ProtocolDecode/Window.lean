import Nanotins.Library.CountScatter
import Nanotins.ProtocolDecode.WalkPacket

/-!
Contract: filling the six PDU tables, serially (`decode_packet`) and for a whole
window of packets (`decode_window`).

Owns: the PDU columns, `PduCounts` by name and by column index, the scatter
sink, `DecodeWindow` under arbitrary kernel orders, and its equality with the
serial decoder.

Does not own: which headers a packet has.
-/

namespace Nanotins.ProtocolDecode

open Nanotins.Library

/-! ### PDU tables -/

/-- The two arrays of a `PduColumn`. -/
inductive PduArray where
  | packetId (type : PduType)
  | rows (type : PduType)
deriving DecidableEq, Repr

def PduArray.type : PduArray → PduType
  | packetId type => type
  | rows type => type

/-- An element of a packet-id array or of a row array. -/
inductive PduCell where
  | id (packetId : Nat)
  | header (bytes : Bytes)
deriving DecidableEq, Repr, Inhabited

abbrev pduSchema : Schema where
  Table := PduType
  Col := PduArray
  Value := PduCell
  tableOf := PduArray.type
  columns type := [.packetId type, .rows type]
  key := .rows
  mem_columns type array := by cases array <;> simp [PduArray.type, eq_comm]
  nodup_columns type := by simp
  tableOf_key _ := rfl

abbrev DecodedPdus := Store pduSchema

/-- `PduColumn::add`. -/
def PduColumn.add (out : DecodedPdus) (type : PduType) (packetId : Nat) (bytes : Bytes) :
    DecodedPdus :=
  (out.push (.packetId type, .id packetId)).push (.rows type, .header bytes)

/-- One-shot decode of all layers of a packet. -/
def decodePacket (packetId linkType : Nat) (pkt : Bytes) (out : DecodedPdus) : DecodedPdus :=
  (walkPacket linkType pkt).1.foldl (fun out pdu => PduColumn.add out pdu.type packetId pdu.bytes)
    out

/-- The six columns in table order. -/
def columns : Fin 6 → PduType
  | 0 => .ethernet
  | 1 => .vlan
  | 2 => .ipv4
  | 3 => .ipv6
  | 4 => .tcp
  | 5 => .udp

/-! ### Counts -/

/-- Per-packet PDU counts, or write bases; `uint32_t` fields. -/
structure PduCounts where
  eth : Nat := 0
  vlan : Nat := 0
  ipv4 : Nat := 0
  ipv6 : Nat := 0
  tcp : Nat := 0
  udp : Nat := 0
deriving DecidableEq, Repr, Inhabited

namespace PduCounts

/-- Read a count by column position. -/
def getAt (counts : PduCounts) : Fin 6 → Nat
  | 0 => counts.eth
  | 1 => counts.vlan
  | 2 => counts.ipv4
  | 3 => counts.ipv6
  | 4 => counts.tcp
  | 5 => counts.udp

/-- Write through the reference that `at` returns. -/
def setAt (counts : PduCounts) (index : Fin 6) (value : Nat) : PduCounts :=
  match index with
  | 0 => { counts with eth := value }
  | 1 => { counts with vlan := value }
  | 2 => { counts with ipv4 := value }
  | 3 => { counts with ipv6 := value }
  | 4 => { counts with tcp := value }
  | 5 => { counts with udp := value }

def add (first second : PduCounts) : PduCounts where
  eth := (first.eth + second.eth) % 2 ^ 32
  vlan := (first.vlan + second.vlan) % 2 ^ 32
  ipv4 := (first.ipv4 + second.ipv4) % 2 ^ 32
  ipv6 := (first.ipv6 + second.ipv6) % 2 ^ 32
  tcp := (first.tcp + second.tcp) % 2 ^ 32
  udp := (first.udp + second.udp) % 2 ^ 32

/-- The increment that the callback of each header type makes. -/
def increment (counts : PduCounts) : PduType → PduCounts
  | .ethernet => { counts with eth := (counts.eth + 1) % 2 ^ 32 }
  | .vlan => { counts with vlan := (counts.vlan + 1) % 2 ^ 32 }
  | .ipv4 => { counts with ipv4 := (counts.ipv4 + 1) % 2 ^ 32 }
  | .ipv6 => { counts with ipv6 := (counts.ipv6 + 1) % 2 ^ 32 }
  | .tcp => { counts with tcp := (counts.tcp + 1) % 2 ^ 32 }
  | .udp => { counts with udp := (counts.udp + 1) % 2 ^ 32 }

end PduCounts

/-- Seed the running totals from each column's current size. -/
def seedCounts (out : DecodedPdus) : PduCounts :=
  (List.finRange 6).foldl
    (fun counts index => counts.setAt index ((out (.rows (columns index))).length % 2 ^ 32)) {}

/-- Size both arrays of every output column to its total. -/
def resizeColumns (out : DecodedPdus) (totals : PduCounts) : DecodedPdus :=
  (List.finRange 6).foldl
    (fun out index =>
      let type := columns index
      Function.update
        (Function.update out (.packetId type)
          (resizeColumn (out (.packetId type)) (totals.getAt index)))
        (.rows type) (resizeColumn (out (.rows type)) (totals.getAt index)))
    out

def countPacket (linkType : Nat) (pkt : Bytes) : PduCounts :=
  (walkPacket linkType pkt).1.foldl (fun counts pdu => counts.increment pdu.type) {}

/-! ### Scatter -/

/-- The array that each pointer of the scatter sink points at. -/
structure PduSink where
  ethPid : PduArray
  ethRows : PduArray
  vlanPid : PduArray
  vlanRows : PduArray
  ipv4Pid : PduArray
  ipv4Rows : PduArray
  ipv6Pid : PduArray
  ipv6Rows : PduArray
  tcpPid : PduArray
  tcpRows : PduArray
  udpPid : PduArray
  udpRows : PduArray

/-- Write each emitted header at the cursor of its type, then advance it. -/
def scatterPdus (sink : PduSink) (packetId : Nat) :
    PduCounts → List Pdu → List (Write pduSchema)
  | _, [] => []
  | cur, pdu :: pdus =>
      let id : PduCell := .id packetId
      let row : PduCell := .header pdu.bytes
      let writes : List (Write pduSchema) :=
        match pdu.type with
        | .ethernet => [⟨sink.ethPid, cur.eth, id⟩, ⟨sink.ethRows, cur.eth, row⟩]
        | .vlan => [⟨sink.vlanPid, cur.vlan, id⟩, ⟨sink.vlanRows, cur.vlan, row⟩]
        | .ipv4 => [⟨sink.ipv4Pid, cur.ipv4, id⟩, ⟨sink.ipv4Rows, cur.ipv4, row⟩]
        | .ipv6 => [⟨sink.ipv6Pid, cur.ipv6, id⟩, ⟨sink.ipv6Rows, cur.ipv6, row⟩]
        | .tcp => [⟨sink.tcpPid, cur.tcp, id⟩, ⟨sink.tcpRows, cur.tcp, row⟩]
        | .udp => [⟨sink.udpPid, cur.udp, id⟩, ⟨sink.udpRows, cur.udp, row⟩]
      writes ++ scatterPdus sink packetId (cur.increment pdu.type) pdus

def scatterPacket (packetId linkType : Nat) (pkt : Bytes) (base : PduCounts) (sink : PduSink) :
    List (Write pduSchema) × WalkResult :=
  let walked := walkPacket linkType pkt
  (scatterPdus sink packetId base walked.1, walked.2)

/-! ### The window pass -/

/-- What a scatter kernel does to shared memory, one access at a time. -/
inductive WindowAction where
  | column (write : Write pduSchema)
  | trailer (index : Nat) (result : WalkResult)

/-- Output columns and the optional trailers array. -/
structure WindowState where
  out : DecodedPdus
  trailers : Option (List WalkResult)

/-- Perform one access; an access outside its array faults. -/
def WindowState.act (state : WindowState) : WindowAction → Option WindowState
  | .column write => (state.out.write write).map fun out => { state with out := out }
  | .trailer index result =>
      match state.trailers with
      | none => some state
      | some trailers =>
          if index < trailers.length then
            some { state with trailers := some (trailers.set index result) }
          else none

/-- The arguments of `decode_window`, apart from the output. -/
structure Window where
  pidBase : Nat
  linkType : Nat → Nat
  poff : Nat → Nat
  psize : Nat → Nat
  window : Bytes
  n : Nat

namespace Window

variable (w : Window)

/-- The bytes of packet `i`: its slice, or nothing when the `uint64_t` end of
the slice is past the window.  Where that end wraps, the span that is let through
starts before the window, which is a fault. -/
def packet (i : Nat) : Option Bytes :=
  if (w.poff i + w.psize i) % 2 ^ 64 ≤ w.window.length then
    if w.poff i + w.psize i ≤ w.window.length then
      some ((w.window.drop (w.poff i)).take (w.psize i))
    else none
  else some []

/-- Packet ids are `uint64_t`. -/
def packetId (i : Nat) : Nat := (w.pidBase + i) % 2 ^ 64

def sink : PduSink where
  ethPid := .packetId .ethernet
  ethRows := .rows .ethernet
  vlanPid := .packetId .vlan
  vlanRows := .rows .vlan
  ipv4Pid := .packetId .ipv4
  ipv4Rows := .rows .ipv4
  ipv6Pid := .packetId .ipv6
  ipv6Rows := .rows .ipv6
  tcpPid := .packetId .tcp
  tcpRows := .rows .tcp
  udpPid := .packetId .udp
  udpRows := .rows .udp

def scanCounts (run : PduCounts) : List PduCounts → List PduCounts × PduCounts
  | [] => ([], run)
  | counts :: per =>
      let rest := scanCounts (run.add counts) per
      (run :: rest.1, rest.2)

/-- The write of count kernel `i`. -/
def countKernel (i : Nat) : Option (Nat × PduCounts) :=
  (w.packet i).map fun pkt => (i, countPacket (w.linkType i) pkt)

/-- The accesses of a scatter kernel, given its write base and its number. -/
def scatterKernel (base : PduCounts × Nat) : Option (List WindowAction) :=
  (w.packet base.2).map fun pkt =>
    let scattered := scatterPacket (w.packetId base.2) (w.linkType base.2) pkt base.1 sink
    scattered.1.map .column ++ [.trailer base.2 scattered.2]

/-- `decode_window`.  The runner executes the count kernels in any order, and
the scatter kernels in any order or interleaved access by access. -/
def Decodes (start : WindowState) (outcome : Option WindowState) : Prop :=
  if w.n = 0 then outcome = some start
  else
    ∃ order : List Nat, order.Perm (List.range w.n) ∧
      match order.mapM w.countKernel with
      | none => outcome = none
      | some counts =>
          let (base, totals) :=
            scanCounts (seedCounts start.out) (setAll (List.replicate w.n {}) counts)
          let sized : WindowState := { start with out := resizeColumns start.out totals }
          match (base.zip (List.range w.n)).mapM w.scatterKernel with
          | none => outcome = none
          | some kernels =>
              ∃ trace, Interleaving kernels trace ∧ outcome = trace.foldlM WindowState.act sized

end Window

/-! ### Counts are counters -/

/-- The counters of the library, by PDU type. -/
def PduCounts.counters (counts : PduCounts) : Counters pduSchema
  | .ethernet => counts.eth
  | .vlan => counts.vlan
  | .ipv4 => counts.ipv4
  | .ipv6 => counts.ipv6
  | .tcp => counts.tcp
  | .udp => counts.udp

theorem counters_add (first second : PduCounts) :
    (first.add second).counters = addCounts (2 ^ 32) first.counters second.counters := by
  funext type
  cases type <;> rfl

theorem counters_increment (counts : PduCounts) (type : PduType) :
    (counts.increment type).counters = bump (2 ^ 32) counts.counters type := by
  funext other
  cases type <;> cases other <;> rfl

theorem counters_seedCounts (out : DecodedPdus) :
    (seedCounts out).counters = out.seed (2 ^ 32) := by
  funext type
  cases type <;> rfl

theorem resizeColumns_eq (out : DecodedPdus) (totals : PduCounts) :
    resizeColumns out totals = out.resize totals.counters := by
  funext array
  rcases array with type | type <;> cases type <;> rfl

/-! ### Both decoders emit the same rows -/

def pduRow (packetId : Nat) (pdu : Pdu) : Row pduSchema where
  table := pdu.type
  cell
    | .packetId _ => .id packetId
    | .rows _ => .header pdu.bytes

/-- The rows of one packet. -/
def pduRows (packetId linkType : Nat) (pkt : Bytes) : List (Row pduSchema) :=
  (walkPacket linkType pkt).1.map (pduRow packetId)

theorem decodePacket_eq (packetId linkType : Nat) (pkt : Bytes) (out : DecodedPdus) :
    decodePacket packetId linkType pkt out = out.appendAll (pduRows packetId linkType pkt) := by
  rw [decodePacket, Store.appendAll, pduRows, List.foldl_map]
  rfl

theorem counters_foldl_increment (counts : PduCounts) (packetId : Nat) (pdus : List Pdu) :
    (pdus.foldl (fun counts pdu => counts.increment pdu.type) counts).counters =
      countRows (2 ^ 32) counts.counters (pdus.map (pduRow packetId)) := by
  induction pdus generalizing counts with
  | nil => rfl
  | cons pdu pdus inductionHypothesis =>
      rw [List.foldl_cons, inductionHypothesis, counters_increment]
      rfl

theorem counters_countPacket (packetId linkType : Nat) (pkt : Bytes) :
    (countPacket linkType pkt).counters =
      countRows (2 ^ 32) (fun _ => 0) (pduRows packetId linkType pkt) := by
  have zero : PduCounts.counters {} = fun _ => 0 := by
    funext type
    cases type <;> rfl
  rw [countPacket, counters_foldl_increment, zero]
  rfl

/-- The sink's pointers and the cursors of each type belong together. -/
theorem scatterPdus_eq (packetId : Nat) (cur : PduCounts) (pdus : List Pdu) :
    scatterPdus Window.sink packetId cur pdus =
      scatterRows (2 ^ 32) cur.counters (pdus.map (pduRow packetId)) := by
  induction pdus generalizing cur with
  | nil => rfl
  | cons pdu pdus inductionHypothesis =>
      rw [scatterPdus, inductionHypothesis, counters_increment, List.map_cons, scatterRows]
      obtain ⟨type, offset, bytes⟩ := pdu
      cases type <;> rfl

theorem scanCounts_eq (run : PduCounts) (per : List PduCounts) :
    (Window.scanCounts run per).1.map PduCounts.counters =
        exclusiveScan (2 ^ 32) run.counters (per.map PduCounts.counters) ∧
      (Window.scanCounts run per).2.counters =
        scanTotal (2 ^ 32) run.counters (per.map PduCounts.counters) := by
  induction per generalizing run with
  | nil => exact ⟨rfl, rfl⟩
  | cons counts per inductionHypothesis =>
      obtain ⟨bases, total⟩ := inductionHypothesis (run.add counts)
      rw [counters_add] at bases total
      exact ⟨congrArg (run.counters :: ·) bases, total⟩

/-! ### Accesses of the scatter kernels -/

def columnWrites (trace : List WindowAction) : List (Write pduSchema) :=
  trace.filterMap fun
    | .column write => some write
    | .trailer _ _ => none

def trailerWrites (trace : List WindowAction) : List (Nat × WalkResult) :=
  trace.filterMap fun
    | .column _ => none
    | .trailer index result => some (index, result)

/-- The columns and the trailers are filled independently of each other. -/
theorem foldlM_act {state : WindowState} {trace : List WindowAction}
    (inside : ∀ trailers, state.trailers = some trailers →
      ∀ entry ∈ trailerWrites trace, entry.1 < trailers.length) :
    trace.foldlM WindowState.act state =
      (state.out.writeAll (columnWrites trace)).map fun out =>
        ⟨out, state.trailers.map fun trailers => setAll trailers (trailerWrites trace)⟩ := by
  induction trace generalizing state with
  | nil =>
      obtain ⟨out, trailers⟩ := state
      cases trailers <;> rfl
  | cons action trace inductionHypothesis =>
      cases action with
      | column write =>
          rw [List.foldlM_cons, WindowState.act]
          change _ = Option.map _ (state.out.write write >>= fun out => out.writeAll _)
          cases state.out.write write with
          | none => rfl
          | some out => exact inductionHypothesis inside
      | trailer index result =>
          rw [List.foldlM_cons, WindowState.act]
          obtain ⟨out, trailers⟩ := state
          cases trailers with
          | none => exact inductionHypothesis (fun _ absent => by contradiction)
          | some trailers =>
              have here : index < trailers.length :=
                inside trailers rfl (index, result) List.mem_cons_self
              dsimp only
              rw [if_pos here]
              refine (inductionHypothesis ?_).trans rfl
              intro other same entry member
              cases same
              rw [List.length_set]
              exact inside trailers rfl entry (List.mem_cons_of_mem (index, result) member)

/-! ### The window decoder -/

namespace Window

variable (w : Window)

/-- Packet `i` of the window: its slice, or the empty packet when the slice does
not fit. -/
def slice (i : Nat) : Bytes :=
  if w.poff i + w.psize i ≤ w.window.length then
    (w.window.drop (w.poff i)).take (w.psize i)
  else []

/-- Decode the packets of the window one by one. -/
def serialDecode (out : DecodedPdus) : DecodedPdus :=
  (List.range w.n).foldl (fun out i => decodePacket (w.packetId i) (w.linkType i) (w.slice i) out)
    out

/-- The walk results of the packets, in order. -/
def walkResults : List WalkResult :=
  (List.range w.n).map fun i => (walkPacket (w.linkType i) (w.slice i)).2

def rowsAt (i : Nat) : List (Row pduSchema) :=
  pduRows (w.packetId i) (w.linkType i) (w.slice i)

/-- The guard refuses every slice that ends past the window. -/
def SlicesRefused : Prop :=
  ∀ i < w.n, (w.poff i + w.psize i) % 2 ^ 64 ≤ w.window.length →
    w.poff i + w.psize i ≤ w.window.length

variable {w}

theorem packet_eq_slice {i : Nat}
    (refused : (w.poff i + w.psize i) % 2 ^ 64 ≤ w.window.length →
      w.poff i + w.psize i ≤ w.window.length) : w.packet i = some (w.slice i) := by
  unfold packet slice
  by_cases inside : w.poff i + w.psize i ≤ w.window.length
  · rw [if_pos inside, if_pos inside, if_pos (Nat.le_trans (Nat.mod_le _ _) inside)]
  · rw [if_neg inside, if_neg fun ends => inside (refused ends)]
    exact congrArg some (if_neg inside).symm

theorem slicesRefused_of_lt (bounded : ∀ i < w.n, w.poff i + w.psize i < 2 ^ 64) :
    w.SlicesRefused := by
  intro i inRange ends
  rwa [Nat.mod_eq_of_lt (bounded i inRange)] at ends

theorem packet_of_escape {i : Nat} (wraps : (w.poff i + w.psize i) % 2 ^ 64 ≤ w.window.length)
    (outside : ¬ w.poff i + w.psize i ≤ w.window.length) : w.packet i = none := by
  rw [packet, if_pos wraps, if_neg outside]

theorem serialDecode_eq (out : DecodedPdus) :
    w.serialDecode out = out.appendPackets w.rowsAt (List.range w.n) := by
  apply List.foldl_ext
  intro out i _
  rw [rowsAt, decodePacket_eq]

/-- The first pass leaves the counts of all packets, in whatever order its
kernels run. -/
theorem countPass_eq (refused : w.SlicesRefused) {order : List Nat}
    (ordered : order.Perm (List.range w.n)) :
    ∃ counts, order.mapM w.countKernel = some counts ∧
      setAll (List.replicate w.n {}) counts =
        (List.range w.n).map fun i => countPacket (w.linkType i) (w.slice i) := by
  refine ⟨order.map fun i => (i, countPacket (w.linkType i) (w.slice i)), ?_, ?_⟩
  · refine mapM_eq_some fun i member => ?_
    have inRange := List.mem_range.mp (ordered.mem_iff.mp member)
    rw [countKernel, packet_eq_slice (refused i inRange), Option.map_some]
  · exact setAll_of_order _ List.length_replicate (ordered.map _)

/-- What a scatter kernel does with the slice of its packet. -/
def sliceKernel (w : Window) (base : PduCounts × Nat) : List WindowAction :=
  (scatterRows (2 ^ 32) base.1.counters (w.rowsAt base.2)).map .column ++
    [.trailer base.2 (walkPacket (w.linkType base.2) (w.slice base.2)).2]

theorem scatterPass_eq (refused : w.SlicesRefused) (base : List PduCounts) :
    (base.zip (List.range w.n)).mapM w.scatterKernel =
      some ((base.zip (List.range w.n)).map w.sliceKernel) := by
  refine mapM_eq_some fun entry member => ?_
  have inRange := List.mem_range.mp (List.of_mem_zip member).2
  rw [scatterKernel, packet_eq_slice (refused entry.2 inRange), Option.map_some, sliceKernel,
    scatterPacket, scatterPdus_eq, rowsAt, pduRows]

theorem columnWrites_sliceKernel (base : PduCounts × Nat) :
    columnWrites (w.sliceKernel base) =
      scatterRows (2 ^ 32) base.1.counters (w.rowsAt base.2) := by
  rw [sliceKernel, columnWrites, List.filterMap_append, List.filterMap_map]
  simp

theorem trailerWrites_sliceKernel (base : PduCounts × Nat) :
    trailerWrites (w.sliceKernel base) =
      [(base.2, (walkPacket (w.linkType base.2) (w.slice base.2)).2)] := by
  rw [sliceKernel, trailerWrites, List.filterMap_append, List.filterMap_map]
  simp

theorem columnWrites_kernels {base : List PduCounts} {seed : Counters pduSchema}
    (scanned : base.map PduCounts.counters = exclusiveScan (2 ^ 32) seed
      (((List.range w.n).map w.rowsAt).map (countRows (2 ^ 32) fun _ => 0))) :
    columnWrites ((base.zip (List.range w.n)).map w.sliceKernel).flatten =
      (kernels (2 ^ 32) seed ((List.range w.n).map w.rowsAt)).flatten := by
  rw [columnWrites, List.filterMap_flatten, List.map_map, kernels, ← scanned, List.zipWith_map,
    ← List.map_uncurry_zip_eq_zipWith]
  congr 2
  funext entry
  exact columnWrites_sliceKernel entry

theorem trailerWrites_kernels {base : List PduCounts} (sized : base.length = w.n) :
    trailerWrites ((base.zip (List.range w.n)).map w.sliceKernel).flatten =
      (List.range w.n).map fun i => (i, (walkPacket (w.linkType i) (w.slice i)).2) := by
  have numbers : (base.zip (List.range w.n)).map Prod.snd = List.range w.n :=
    List.map_snd_zip (Nat.le_of_eq (List.length_range.trans sized.symm))
  rw [trailerWrites, ← List.flatMap_def, List.filterMap_flatMap]
  refine (List.flatMap_congr fun entry _ => trailerWrites_sliceKernel entry).trans ?_
  rw [← List.map_eq_flatMap, ← numbers, List.map_map, numbers]
  rfl

theorem length_scanCounts (run : PduCounts) (per : List PduCounts) :
    (scanCounts run per).1.length = per.length := by
  induction per generalizing run with
  | nil => rfl
  | cons counts per inductionHypothesis =>
      exact congrArg (· + 1) (inductionHypothesis (run.add counts))

/-- An empty window changes nothing. -/
theorem decodes_empty {start : WindowState} (empty : w.n = 0)
    (presized : ∀ trailers, start.trailers = some trailers → trailers.length = w.n) :
    start = ⟨w.serialDecode start.out, start.trailers.map fun _ => w.walkResults⟩ := by
  obtain ⟨out, trailers⟩ := start
  rw [serialDecode, walkResults, empty]
  cases trailers with
  | none => rfl
  | some trailers =>
      rw [List.length_eq_zero_iff.mp ((presized trailers rfl).trans empty)]
      rfl

/-- A window that is not empty and whose bad slices are refused resizes the columns to
the totals, and then performs the accesses of its kernels in some order. -/
theorem trace_of_decodes {start : WindowState} {outcome : Option WindowState}
    (nonempty : w.n ≠ 0) (refused : w.SlicesRefused) (decodes : w.Decodes start outcome) :
    ∃ trace : List WindowAction,
      (columnWrites trace).Perm
        (kernels (2 ^ 32) (start.out.seed (2 ^ 32)) ((List.range w.n).map w.rowsAt)).flatten ∧
      (trailerWrites trace).Perm
        ((List.range w.n).map fun i => (i, (walkPacket (w.linkType i) (w.slice i)).2)) ∧
      outcome = trace.foldlM WindowState.act
        ⟨start.out.resize (scanTotal (2 ^ 32) (start.out.seed (2 ^ 32))
          (((List.range w.n).map w.rowsAt).map (countRows (2 ^ 32) fun _ => 0))),
          start.trailers⟩ := by
  rw [Decodes, if_neg nonempty] at decodes
  obtain ⟨order, ordered, passes⟩ := decodes
  obtain ⟨counts, counting, per⟩ := countPass_eq refused ordered
  rw [counting] at passes
  dsimp only at passes
  rw [per, scatterPass_eq refused] at passes
  obtain ⟨trace, schedule, rfl⟩ := passes
  have counted : ((List.range w.n).map fun i =>
        countPacket (w.linkType i) (w.slice i)).map PduCounts.counters =
      ((List.range w.n).map w.rowsAt).map (countRows (2 ^ 32) fun _ => 0) := by
    rw [List.map_map, List.map_map]
    exact List.map_congr_left fun i _ => counters_countPacket _ _ _
  obtain ⟨bases, totals⟩ := scanCounts_eq (seedCounts start.out)
    ((List.range w.n).map fun i => countPacket (w.linkType i) (w.slice i))
  rw [counted, counters_seedCounts] at bases totals
  have sized := length_scanCounts (seedCounts start.out)
    ((List.range w.n).map fun i => countPacket (w.linkType i) (w.slice i))
  rw [List.length_map, List.length_range] at sized
  have columnsFilled : (columnWrites trace).Perm _ := schedule.perm.filterMap _
  have trailersFilled : (trailerWrites trace).Perm _ := schedule.perm.filterMap _
  rw [← columnWrites, columnWrites_kernels bases] at columnsFilled
  rw [← trailerWrites, trailerWrites_kernels sized] at trailersFilled
  refine ⟨trace, columnsFilled, trailersFilled, ?_⟩
  rw [resizeColumns_eq, totals]

/-- A slice that is let through although it ends past the window is a fault. -/
theorem outcome_of_escape {start : WindowState} {outcome : Option WindowState}
    (escapes : ¬ w.SlicesRefused) (decodes : w.Decodes start outcome) : outcome = none := by
  simp only [SlicesRefused, not_forall, exists_prop] at escapes
  obtain ⟨i, inRange, ends, outside⟩ := escapes
  rw [Decodes, if_neg (Nat.ne_of_gt (Nat.zero_lt_of_lt inRange))] at decodes
  obtain ⟨order, ordered, passes⟩ := decodes
  have member := ordered.mem_iff.mpr (List.mem_range.mpr inRange)
  have fault : w.countKernel i = none := by
    rw [countKernel, packet_of_escape ends outside, Option.map_none]
  rw [mapM_eq_none member fault] at passes
  exact passes

/-- While no column outgrows the counters, the columns gain the rows of all packets in
order, and each trailer slot is written once. -/
theorem decodes_of_fits {start : WindowState} {outcome : Option WindowState}
    (nonempty : w.n ≠ 0) (refused : w.SlicesRefused) (rectangular : start.out.Rectangular)
    (roomy : ∀ trailers, start.trailers = some trailers → w.n ≤ trailers.length)
    (bounded : ∀ type,
      (start.out.appendAll ((List.range w.n).map w.rowsAt).flatten).height type < 2 ^ 32)
    (decodes : w.Decodes start outcome) :
    ∃ results : List (Nat × WalkResult),
      results.Perm
        ((List.range w.n).map fun i => (i, (walkPacket (w.linkType i) (w.slice i)).2)) ∧
      outcome = some ⟨start.out.appendAll ((List.range w.n).map w.rowsAt).flatten,
        start.trailers.map fun trailers => setAll trailers results⟩ := by
  obtain ⟨trace, columnsFilled, trailersFilled, rfl⟩ := trace_of_decodes nonempty refused decodes
  refine ⟨trailerWrites trace, trailersFilled, ?_⟩
  rw [foldlM_act]
  · dsimp only
    rw [Store.writeAll_of_perm rectangular bounded columnsFilled]
    rfl
  · intro trailers present entry member
    obtain ⟨i, inRange, rfl⟩ := List.mem_map.mp (trailersFilled.mem_iff.mp member)
    exact Nat.lt_of_lt_of_le (List.mem_range.mp inRange) (roomy trailers present)

/-- Whatever the kernel orders of both passes, `decode_window` fills the columns
as decoding the packets one by one does, and the trailers with their walk
results; no access leaves its array. -/
theorem decodes_eq {start : WindowState} {outcome : Option WindowState}
    (rectangular : start.out.Rectangular)
    (presized : ∀ trailers, start.trailers = some trailers → trailers.length = w.n)
    (slices : ∀ i < w.n, w.poff i + w.psize i < 2 ^ 64)
    (bounded : ∀ type, (w.serialDecode start.out).height type < 2 ^ 32)
    (decodes : w.Decodes start outcome) :
    outcome = some ⟨w.serialDecode start.out, start.trailers.map fun _ => w.walkResults⟩ := by
  by_cases empty : w.n = 0
  · rw [Decodes, if_pos empty] at decodes
    rw [decodes, ← decodes_empty empty presized]
  · rw [serialDecode_eq, Store.appendPackets_eq] at bounded ⊢
    have roomy : ∀ trailers, start.trailers = some trailers → w.n ≤ trailers.length := by
      intro trailers present
      exact Nat.le_of_eq (presized trailers present).symm
    obtain ⟨results, permuted, rfl⟩ :=
      decodes_of_fits empty (slicesRefused_of_lt slices) rectangular roomy bounded decodes
    apply congrArg some
    cases present : start.trailers with
    | none => rfl
    | some trailers =>
        have filled := setAll_of_order _ (presized trailers present) permuted
        rw [Option.map_some, Option.map_some, filled, walkResults]

theorem exists_decodes (w : Window) (start : WindowState) :
    ∃ outcome, w.Decodes start outcome := by
  unfold Decodes
  split
  · exact ⟨_, rfl⟩
  · cases counting : (List.range w.n).mapM w.countKernel with
    | none => exact ⟨none, List.range w.n, List.Perm.refl _, by rw [counting]⟩
    | some counts =>
        let scanned := scanCounts (seedCounts start.out) (setAll (List.replicate w.n {}) counts)
        cases scattering : (scanned.1.zip (List.range w.n)).mapM w.scatterKernel with
        | none =>
            refine ⟨none, List.range w.n, List.Perm.refl _, ?_⟩
            rw [counting]
            dsimp only
            rw [scattering]
        | some kernels =>
            let sized : WindowState := { start with out := resizeColumns start.out scanned.2 }
            refine ⟨kernels.flatten.foldlM WindowState.act sized, List.range w.n,
              List.Perm.refl _, ?_⟩
            rw [counting]
            dsimp only
            rw [scattering]
            exact ⟨_, .sequential kernels, rfl⟩

/-- Two packets of 18 bytes, an Ethernet header and a VLAN tag each, the second
cut off by the end of the window. -/
def taggedWindow : Window where
  pidBase := 7
  linkType _ := kLinkTypeEthernet
  poff i := 18 * i
  psize _ := 18
  window := List.replicate 12 0 ++ [0x81, 0x00, 0, 1, 0x12, 0x34] ++ List.replicate 12 0
  n := 2

theorem decodes_eq_tagged :
    let start : WindowState := ⟨fun _ => [], some [{}, {}]⟩
    ∃ outcome, taggedWindow.Decodes start outcome ∧
      outcome = some ⟨taggedWindow.serialDecode start.out, some taggedWindow.walkResults⟩ := by
  intro start
  obtain ⟨outcome, decodes⟩ := exists_decodes taggedWindow start
  refine ⟨outcome, decodes, decodes_eq Store.rectangular_empty ?_ ?_ ?_ decodes⟩
  · intro trailers present
    cases present
    rfl
  · decide
  · intro type
    cases type <;> decide +kernel

end Window

end Nanotins.ProtocolDecode
