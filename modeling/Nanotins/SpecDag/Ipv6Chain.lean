import Nanotins.SpecDag.LinkLayer

/-!
Contract: the walk follows every well-formed IPv6 header chain to its L4 header.

Owns: IPv6 headers, extension headers and what a chain of them ends with, the
packets built from an IPv6 chain and an L4 header, and the visits and rows of such
a packet (`walk_ipv6Packet`).

Does not own: chains that are cut.
-/

namespace Nanotins.SpecDag

open Nanotins.Library Nanotins.Wire

/-! ### Headers of an IPv6 chain -/

/-- An IPv6 extension header without its `next_header`: hop-by-hop and
destination options, routing, first fragment, authentication.  The body fills
the declared length. -/
inductive ExtHeader where
  | hopByHop (hdrExtLen : Nat) (body : Bytes) (bounded : hdrExtLen < 2 ^ 8)
      (whole : 2 + body.length = (hdrExtLen + 1) * 8)
  | destOpt (hdrExtLen : Nat) (body : Bytes) (bounded : hdrExtLen < 2 ^ 8)
      (whole : 2 + body.length = (hdrExtLen + 1) * 8)
  | routing (hdrExtLen routingType segmentsLeft lastEntry flags tag : Nat) (body : Bytes)
      (bounded : hdrExtLen < 2 ^ 8 ∧ routingType < 2 ^ 8 ∧ segmentsLeft < 2 ^ 8 ∧
        lastEntry < 2 ^ 8 ∧ flags < 2 ^ 8 ∧ tag < 2 ^ 16)
      (whole : 8 + body.length = (hdrExtLen + 1) * 8)
  | fragment (reserved res2 moreFragments identification : Nat)
      (bounded : reserved < 2 ^ 8 ∧ res2 < 2 ^ 2 ∧ moreFragments < 2 ^ 1 ∧
        identification < 2 ^ 32)
  | ah (payloadLen reserved spi seq : Nat) (body : Bytes)
      (bounded : payloadLen < 2 ^ 8 ∧ reserved < 2 ^ 16 ∧ spi < 2 ^ 32 ∧ seq < 2 ^ 32)
      (positive : 1 ≤ payloadLen) (whole : 12 + body.length = (payloadLen + 2) * 4)

/-- The fixed part of an L4 header. -/
inductive L4Header where
  | tcp (srcPort dstPort seq ack dataOffset reserved flags window checksum urgentPtr : Nat)
      (bounded : srcPort < 2 ^ 16 ∧ dstPort < 2 ^ 16 ∧ seq < 2 ^ 32 ∧ ack < 2 ^ 32 ∧
        dataOffset < 2 ^ 4 ∧ reserved < 2 ^ 3 ∧ flags < 2 ^ 9 ∧ window < 2 ^ 16 ∧
        checksum < 2 ^ 16 ∧ urgentPtr < 2 ^ 16)
  | udp (srcPort dstPort length checksum : Nat)
      (bounded : srcPort < 2 ^ 16 ∧ dstPort < 2 ^ 16 ∧ length < 2 ^ 16 ∧ checksum < 2 ^ 16)

/-- The protocol number that names an extension header. -/
def ExtHeader.protocol : ExtHeader → Nat
  | .hopByHop .. => 0
  | .destOpt .. => 60
  | .routing .. => 43
  | .fragment .. => 44
  | .ah .. => 51

def L4Header.protocol : L4Header → Nat
  | .tcp .. => 6
  | .udp .. => 17

def L4Header.srcPort : L4Header → Nat
  | .tcp srcPort .. => srcPort
  | .udp srcPort .. => srcPort

def L4Header.dstPort : L4Header → Nat
  | .tcp _ dstPort .. => dstPort
  | .udp _ dstPort .. => dstPort

theorem packed_ipv6Fragment : packed L2L3Node.ipv6Fragment.spec = true := rfl

/-- The extension header that names `next` as its successor. -/
def ExtHeader.header (next : Nat) (bounded : next < 2 ^ 8) : ExtHeader → Header
  | .hopByHop hdrExtLen body lengthBounded _ =>
      ⟨.ipv6HopByHop, [.uint next, .uint hdrExtLen], body, rfl,
        .cons (.uint bounded) (.cons (.uint lengthBounded) .nil)⟩
  | .destOpt hdrExtLen body lengthBounded _ =>
      ⟨.ipv6DestOpt, [.uint next, .uint hdrExtLen], body, rfl,
        .cons (.uint bounded) (.cons (.uint lengthBounded) .nil)⟩
  | .routing hdrExtLen routingType segmentsLeft lastEntry flags tag body b _ =>
      ⟨.ipv6Routing, [.uint next, .uint hdrExtLen, .uint routingType, .uint segmentsLeft,
          .uint lastEntry, .uint flags, .uint tag], body, rfl,
        .cons (.uint bounded) (.cons (.uint b.1) (.cons (.uint b.2.1) (.cons (.uint b.2.2.1)
          (.cons (.uint b.2.2.2.1) (.cons (.uint b.2.2.2.2.1) (.cons (.uint b.2.2.2.2.2) .nil))))))⟩
  | .fragment reserved res2 moreFragments identification b =>
      ⟨.ipv6Fragment, [.uint next, .uint reserved, .uint 0, .uint res2, .uint moreFragments,
          .uint identification], [], packed_ipv6Fragment,
        .cons (.uint bounded) (.cons (.uint b.1) (.cons (.bits (by decide)) (.cons (.bits b.2.1)
          (.cons (.bits b.2.2.1) (.cons (.uint b.2.2.2) .nil)))))⟩
  | .ah payloadLen reserved spi seq body b _ _ =>
      ⟨.ipv6Ah, [.uint next, .uint payloadLen, .uint reserved, .uint spi, .uint seq], body, rfl,
        .cons (.uint bounded) (.cons (.uint b.1) (.cons (.uint b.2.1) (.cons (.uint b.2.2.1)
          (.cons (.uint b.2.2.2) .nil))))⟩

def L4Header.header : L4Header → Header
  | .tcp srcPort dstPort seq ack dataOffset reserved flags window checksum urgentPtr b =>
      ⟨.tcp, [.uint srcPort, .uint dstPort, .uint seq, .uint ack, .uint dataOffset,
          .uint reserved, .uint flags, .uint window, .uint checksum, .uint urgentPtr], [], rfl,
        .cons (.uint b.1) (.cons (.uint b.2.1) (.cons (.uint b.2.2.1) (.cons (.uint b.2.2.2.1)
          (.cons (.bits b.2.2.2.2.1) (.cons (.bits b.2.2.2.2.2.1) (.cons (.bits b.2.2.2.2.2.2.1)
            (.cons (.uint b.2.2.2.2.2.2.2.1) (.cons (.uint b.2.2.2.2.2.2.2.2.1)
              (.cons (.uint b.2.2.2.2.2.2.2.2.2) .nil)))))))))⟩
  | .udp srcPort dstPort length checksum b =>
      ⟨.udp, [.uint srcPort, .uint dstPort, .uint length, .uint checksum], [], rfl,
        .cons (.uint b.1) (.cons (.uint b.2.1) (.cons (.uint b.2.2.1) (.cons (.uint b.2.2.2) .nil)))⟩

/-- The protocol number that a chain of extension headers before `last` starts
with. -/
def leadProtocol (last : Nat) : List ExtHeader → Nat
  | [] => last
  | ext :: _ => ext.protocol

theorem leadProtocol_lt {last : Nat} (bounded : last < 2 ^ 8) (exts : List ExtHeader) :
    leadProtocol last exts < 2 ^ 8 := by
  cases exts with
  | nil => exact bounded
  | cons ext _ => cases ext <;> simp [leadProtocol, ExtHeader.protocol]

/-- The extension headers, each naming its successor. -/
def extHeaders {last : Nat} (bounded : last < 2 ^ 8) : List ExtHeader → List Header
  | [] => []
  | ext :: exts =>
      ext.header (leadProtocol last exts) (leadProtocol_lt bounded exts) :: extHeaders bounded exts

/-- What a chain ends with: a protocol that is no extension header, or a fragment
that is not the first. -/
inductive ChainEnd where
  | upper (protocol : Nat) (bounded : protocol < 2 ^ 8)
      (other : protocol ∉ [0, 43, 44, 51, 60])
  | laterFragment (next reserved fragOffset res2 moreFragments identification : Nat)
      (bounded : next < 2 ^ 8 ∧ reserved < 2 ^ 8 ∧ fragOffset < 2 ^ 13 ∧ res2 < 2 ^ 2 ∧
        moreFragments < 2 ^ 1 ∧ identification < 2 ^ 32)
      (later : fragOffset ≠ 0)

namespace ChainEnd

def protocol : ChainEnd → Nat
  | upper protocol .. => protocol
  | laterFragment .. => 44

theorem protocol_lt (ending : ChainEnd) : ending.protocol < 2 ^ 8 := by
  cases ending with
  | upper _ bounded => exact bounded
  | laterFragment => exact (by decide : 44 < 2 ^ 8)

def headers : ChainEnd → List Header
  | upper .. => []
  | laterFragment next reserved fragOffset res2 moreFragments identification b _ =>
      [⟨.ipv6Fragment, [.uint next, .uint reserved, .uint fragOffset, .uint res2,
          .uint moreFragments, .uint identification], [], packed_ipv6Fragment,
        .cons (.uint b.1) (.cons (.uint b.2.1) (.cons (.bits b.2.2.1) (.cons (.bits b.2.2.2.1)
          (.cons (.bits b.2.2.2.2.1) (.cons (.uint b.2.2.2.2.2) .nil)))))⟩]

end ChainEnd

/-- The headers up to the IPv6 header, which has no `next_header` yet. -/
structure Ipv6Envelope where
  link : LinkLayer
  version : Nat
  trafficClass : Nat
  flowLabel : Nat
  payloadLength : Nat
  hopLimit : Nat
  ipSrc : Bytes
  ipDst : Bytes
  announced : link.ethertype = 0x86DD
  version_lt : version < 2 ^ 4
  trafficClass_lt : trafficClass < 2 ^ 8
  flowLabel_lt : flowLabel < 2 ^ 20
  payloadLength_lt : payloadLength < 2 ^ 16
  hopLimit_lt : hopLimit < 2 ^ 8
  ipSrc_length : ipSrc.length = 16
  ipDst_length : ipDst.length = 16

namespace Ipv6Envelope

variable (env : Ipv6Envelope)

/-- The IPv6 header that names `next` as its successor. -/
def ipv6Header (next : Nat) (bounded : next < 2 ^ 8) : Header :=
  ⟨.ipv6, [.uint env.version, .uint env.trafficClass, .uint env.flowLabel, .uint env.payloadLength,
      .uint next, .uint env.hopLimit, .bytes env.ipSrc, .bytes env.ipDst], [], rfl,
    .cons (.bits env.version_lt) (.cons (.bits env.trafficClass_lt) (.cons (.bits env.flowLabel_lt)
      (.cons (.uint env.payloadLength_lt) (.cons (.uint bounded)
        (.cons (.uint env.hopLimit_lt) (.cons (fits_bytes env.ipSrc_length)
          (.cons (fits_bytes env.ipDst_length) .nil)))))))⟩

/-- The link headers and the IPv6 header. -/
def headers (next : Nat) (bounded : next < 2 ^ 8) : List Header :=
  env.link.headers ++ [env.ipv6Header next bounded]

/-- All headers of a chain that ends before the protocol `last`. -/
def chain (exts : List ExtHeader) {last : Nat} (bounded : last < 2 ^ 8) : List Header :=
  env.headers (leadProtocol last exts) (leadProtocol_lt bounded exts) ++ extHeaders bounded exts

end Ipv6Envelope

/-- A packet with an IPv6 chain that ends in an L4 header. -/
structure Ipv6Packet where
  envelope : Ipv6Envelope
  exts : List ExtHeader
  l4 : L4Header
  payload : Bytes

theorem L4Header.protocol_lt (l4 : L4Header) : l4.protocol < 2 ^ 8 := by
  cases l4 <;> simp [L4Header.protocol]

namespace Ipv6Packet

variable (p : Ipv6Packet)

/-- The headers before the L4 header. -/
def front : List Header := p.envelope.chain p.exts p.l4.protocol_lt

/-- All headers up to and including the L4 header. -/
def headers : List Header := p.front ++ [p.l4.header]

def bytes : Bytes := p.headers.flatMap Header.encode ++ p.payload

end Ipv6Packet

/-! ### The links -/

section Links

variable {pkt : Bytes} {off : Nat}

/-- An extension header leads where its `next_header` does. -/
theorem names_extHeader (ext : ExtHeader) {next : Nat} (bounded : next < 2 ^ 8) :
    Names (ext.header next bounded) (ip6NextDispatch next) := by
  intro pkt off stands
  rw [Header.length_encode, after_eq]
  cases ext with
  | hopByHop hdrExtLen body _ whole | destOpt hdrExtLen body _ whole =>
      rcases leadingReads rfl rfl stands with ⟨nextRead, lengthRead⟩
      constructor
      · exact congrArg ip6NextDispatch nextRead
      · show off + (readUint pkt off Ipv6ExtOptSpec.hdrExtLen + 1) * 8 = off + (2 + body.length)
        rw [Ipv6ExtOptSpec.hdrExtLen, lengthRead, whole]
  | routing hdrExtLen routingType segmentsLeft lastEntry flags tag body _ whole =>
      rcases leadingReads rfl rfl stands with ⟨nextRead, lengthRead⟩
      constructor
      · exact congrArg ip6NextDispatch nextRead
      · show off + (readUint pkt off Ipv6SrhSpec.hdrExtLen + 1) * 8 = off + (8 + body.length)
        rw [Ipv6SrhSpec.hdrExtLen, lengthRead, whole]
  | fragment reserved res2 moreFragments identification _ =>
      have read := Header.readField_eq stands
      have nextRead : readField pkt off Ipv6FragmentSpec.nextHeader = .uint next :=
        readField_of_map read 0 rfl rfl
      have first : readUint pkt off Ipv6FragmentSpec.fragOffset = 0 :=
        FieldValue.uint.inj (readField_of_map read 2 rfl rfl)
      constructor
      · show (if readUint pkt off Ipv6FragmentSpec.fragOffset ≠ 0 then none
          else ip6NextDispatch (readUint pkt off Ipv6FragmentSpec.nextHeader)) = _
        rw [first, if_neg (fun different => different rfl)]
        exact congrArg ip6NextDispatch (readUint_of_readField nextRead)
      · rfl
  | ah payloadLen reserved spi seq body _ _ whole =>
      rcases leadingReads rfl rfl stands with ⟨nextRead, lengthRead⟩
      constructor
      · exact congrArg ip6NextDispatch nextRead
      · show off + (readUint pkt off Ipv6AhSpec.payloadLen + 2) * 4 = off + (12 + body.length)
        rw [Ipv6AhSpec.payloadLen, lengthRead, whole]

/-- A chain of extension headers starts with the node its protocol number names. -/
theorem ip6NextDispatch_leadProtocol {last : Nat} (bounded : last < 2 ^ 8)
    (exts : List ExtHeader) :
    ip6NextDispatch (leadProtocol last exts) =
      firstNode (extHeaders bounded exts) (ip6NextDispatch last) := by
  cases exts with
  | nil => rfl
  | cons ext exts => cases ext <;> rfl

theorem namedChain_extHeaders {last : Nat} (bounded : last < 2 ^ 8) (exts : List ExtHeader) :
    NamedChain (extHeaders bounded exts) (ip6NextDispatch last) := by
  induction exts with
  | nil => trivial
  | cons ext exts inductionHypothesis =>
      have named : Names (ext.header (leadProtocol last exts) (leadProtocol_lt bounded exts))
          (ip6NextDispatch (leadProtocol last exts)) := names_extHeader ext _
      rw [ip6NextDispatch_leadProtocol bounded] at named
      exact ⟨@named, inductionHypothesis⟩

theorem Ipv6Envelope.names_ipv6Header (env : Ipv6Envelope) {next : Nat} (bounded : next < 2 ^ 8) :
    Names (env.ipv6Header next bounded) (ip6NextDispatch next) := by
  intro pkt off stands
  have nextRead : readField pkt off Ipv6Spec.nextHeader = .uint next :=
    readField_of_map (Header.readField_eq stands) 4 rfl rfl
  constructor
  · exact congrArg ip6NextDispatch (readUint_of_readField nextRead)
  · rw [Header.length_encode, after_eq]
    rfl

/-- The headers up to the IPv6 header name each other, and what it names. -/
theorem Ipv6Envelope.namedChain_headers (env : Ipv6Envelope) {next : Nat} (bounded : next < 2 ^ 8) :
    NamedChain (env.headers next bounded) (ip6NextDispatch next) := by
  have link := env.link.namedChain_headers
  rw [env.announced] at link
  exact NamedChain.append link ⟨env.names_ipv6Header bounded, trivial⟩

theorem Ipv6Envelope.namedChain_chain (env : Ipv6Envelope) (exts : List ExtHeader) {last : Nat}
    (bounded : last < 2 ^ 8) : NamedChain (env.chain exts bounded) (ip6NextDispatch last) := by
  have ip := env.namedChain_headers (leadProtocol_lt bounded exts)
  rw [ip6NextDispatch_leadProtocol bounded] at ip
  exact NamedChain.append ip (namedChain_extHeaders bounded exts)

theorem ip6NextDispatch_protocol (l4 : L4Header) :
    ip6NextDispatch l4.protocol = some l4.header.node := by
  cases l4 <;> rfl

theorem Ipv6Packet.namedChain_front (p : Ipv6Packet) :
    NamedChain p.front (some p.l4.header.node) := by
  rw [← ip6NextDispatch_protocol]
  exact p.envelope.namedChain_chain p.exts p.l4.protocol_lt

/-- A fragment that is not the first names nothing. -/
theorem ChainEnd.namedChain_headers (ending : ChainEnd) : NamedChain ending.headers none := by
  cases ending with
  | upper => trivial
  | laterFragment next reserved fragOffset res2 moreFragments identification b later =>
      refine ⟨?_, trivial⟩
      intro pkt off stands
      have offset : readUint pkt off Ipv6FragmentSpec.fragOffset = fragOffset :=
        FieldValue.uint.inj (readField_of_map (Header.readField_eq stands) 2 rfl rfl)
      constructor
      · show (if readUint pkt off Ipv6FragmentSpec.fragOffset ≠ 0 then none
          else ip6NextDispatch (readUint pkt off Ipv6FragmentSpec.nextHeader)) = none
        rw [offset, if_pos later]
      · rw [Header.length_encode, after_eq]
        rfl

/-- An L4 header leads to SOME/IP through its ports and nowhere else. -/
theorem follow_l4Header {l4 : L4Header} (stands : StandsAt pkt off l4.header.encode) :
    l2l3.follow pkt off l4.header.node =
      if l4.dstPort = kSomeipSdPort ∨ l4.srcPort = kSomeipSdPort then some .someip else none := by
  have dispatch : ∀ dst src, someipPortDispatch dst src =
      if dst = kSomeipSdPort ∨ src = kSomeipSdPort then some .someip else none := by
    intro dst src
    simp only [someipPortDispatch, matchEdges, List.foldl_cons, List.foldl_nil]
    by_cases atDst : dst = kSomeipSdPort <;> by_cases atSrc : src = kSomeipSdPort <;>
      simp [atDst, atSrc]
  cases l4 with
  | tcp =>
      rcases leadingReads rfl rfl stands with ⟨srcRead, dstRead⟩
      show someipPortDispatch (readUint pkt off TcpSpec.dstPort)
        (readUint pkt off TcpSpec.srcPort) = _
      rw [TcpSpec.dstPort, TcpSpec.srcPort, dstRead, srcRead, dispatch]
      rfl
  | udp =>
      rcases leadingReads rfl rfl stands with ⟨srcRead, dstRead⟩
      show someipPortDispatch (readUint pkt off UdpSpec.dstPort)
        (readUint pkt off UdpSpec.srcPort) = _
      rw [UdpSpec.dstPort, UdpSpec.srcPort, dstRead, srcRead, dispatch]
      rfl

/-- Behind an L4 header a walk visits at most a SOME/IP header. -/
theorem visits_behind_l4 (pkt : Bytes) (left place : Nat) (ports : Prop) [Decidable ports] :
    let tail := (walkFrom l2l3 pkt left (if ports then some .someip else none) place).visits
    tail = [] ∨ ports ∧ tail = [(.someip, place)] := by
  split
  next named =>
    cases left with
    | zero => exact .inl rfl
    | succ left =>
        by_cases whole : l2l3.Fits pkt place .someip
        · right
          have ends : l2l3.follow pkt place .someip = none := rfl
          rw [walkFrom_of_fits whole, ends, walkFrom_none]
          exact ⟨named, rfl⟩
        · left
          rw [walkFrom_of_not_fits whole]
  · left
    rw [walkFrom_none]

end Links

/-! ### Visits and rows -/

/-- The length that an L4 header declares, not below its fixed part. -/
def L4Header.length : L4Header → Nat
  | .tcp _ _ _ _ dataOffset .. => max 20 (dataOffset * 4)
  | .udp .. => 8

theorem after_l4Header {l4 : L4Header} {pkt : Bytes} {off : Nat}
    (stands : StandsAt pkt off l4.header.encode) :
    l2l3.after pkt off l4.header.node = off + l4.length := by
  have read := Header.readField_eq stands
  rw [after_eq]
  cases l4 with
  | tcp srcPort dstPort seq ack dataOffset reserved flags window checksum urgentPtr b =>
      have offset : readUint pkt off TcpSpec.dataOffset = dataOffset :=
        FieldValue.uint.inj (readField_of_map read 4 rfl rfl)
      show off + max 20 (readUint pkt off TcpSpec.dataOffset * 4) = off + max 20 (dataOffset * 4)
      rw [offset]
  | udp => rfl

/-- `visits` are the headers a packet was built from, in order and each at the
sum of the lengths before it, and `tail`: at most one SOME/IP header behind an
L4 header with a port that names it. -/
structure VisitsHeaders (p : Ipv6Packet) (visits tail : List (L2L3Node × Nat)) : Prop where
  visits_eq : visits = headerVisits 0 p.headers ++ tail
  tail_length : tail.length ≤ 1
  tail_someip : ∀ visit ∈ tail,
    visit = (.someip, (p.front.flatMap Header.encode).length + p.l4.length) ∧
      (p.l4.dstPort = kSomeipSdPort ∨ p.l4.srcPort = kSomeipSdPort)

/-- Decoding a packet with an IPv6 chain of at most 32 headers visits exactly
the headers it was built from and appends their field values as rows. -/
theorem walk_ipv6Packet (p : Ipv6Packet) (short : p.headers.length ≤ kMaxWalkSteps) :
    ∃ tail, VisitsHeaders p (walk l2l3 kEthRoot p.bytes).visits tail ∧
      ∀ (packetId : Nat) (tabs : DagTables l2l3) (col : DagColumn l2l3),
        dagDecodePacket l2l3 kEthRoot packetId p.bytes tabs col =
          tabs col ++ (cellsOf col (p.headers.map (headerRow packetId)) ++
            cellsOf col (tail.map (dagRow packetId p.bytes))) := by
  have stands : StandsAt p.bytes 0 (p.headers.flatMap Header.encode) :=
    ⟨[], p.payload, (List.nil_append _).symm, rfl⟩
  have l4Stands : StandsAt p.bytes (p.front.flatMap Header.encode).length p.l4.header.encode := by
    have behind := stands
    rw [Ipv6Packet.headers, List.flatMap_append] at behind
    have place := behind.right
    rwa [Nat.zero_add, List.flatMap_singleton] at place
  rcases Nat.exists_eq_add_of_le' short with ⟨left, steps⟩
  have visited := visits_of_namedChain_last left p.namedChain_front stands
  have lead : firstNode p.front (some p.l4.header.node) = some kEthRoot := rfl
  dsimp only at visited
  rw [lead, Nat.zero_add, follow_l4Header l4Stands, after_l4Header l4Stands] at visited
  change (walkFrom l2l3 p.bytes (left + p.headers.length) (some kEthRoot) 0).visits = _ at visited
  rw [← steps] at visited
  have someip := visits_behind_l4 p.bytes left ((p.front.flatMap Header.encode).length + p.l4.length)
    (p.l4.dstPort = kSomeipSdPort ∨ p.l4.srcPort = kSomeipSdPort)
  refine ⟨_, ⟨visited, ?_, ?_⟩, ?_⟩
  · rcases someip with none | ⟨-, one⟩
    · rw [none]
      exact Nat.zero_le 1
    · rw [one]
      exact Nat.le_refl 1
  · rcases someip with none | ⟨ports, one⟩
    · rw [none]
      simp
    · rw [one]
      rintro visit member
      exact ⟨List.mem_singleton.mp member, ports⟩
  · intro packetId tabs col
    have decoded : dagDecodePacket l2l3 kEthRoot packetId p.bytes tabs =
        tabs.appendAll ((walk l2l3 kEthRoot p.bytes).visits.map (dagRow packetId p.bytes)) :=
      dagDecodePacket_eq (G := l2l3) kEthRoot ⟨p.bytes, packetId⟩ tabs
    have rows := cellsOf_headerVisits packetId p.headers stands col
    rw [decoded, Store.appendAll_apply, walk, visited, List.map_append, cellsOf_append]
    exact congrArg (fun cells => tabs col ++ (cells ++ _)) rows

def tunnelEnvelope : Ipv6Envelope where
  link := doubleTagged 0x86DD (by decide)
  version := 6
  trafficClass := 0
  flowLabel := 5
  payloadLength := 40
  hopLimit := 64
  ipSrc := List.replicate 16 3
  ipDst := List.replicate 16 4
  announced := rfl
  version_lt := by decide
  trafficClass_lt := by decide
  flowLabel_lt := by decide
  payloadLength_lt := by decide
  hopLimit_lt := by decide
  ipSrc_length := rfl
  ipDst_length := rfl

/-- Two VLAN tags, a hop-by-hop header of 16 bytes, a fragment header and UDP to
the SOME/IP port. -/
def tunnelPacket : Ipv6Packet where
  envelope := tunnelEnvelope
  exts := [.hopByHop 1 (List.replicate 14 0) (by decide) (by decide),
    .fragment 0 0 1 99 (by decide)]
  l4 := .udp 1000 30490 8 0 (by decide)
  payload := [0xDE, 0xAD]

theorem walk_ipv6Packet_tunnel :
    ∃ tail, VisitsHeaders tunnelPacket (walk l2l3 kEthRoot tunnelPacket.bytes).visits tail ∧
      ∀ (packetId : Nat) (tabs : DagTables l2l3) (col : DagColumn l2l3),
        dagDecodePacket l2l3 kEthRoot packetId tunnelPacket.bytes tabs col =
          tabs col ++ (cellsOf col (tunnelPacket.headers.map (headerRow packetId)) ++
            cellsOf col (tail.map (dagRow packetId tunnelPacket.bytes))) :=
  walk_ipv6Packet tunnelPacket (by decide)

end Nanotins.SpecDag
