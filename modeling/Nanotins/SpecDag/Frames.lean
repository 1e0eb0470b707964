import Nanotins.SpecDag.Ipv6Chain

/-!
Contract: decoding inverts the framing of whole frames.

Owns: frames of a link layer, an IPv4 header with options or an IPv6 header chain,
a transport header with its options and a SOME/IP header, and IPv4 and IPv6 frames
whose payload is not read; that a walk visits exactly the headers a frame was built
from and ends behind them (`walk_frame`), and the rows they give.

Does not own: frames whose lengths or ports contradict what follows.
-/

namespace Nanotins.SpecDag

open Nanotins.Library Nanotins.Wire

/-! ### Headers -/

/-- An IPv4 header without its `protocol`; the options fill the declared length. -/
structure Ipv4Header where
  version : Nat
  ihl : Nat
  dscp : Nat
  ecn : Nat
  totalLength : Nat
  identification : Nat
  flags : Nat
  fragOffset : Nat
  ttl : Nat
  checksum : Nat
  src : Bytes
  dst : Bytes
  options : Bytes
  version_lt : version < 2 ^ 4
  ihl_lt : ihl < 2 ^ 4
  dscp_lt : dscp < 2 ^ 6
  ecn_lt : ecn < 2 ^ 2
  totalLength_lt : totalLength < 2 ^ 16
  identification_lt : identification < 2 ^ 16
  flags_lt : flags < 2 ^ 3
  fragOffset_lt : fragOffset < 2 ^ 13
  ttl_lt : ttl < 2 ^ 8
  checksum_lt : checksum < 2 ^ 16
  src_length : src.length = 4
  dst_length : dst.length = 4
  whole : 20 + options.length = ihl * 4

theorem packed_ipv4 : packed L2L3Node.ipv4.spec = true := rfl

/-- The header that names `protocol`. -/
def Ipv4Header.header (ip : Ipv4Header) (protocol : Nat) (bounded : protocol < 2 ^ 8) : Header :=
  ⟨.ipv4, [.uint ip.version, .uint ip.ihl, .uint ip.dscp, .uint ip.ecn, .uint ip.totalLength,
      .uint ip.identification, .uint ip.flags, .uint ip.fragOffset, .uint ip.ttl, .uint protocol,
      .uint ip.checksum, .bytes ip.src, .bytes ip.dst], ip.options, packed_ipv4,
    .cons (.bits ip.version_lt) (.cons (.bits ip.ihl_lt) (.cons (.bits ip.dscp_lt)
      (.cons (.bits ip.ecn_lt) (.cons (.uint ip.totalLength_lt) (.cons (.uint ip.identification_lt)
        (.cons (.bits ip.flags_lt) (.cons (.bits ip.fragOffset_lt) (.cons (.uint ip.ttl_lt)
          (.cons (.uint bounded) (.cons (.uint ip.checksum_lt) (.cons (fits_bytes ip.src_length)
            (.cons (fits_bytes ip.dst_length) .nil))))))))))))⟩

/-- A transport header; its options fill the declared length. -/
structure Transport where
  l4 : L4Header
  options : Bytes
  whole : l4.length = specSize l4.header.node.spec + options.length

def Transport.header (t : Transport) : Header := { t.l4.header with body := t.options }

/-- One of the ports is the SOME/IP port. -/
def L4Header.OnSomeipPort (l4 : L4Header) : Prop :=
  l4.dstPort = kSomeipSdPort ∨ l4.srcPort = kSomeipSdPort

instance (l4 : L4Header) : Decidable l4.OnSomeipPort := inferInstanceAs (Decidable (_ ∨ _))

structure SomeipHeader where
  serviceId : Nat
  methodId : Nat
  length : Nat
  clientId : Nat
  sessionId : Nat
  protocolVersion : Nat
  interfaceVersion : Nat
  messageType : Nat
  returnCode : Nat
  serviceId_lt : serviceId < 2 ^ 16
  methodId_lt : methodId < 2 ^ 16
  length_lt : length < 2 ^ 32
  clientId_lt : clientId < 2 ^ 16
  sessionId_lt : sessionId < 2 ^ 16
  protocolVersion_lt : protocolVersion < 2 ^ 8
  interfaceVersion_lt : interfaceVersion < 2 ^ 8
  messageType_lt : messageType < 2 ^ 8
  returnCode_lt : returnCode < 2 ^ 8

theorem packed_someip : packed L2L3Node.someip.spec = true := rfl

def SomeipHeader.header (s : SomeipHeader) : Header :=
  ⟨.someip, [.uint s.serviceId, .uint s.methodId, .uint s.length, .uint s.clientId,
      .uint s.sessionId, .uint s.protocolVersion, .uint s.interfaceVersion, .uint s.messageType,
      .uint s.returnCode], [], packed_someip,
    .cons (.uint s.serviceId_lt) (.cons (.uint s.methodId_lt) (.cons (.uint s.length_lt)
      (.cons (.uint s.clientId_lt) (.cons (.uint s.sessionId_lt) (.cons (.uint s.protocolVersion_lt)
        (.cons (.uint s.interfaceVersion_lt) (.cons (.uint s.messageType_lt)
          (.cons (.uint s.returnCode_lt) .nil))))))))⟩

/-! ### What the headers name -/

section Links

theorem names_ipv4Header (ip : Ipv4Header) {protocol : Nat} (bounded : protocol < 2 ^ 8) :
    Names (ip.header protocol bounded)
      (if ip.fragOffset ≠ 0 then none else ipProtoDispatch protocol) := by
  intro pkt off stands
  have read := Header.readField_eq stands
  have offset : readUint pkt off Ipv4Spec.fragOffset = ip.fragOffset :=
    FieldValue.uint.inj (readField_of_map read 7 rfl rfl)
  have named : readUint pkt off Ipv4Spec.protocol = protocol :=
    FieldValue.uint.inj (readField_of_map read 9 rfl rfl)
  have words : readUint pkt off Ipv4Spec.ihl = ip.ihl :=
    FieldValue.uint.inj (readField_of_map read 1 rfl rfl)
  constructor
  · show (if readUint pkt off Ipv4Spec.fragOffset ≠ 0 then none
      else ipProtoDispatch (readUint pkt off Ipv4Spec.protocol)) = _
    rw [offset, named]
  · have whole := ip.whole
    rw [after_eq, Header.length_encode]
    show off + max 20 (readUint pkt off Ipv4Spec.ihl * 4) =
      off + (specSize L2L3Node.ipv4.spec + ip.options.length)
    rw [words, specSize_ipv4]
    omega

/-- A transport header leads to SOME/IP through its ports. -/
theorem names_transport (t : Transport) :
    Names t.header (if t.l4.OnSomeipPort then some .someip else none) := by
  intro pkt off stands
  have fixed : StandsAt pkt off t.l4.header.encode := by
    have front : StandsAt pkt off
        (encodeFields t.l4.header.node.spec t.l4.header.values ++ t.options) := stands
    have none : t.l4.header.body = [] := by cases t.l4 <;> rfl
    rw [Header.encode, none, List.append_nil]
    exact front.left
  constructor
  · exact follow_l4Header fixed
  · refine (after_l4Header fixed).trans ?_
    rw [t.whole, Header.length_encode]
    rfl

theorem names_someip (s : SomeipHeader) : Names s.header none := by
  intro pkt off stands
  constructor
  · rfl
  · rw [after_eq, Header.length_encode]
    rfl

end Links

/-! ### Frames -/

/-- The headers below a transport header: a first IPv4 fragment or a whole IPv4
packet, or an IPv6 header with extension headers. -/
inductive Network where
  | ipv4 (link : LinkLayer) (ip : Ipv4Header) (announced : link.ethertype = 0x0800)
      (first : ip.fragOffset = 0)
  | ipv6 (envelope : Ipv6Envelope) (exts : List ExtHeader)

def Network.headers (network : Network) (l4 : L4Header) : List Header :=
  match network with
  | .ipv4 link ip _ _ => link.headers ++ [ip.header l4.protocol l4.protocol_lt]
  | .ipv6 envelope exts => envelope.chain exts l4.protocol_lt

/-- The network headers name each other, and the transport header. -/
theorem Network.namedChain (network : Network) (l4 : L4Header) :
    NamedChain (network.headers l4) (some l4.header.node) := by
  cases network with
  | ipv4 link ip announced first =>
      apply NamedChain.append
      · have named := link.namedChain_headers
        rw [announced] at named
        exact named
      · have named : Names (ip.header l4.protocol l4.protocol_lt) _ :=
          names_ipv4Header ip l4.protocol_lt
        rw [first, if_neg (fun different => different rfl)] at named
        have carried : ipProtoDispatch l4.protocol = some l4.header.node := by
          cases l4 <;> rfl
        rw [carried] at named
        exact ⟨@named, trivial⟩
  | ipv6 envelope exts =>
      rw [← ip6NextDispatch_protocol]
      exact envelope.namedChain_chain exts l4.protocol_lt

/-- A chain whose end is no transport header leads to the fragment it ends with, or to
nothing. -/
theorem ChainEnd.firstNode_headers (ending : ChainEnd) (stops : ending.protocol ∉ [6, 17]) :
    firstNode ending.headers none = ip6NextDispatch ending.protocol := by
  cases ending with
  | upper protocol bounded other =>
      have unknown : protocol ∉ [0, 43, 44, 51, 60] ∧ protocol ∉ [6, 17] := ⟨other, stops⟩
      simp only [List.mem_cons, List.not_mem_nil, or_false, not_or] at unknown
      simp [ChainEnd.headers, ChainEnd.protocol, firstNode, ip6NextDispatch, matchEdges, unknown]
  | laterFragment => rfl

/-- What a transport header carries. -/
inductive Upper where
  | someip (header : SomeipHeader)
  | data

def Upper.headers : Upper → List Header
  | .someip header => [header.header]
  | .data => []

/-- A frame: a transport header with the SOME/IP header that its ports name, or an
IPv4 header or IPv6 chain whose payload is not read, being a later fragment or of
another protocol. -/
inductive L2L3Frame where
  | transport (network : Network) (header : Transport) (upper : Upper) (payload : Bytes)
      (ports : (upper = .data) ↔ ¬ header.l4.OnSomeipPort)
  | unread (link : LinkLayer) (ip : Ipv4Header) (protocol : Nat) (payload : Bytes)
      (announced : link.ethertype = 0x0800) (bounded : protocol < 2 ^ 8)
      (stops : ip.fragOffset ≠ 0 ∨ protocol ∉ [6, 17])
  | unreadIpv6 (envelope : Ipv6Envelope) (exts : List ExtHeader) (ending : ChainEnd)
      (payload : Bytes) (stops : ending.protocol ∉ [6, 17])

namespace L2L3Frame

def headers : L2L3Frame → List Header
  | transport network header upper _ _ =>
      network.headers header.l4 ++ header.header :: upper.headers
  | unread link ip protocol _ _ bounded _ => link.headers ++ [ip.header protocol bounded]
  | unreadIpv6 envelope exts ending _ _ =>
      envelope.chain exts ending.protocol_lt ++ ending.headers

def payload : L2L3Frame → Bytes
  | transport _ _ _ payload _ => payload
  | unread _ _ _ payload _ _ _ => payload
  | unreadIpv6 _ _ _ payload _ => payload

def bytes (frame : L2L3Frame) : Bytes := frame.headers.flatMap Header.encode ++ frame.payload

/-- The headers of a frame name each other, and nothing behind the last. -/
theorem namedChain (frame : L2L3Frame) : NamedChain frame.headers none := by
  cases frame with
  | transport network header upper payload ports =>
      have named : Names header.header (if header.l4.OnSomeipPort then some .someip else none) :=
        names_transport header
      refine NamedChain.append (network.namedChain header.l4) ?_
      cases upper with
      | someip someip =>
          have onPort : header.l4.OnSomeipPort :=
            Decidable.not_not.mp fun off => Upper.noConfusion (ports.mpr off)
          rw [if_pos onPort] at named
          exact ⟨@named, names_someip someip, trivial⟩
      | data =>
          rw [if_neg (ports.mp rfl)] at named
          exact ⟨@named, trivial⟩
  | unread link ip protocol payload announced bounded stops =>
      have lower := link.namedChain_headers
      rw [announced] at lower
      refine NamedChain.append lower ⟨?_, trivial⟩
      have named : Names (ip.header protocol bounded) _ := names_ipv4Header ip bounded
      have nothing : (if ip.fragOffset ≠ 0 then none else ipProtoDispatch protocol) = none := by
        split
        · rfl
        · next first =>
          have other := stops.resolve_left first
          simp only [List.mem_cons, List.not_mem_nil, or_false, not_or] at other
          simp [ipProtoDispatch, matchEdges, other.1, other.2]
      rw [nothing] at named
      exact @named
  | unreadIpv6 envelope exts ending payload stops =>
      have chain := envelope.namedChain_chain exts ending.protocol_lt
      rw [← ending.firstNode_headers stops] at chain
      exact NamedChain.append chain ending.namedChain_headers

theorem firstNode_headers (frame : L2L3Frame) :
    firstNode frame.headers none = some kEthRoot := by
  cases frame with
  | transport network => cases network <;> rfl
  | unread | unreadIpv6 => rfl

theorem stands (frame : L2L3Frame) :
    StandsAt frame.bytes 0 (frame.headers.flatMap Header.encode) :=
  ⟨[], frame.payload, (List.nil_append _).symm, rfl⟩

section Walk

variable {frame : L2L3Frame} (short : frame.headers.length ≤ kMaxWalkSteps)

include short

theorem walk_eq :
    walk l2l3 kEthRoot frame.bytes =
      ⟨headerVisits 0 frame.headers, (frame.headers.flatMap Header.encode).length,
        frame.headers.length⟩ := by
  obtain ⟨left, steps⟩ := Nat.exists_eq_add_of_le' short
  have walked := walkFrom_of_namedChain left frame.namedChain frame.stands
  rw [frame.firstNode_headers, ← steps, walkFrom_none] at walked
  dsimp only at walked
  rwa [List.append_nil, Nat.zero_add, Nat.zero_add] at walked

theorem visits_eq : (walk l2l3 kEthRoot frame.bytes).visits = headerVisits 0 frame.headers :=
  congrArg Walk.visits (walk_eq short)

theorem decode_eq (packetId : Nat) (tabs : DagTables l2l3) (col : DagColumn l2l3) :
    dagDecodePacket l2l3 kEthRoot packetId frame.bytes tabs col =
      tabs col ++ cellsOf col (frame.headers.map (headerRow packetId)) := by
  have decoded : dagDecodePacket l2l3 kEthRoot packetId frame.bytes tabs =
      tabs.appendAll ((walk l2l3 kEthRoot frame.bytes).visits.map (dagRow packetId frame.bytes)) :=
    dagDecodePacket_eq (G := l2l3) kEthRoot ⟨frame.bytes, packetId⟩ tabs
  rw [decoded, Store.appendAll_apply, visits_eq short,
    cellsOf_headerVisits packetId frame.headers frame.stands]

end Walk

end L2L3Frame

/-- A walk visits exactly the headers that a frame was built from, each behind the one
before it, ends at the payload, and fills the tables with the values of the headers. -/
theorem walk_frame (frame : L2L3Frame) (short : frame.headers.length ≤ kMaxWalkSteps) :
    walk l2l3 kEthRoot frame.bytes =
        ⟨headerVisits 0 frame.headers, (frame.headers.flatMap Header.encode).length,
          frame.headers.length⟩ ∧
      ∀ (packetId : Nat) (tabs : DagTables l2l3) (col : DagColumn l2l3),
        dagDecodePacket l2l3 kEthRoot packetId frame.bytes tabs col =
          tabs col ++ cellsOf col (frame.headers.map (headerRow packetId)) :=
  ⟨L2L3Frame.walk_eq short, L2L3Frame.decode_eq short⟩

/-- A SOME/IP message over UDP and an IPv4 header with four bytes of options, and the
second fragment of an IPv6 packet. -/
theorem walk_frame_someip :
    (∃ frame : L2L3Frame, frame.headers.map Header.node = [.eth, .ipv4, .udp, .someip] ∧
      walk l2l3 kEthRoot frame.bytes =
        ⟨[(.eth, 0), (.ipv4, 14), (.udp, 38), (.someip, 46)], 62, 4⟩) ∧
      ∃ frame : L2L3Frame, frame.headers.map Header.node = [.eth, .ipv6, .ipv6Fragment] ∧
        walk l2l3 kEthRoot frame.bytes =
          ⟨[(.eth, 0), (.ipv6, 14), (.ipv6Fragment, 54)], 62, 3⟩ := by
  let link : LinkLayer := ⟨List.replicate 6 1, List.replicate 6 2, [], 0x0800, rfl, rfl, by decide⟩
  let ip : Ipv4Header :=
    ⟨4, 6, 0, 0, 58, 7, 2, 0, 64, 0, [10, 0, 0, 1], [10, 0, 0, 2], [148, 4, 0, 0], by decide,
      by decide, by decide, by decide, by decide, by decide, by decide, by decide, by decide,
      by decide, rfl, rfl, rfl⟩
  let udp : Transport := ⟨.udp 30490 30490 34 0 (by decide), [], by decide⟩
  let someip : SomeipHeader :=
    ⟨0xFFFF, 0x8100, 18, 0, 1, 1, 1, 2, 0, by decide, by decide, by decide, by decide, by decide,
      by decide, by decide, by decide, by decide⟩
  let message : L2L3Frame := .transport (.ipv4 link ip rfl rfl) udp (.someip someip) [0xC0, 0]
    ⟨nofun, fun off => absurd (.inl rfl) off⟩
  let untagged : LinkLayer := { link with ethertype := 0x86DD, ethertype_lt := by decide }
  let envelope : Ipv6Envelope := { tunnelEnvelope with link := untagged, announced := rfl }
  let fragment : L2L3Frame :=
    .unreadIpv6 envelope [] (.laterFragment 17 0 1 0 0 99 (by decide) (by decide))
      (List.replicate 10 0) (by decide)
  constructor
  · refine ⟨message, rfl, (walk_frame message (by decide)).1.trans ?_⟩
    decide +kernel
  · refine ⟨fragment, rfl, (walk_frame fragment (by decide)).1.trans ?_⟩
    decide +kernel

end Nanotins.SpecDag
