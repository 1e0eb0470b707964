import Nanotins.Pcapng2json.Layers
import Nanotins.ProtocolDecode.Refinement
import Nanotins.SpecDag.Frames

/-!
Contract: the layers that are printed of a whole frame.

Owns: the layers a frame was built from, that the hand-written walk gives exactly
these, and where it ends and with which ports (`walkPacket_frame`).

Does not own: cut frames.
-/

namespace Nanotins.Pcapng2json

open Nanotins.Library Nanotins.Wire Nanotins.SpecDag Nanotins.ProtocolDecode

/-! ### Headers as overlays -/

/-- The fixed part of a header. -/
def fixedPart (header : Header) : Bytes := encodeFields header.node.spec header.values

theorem readField_fixedPart (header : Header) :
    header.node.spec.map (readField (fixedPart header) 0) = header.values := by
  have stands := StandsAt.mk [] (fixedPart header) []
  rw [List.nil_append, List.append_nil] at stands
  exact readField_encodeFields header.packed header.fits stands

section Overlay

variable {header : Header} {pkt : Bytes} {off : Nat} {type : PduType}

/-- The overlay where a header stands is its fixed part. -/
theorem overlay_header (same : header.node = type.node) (stands : StandsAt pkt off header.encode) :
    overlay pkt off type = some (fixedPart header) := by
  have fits : l2l3.Fits pkt off type.node := same ▸ Header.fits_at stands
  have size : (fixedPart header).length = type.size := by
    rw [fixedPart, length_encodeFields, same, specSize_node]
  have fixed : StandsAt pkt off (fixedPart header) := stands.left
  rw [overlay_eq, if_pos fits]
  obtain ⟨before, after, rfl, rfl⟩ := fixed
  rw [List.drop_left, ← size, List.take_left]

theorem overlay_header_drop (same : header.node = type.node)
    (stands : StandsAt pkt off header.encode) :
    overlay (pkt.drop off) 0 type = some (fixedPart header) := by
  rw [overlay_drop, overlay_header same stands]

end Overlay

section Fields

variable (off : Nat)

theorem ofPdu_eth (link : LinkLayer) :
    Ethernet.ethertype (fixedPart link.ethHeader) = outerEthertype link.ethertype link.tags ∧
      Layer.ofPdu ⟨.ethernet, off, fixedPart link.ethHeader⟩ =
        .ethernet link.dst link.src (outerEthertype link.ethertype link.tags) := by
  have read := readField_fixedPart link.ethHeader
  have dst : readBytes (fixedPart link.ethHeader) 0 6 = link.dst :=
    FieldValue.bytes.inj (readField_of_map read 0 rfl rfl)
  have src : readBytes (fixedPart link.ethHeader) 6 6 = link.src :=
    FieldValue.bytes.inj (readField_of_map read 1 rfl rfl)
  have ethertype : Ethernet.ethertype (fixedPart link.ethHeader) =
      outerEthertype link.ethertype link.tags :=
    FieldValue.uint.inj (readField_of_map read 2 rfl rfl)
  refine ⟨ethertype, ?_⟩
  dsimp only [Layer.ofPdu]
  rw [dst, src, ethertype]

theorem ofPdu_vlan (tag : VlanTag) {inner : Nat} (bounded : inner < 2 ^ 16) :
    VlanTag.innerEthertype (fixedPart (tag.header inner bounded)) = inner ∧
      Layer.ofPdu ⟨.vlan, off, fixedPart (tag.header inner bounded)⟩ = .vlan tag.vid inner := by
  have read := readField_fixedPart (tag.header inner bounded)
  have vid : readBig (fixedPart (tag.header inner bounded)) 0 2 / 2 ^ 0 % 2 ^ 12 = tag.vid :=
    FieldValue.uint.inj (readField_of_map read 2 rfl rfl)
  have announced : VlanTag.innerEthertype (fixedPart (tag.header inner bounded)) = inner :=
    FieldValue.uint.inj (readField_of_map read 3 rfl rfl)
  refine ⟨announced, ?_⟩
  rw [Nat.pow_zero, Nat.div_one] at vid
  dsimp only [Layer.ofPdu]
  rw [vid, announced]

theorem ofPdu_ipv4 (ip : Ipv4Header) {protocol : Nat} (bounded : protocol < 2 ^ 8) :
    Ipv4.headerLength (fixedPart (ip.header protocol bounded)) = ip.ihl * 4 ∧
      Ipv4.fragOffset (fixedPart (ip.header protocol bounded)) = ip.fragOffset ∧
      Ipv4.protocol (fixedPart (ip.header protocol bounded)) = protocol ∧
      Layer.ofPdu ⟨.ipv4, off, fixedPart (ip.header protocol bounded)⟩ =
        .ipv4 ip.src ip.dst protocol ip.ttl ip.totalLength := by
  have read := readField_fixedPart (ip.header protocol bounded)
  generalize fixedPart (ip.header protocol bounded) = fixed at read ⊢
  have ihl : readBig fixed 0 1 / 2 ^ 0 % 2 ^ 4 = ip.ihl :=
    FieldValue.uint.inj (readField_of_map read 1 rfl rfl)
  have totalLength : readBig fixed 2 2 = ip.totalLength :=
    FieldValue.uint.inj (readField_of_map read 4 rfl rfl)
  have fragOffset : readBig fixed 6 2 / 2 ^ 0 % 2 ^ 13 = ip.fragOffset :=
    FieldValue.uint.inj (readField_of_map read 7 rfl rfl)
  have ttl : readBig fixed 8 1 = ip.ttl := FieldValue.uint.inj (readField_of_map read 8 rfl rfl)
  have named : Ipv4.protocol fixed = protocol :=
    FieldValue.uint.inj (readField_of_map read 9 rfl rfl)
  have src : readBytes fixed 12 4 = ip.src :=
    FieldValue.bytes.inj (readField_of_map read 11 rfl rfl)
  have dst : readBytes fixed 16 4 = ip.dst :=
    FieldValue.bytes.inj (readField_of_map read 12 rfl rfl)
  rw [Nat.pow_zero, Nat.div_one] at ihl fragOffset
  refine ⟨congrArg (· * 4) ihl, fragOffset, named, ?_⟩
  dsimp only [Layer.ofPdu]
  rw [src, dst, named, ttl, totalLength]

theorem ofPdu_ipv6 (envelope : Ipv6Envelope) {next : Nat} (bounded : next < 2 ^ 8) :
    Ipv6.nextHeader (fixedPart (envelope.ipv6Header next bounded)) = next ∧
      Layer.ofPdu ⟨.ipv6, off, fixedPart (envelope.ipv6Header next bounded)⟩ =
        .ipv6 envelope.ipSrc envelope.ipDst next envelope.hopLimit := by
  have read := readField_fixedPart (envelope.ipv6Header next bounded)
  generalize fixedPart (envelope.ipv6Header next bounded) = fixed at read ⊢
  have named : Ipv6.nextHeader fixed = next :=
    FieldValue.uint.inj (readField_of_map read 4 rfl rfl)
  have hopLimit : readBig fixed 7 1 = envelope.hopLimit :=
    FieldValue.uint.inj (readField_of_map read 5 rfl rfl)
  have src : readBytes fixed 8 16 = envelope.ipSrc :=
    FieldValue.bytes.inj (readField_of_map read 6 rfl rfl)
  have dst : readBytes fixed 24 16 = envelope.ipDst :=
    FieldValue.bytes.inj (readField_of_map read 7 rfl rfl)
  refine ⟨named, ?_⟩
  dsimp only [Layer.ofPdu]
  rw [src, dst, named, hopLimit]

end Fields

/-! ### Transport layers -/

def transportLayer : L4Header → Layer
  | .tcp srcPort dstPort .. => .tcp srcPort dstPort
  | .udp srcPort dstPort .. => .udp srcPort dstPort

/-- The walk takes a transport header, with its ports and the length it declares. -/
theorem walkTransport_header {pkt : Bytes} {start : Nat} (t : Transport)
    (stands : StandsAt pkt start t.header.encode) :
    let walked := walkTransport pkt start t.l4.protocol
    walked.1.map Layer.ofPdu = [transportLayer t.l4] ∧
      walked.2 = ⟨start + t.l4.length, packPorts t.l4.srcPort t.l4.dstPort, true⟩ := by
  obtain ⟨l4, options, whole⟩ := t
  have read := readField_fixedPart (Transport.header ⟨l4, options, whole⟩)
  cases l4 with
  | tcp src dst seq ack dataOffset reserved flags window checksum urgentPtr b =>
      have copied : overlay (pkt.drop start) 0 .tcp = some (fixedPart _) :=
        overlay_header_drop rfl stands
      generalize fixedPart _ = fixed at read copied
      have srcRead : srcPort fixed = src := FieldValue.uint.inj (readField_of_map read 0 rfl rfl)
      have dstRead : dstPort fixed = dst := FieldValue.uint.inj (readField_of_map read 1 rfl rfl)
      have words : readBig fixed 12 2 / 2 ^ 12 % 2 ^ 4 = dataOffset :=
        FieldValue.uint.inj (readField_of_map read 4 rfl rfl)
      dsimp only [walkTransport, L4Header.protocol]
      rw [if_pos (by decide), copied]
      dsimp only
      rw [Tcp.headerLength, words, clamp_eq, srcRead, dstRead]
      refine ⟨?_, rfl⟩
      rw [List.map_singleton]
      dsimp only [Layer.ofPdu]
      rw [srcRead, dstRead]
      rfl
  | udp src dst length checksum b =>
      have copied : overlay (pkt.drop start) 0 .udp = some (fixedPart _) :=
        overlay_header_drop rfl stands
      generalize fixedPart _ = fixed at read copied
      have srcRead : srcPort fixed = src := FieldValue.uint.inj (readField_of_map read 0 rfl rfl)
      have dstRead : dstPort fixed = dst := FieldValue.uint.inj (readField_of_map read 1 rfl rfl)
      dsimp only [walkTransport, L4Header.protocol]
      rw [if_neg (by decide), if_pos (by decide), copied]
      dsimp only
      rw [srcRead, dstRead]
      refine ⟨?_, rfl⟩
      rw [List.map_singleton]
      dsimp only [Layer.ofPdu]
      rw [srcRead, dstRead]
      rfl

/-! ### Link layers -/

/-- The layers of VLAN tags before a payload of type `ethertype`. -/
def tagLayers (ethertype : Nat) : List VlanTag → List Layer
  | [] => []
  | tag :: tags => .vlan tag.vid (outerEthertype ethertype tags) :: tagLayers ethertype tags

def linkLayers (link : LinkLayer) : List Layer :=
  .ethernet link.dst link.src (outerEthertype link.ethertype link.tags) ::
    tagLayers link.ethertype link.tags

section Link

variable {pkt : Bytes} {off : Nat}

/-- The walk over VLAN tags goes on with the payload. -/
theorem walkEthertype_tags {ethertype : Nat} (bounded : ethertype < 2 ^ 16)
    (payload : ¬(ethertype = kEtherTypeVlan ∨ ethertype = kEtherTypeQinQ)) (tags : List VlanTag)
    (stands : StandsAt pkt off ((tagHeaders bounded tags).flatMap Header.encode)) :
    let walked := walkEthertype pkt off (outerEthertype ethertype tags)
    let rest := walkNetwork pkt (off + 4 * tags.length) ethertype
    walked.pdus.map Layer.ofPdu = tagLayers ethertype tags ++ rest.pdus.map Layer.ofPdu ∧
      walked.transport = rest.transport := by
  induction tags generalizing off with
  | nil =>
      dsimp only [outerEthertype]
      rw [walkEthertype_of_not_vlan payload]
      exact ⟨rfl, rfl⟩
  | cons tag tags inductionHypothesis =>
      rw [tagHeaders, List.flatMap_cons] at stands
      have bounded' := outerEthertype_lt bounded tags
      obtain ⟨announced, shown⟩ := ofPdu_vlan off tag bounded'
      have copied : overlay pkt off .vlan = some (fixedPart (tag.header _ bounded')) :=
        overlay_header rfl stands.left
      have later := stands.right
      rw [VlanTag.length_header] at later
      obtain ⟨pdus, transport⟩ := inductionHypothesis later
      have isVlan : tag.tpid = kEtherTypeVlan ∨ tag.tpid = kEtherTypeQinQ := tag.tpid_eq
      have place : off + 4 * (tag :: tags).length = off + 4 + 4 * tags.length := by
        rw [List.length_cons]
        omega
      dsimp only [outerEthertype]
      rw [walkEthertype_of_tag isVlan copied, announced, place]
      dsimp only
      rw [List.map_cons, shown, pdus, transport]
      exact ⟨rfl, rfl⟩

/-- The walk takes the link headers of a frame, and goes on with its payload. -/
theorem walkToTransport_link {link : LinkLayer}
    (payload : ¬(link.ethertype = kEtherTypeVlan ∨ link.ethertype = kEtherTypeQinQ))
    (stands : StandsAt pkt 0 (link.headers.flatMap Header.encode)) :
    let walked := walkToTransport kLinkTypeEthernet pkt
    let rest := walkNetwork pkt link.length link.ethertype
    walked.pdus.map Layer.ofPdu = linkLayers link ++ rest.pdus.map Layer.ofPdu ∧
      walked.transport = rest.transport := by
  rw [LinkLayer.headers, List.flatMap_cons] at stands
  obtain ⟨announced, shown⟩ := ofPdu_eth 0 link
  have copied : overlay pkt 0 .ethernet = some (fixedPart link.ethHeader) :=
    overlay_header rfl stands.left
  have tags := stands.right
  have width : 0 + link.ethHeader.encode.length = 14 := by
    rw [Header.length_encode]
    rfl
  rw [width] at tags
  obtain ⟨pdus, transport⟩ := walkEthertype_tags link.ethertype_lt payload link.tags tags
  rw [walkToTransport, if_neg (by decide), copied]
  dsimp only
  rw [announced, List.map_cons, shown, pdus, transport, linkLayers, LinkLayer.length]
  exact ⟨rfl, rfl⟩

end Link

/-! ### Network layers -/

section Network

variable {pkt : Bytes} {off : Nat}

theorem length_ipv4Header (ip : Ipv4Header) {protocol : Nat} (bounded : protocol < 2 ^ 8) :
    (ip.header protocol bounded).encode.length = 20 + ip.options.length := by
  rw [Header.length_encode]
  rfl

theorem length_ipv6Header (envelope : Ipv6Envelope) {next : Nat} (bounded : next < 2 ^ 8) :
    (envelope.ipv6Header next bounded).encode.length = 40 := by
  rw [Header.length_encode]
  rfl

/-- The walk takes an IPv4 header with its options, and goes on behind a first
fragment. -/
theorem walkNetwork_ipv4 (ip : Ipv4Header) {protocol : Nat} (bounded : protocol < 2 ^ 8)
    (stands : StandsAt pkt off (ip.header protocol bounded).encode) :
    let walked := walkNetwork pkt off kEtherTypeIpv4
    walked.pdus.map Layer.ofPdu = [.ipv4 ip.src ip.dst protocol ip.ttl ip.totalLength] ∧
      walked.transport =
        if ip.fragOffset ≠ 0 then none else some (off + (20 + ip.options.length), protocol) := by
  obtain ⟨length, offset, named, shown⟩ := ofPdu_ipv4 off ip bounded
  have copied : overlay (pkt.drop off) 0 .ipv4 = some (fixedPart (ip.header protocol bounded)) :=
    overlay_header_drop rfl stands
  have inside := stands.length_le
  rw [length_ipv4Header] at inside
  have whole := ip.whole
  rw [walkNetwork, if_neg (by omega), if_pos rfl]
  dsimp only
  rw [copied]
  dsimp only
  rw [length, offset, named, clamp_eq, List.map_singleton, shown, List.length_drop, ← whole]
  refine ⟨rfl, ?_⟩
  have uncut : 20 + ip.options.length ≤ pkt.length - off := by omega
  by_cases first : ip.fragOffset = 0
  · simp [first, uncut]
  · simp [first]

/-- The walk takes an IPv6 header, and goes on with what it names. -/
theorem walkNetwork_ipv6 (envelope : Ipv6Envelope) {next : Nat} (bounded : next < 2 ^ 8)
    (stands : StandsAt pkt off (envelope.ipv6Header next bounded).encode) :
    let walked := walkNetwork pkt off kEtherTypeIpv6
    walked.pdus.map Layer.ofPdu = [.ipv6 envelope.ipSrc envelope.ipDst next envelope.hopLimit] ∧
      walked.transport = some (off + 40, next) := by
  obtain ⟨named, shown⟩ := ofPdu_ipv6 off envelope bounded
  have copied : overlay (pkt.drop off) 0 .ipv6 =
      some (fixedPart (envelope.ipv6Header next bounded)) := overlay_header_drop rfl stands
  have inside := stands.length_le
  rw [length_ipv6Header] at inside
  rw [walkNetwork, if_neg (by omega), if_neg (by decide), if_pos rfl]
  dsimp only
  rw [copied]
  dsimp only
  rw [named, List.map_singleton, shown, List.length_drop, if_neg (by omega)]
  exact ⟨rfl, rfl⟩

end Network

/-! ### Frames -/

/-- The layers that a frame was built from.  What an extension header leads to is no
layer. -/
def frameLayers : L2L3Frame → List Layer
  | .transport (.ipv4 link ip _ _) t _ _ _ =>
      linkLayers link ++
        [.ipv4 ip.src ip.dst t.l4.protocol ip.ttl ip.totalLength, transportLayer t.l4]
  | .transport (.ipv6 envelope exts) t _ _ _ =>
      linkLayers envelope.link ++
        .ipv6 envelope.ipSrc envelope.ipDst (leadProtocol t.l4.protocol exts) envelope.hopLimit ::
          match exts with
          | [] => [transportLayer t.l4]
          | _ :: _ => []
  | .unread link ip protocol _ _ _ _ =>
      linkLayers link ++ [.ipv4 ip.src ip.dst protocol ip.ttl ip.totalLength]
  | .unreadIpv6 envelope exts ending _ _ =>
      linkLayers envelope.link ++
        [.ipv6 envelope.ipSrc envelope.ipDst (leadProtocol ending.protocol exts) envelope.hopLimit]

/-- What the walk of a frame returns. -/
def frameResult : L2L3Frame → WalkResult
  | .transport (.ipv4 link ip _ _) t _ _ _ =>
      ⟨link.length + (20 + ip.options.length) + t.l4.length,
        packPorts t.l4.srcPort t.l4.dstPort, true⟩
  | .transport (.ipv6 envelope []) t _ _ _ =>
      ⟨envelope.link.length + 40 + t.l4.length,
        packPorts t.l4.srcPort t.l4.dstPort, true⟩
  | .transport (.ipv6 _ (_ :: _)) .. => {}
  | .unread .. | .unreadIpv6 .. => {}

section Frame

variable {pkt : Bytes}

/-- A protocol that is neither TCP nor UDP gives no layer. -/
theorem walkTransport_other (start : Nat) {protocol : Nat} (other : protocol ∉ [6, 17]) :
    walkTransport pkt start protocol = ([], {}) := by
  simp only [List.mem_cons, List.not_mem_nil, or_false, not_or] at other
  have tcp : protocol ≠ kIpProtoTcp := other.1
  have udp : protocol ≠ kIpProtoUdp := other.2
  rw [walkTransport, if_neg tcp, if_neg udp]

/-- A walk over an IPv4 frame, up to what its IPv4 header leads to. -/
theorem walkToTransport_ipv4 {link : LinkLayer} {ip : Ipv4Header} {protocol : Nat}
    {bounded : protocol < 2 ^ 8} (announced : link.ethertype = kEtherTypeIpv4)
    (stands : StandsAt pkt 0
      ((link.headers ++ [ip.header protocol bounded]).flatMap Header.encode)) :
    let walked := walkToTransport kLinkTypeEthernet pkt
    walked.pdus.map Layer.ofPdu =
        linkLayers link ++ [.ipv4 ip.src ip.dst protocol ip.ttl ip.totalLength] ∧
      walked.transport =
        if ip.fragOffset ≠ 0 then none
        else some (link.length + (20 + ip.options.length), protocol) := by
  rw [List.flatMap_append, List.flatMap_singleton] at stands
  have network := stands.right
  rw [LinkLayer.length_encode, Nat.zero_add] at network
  obtain ⟨pdus, transport⟩ := walkToTransport_link (by rw [announced]; decide) stands.left
  obtain ⟨layer, goesOn⟩ := walkNetwork_ipv4 ip bounded network
  rw [announced] at pdus transport
  dsimp only
  rw [pdus, transport, layer, goesOn]
  exact ⟨rfl, rfl⟩

/-- A walk over an IPv6 frame, up to what its IPv6 header leads to. -/
theorem walkToTransport_ipv6 {envelope : Ipv6Envelope} {next : Nat} {bounded : next < 2 ^ 8}
    (stands : StandsAt pkt 0 ((envelope.headers next bounded).flatMap Header.encode)) :
    let walked := walkToTransport kLinkTypeEthernet pkt
    walked.pdus.map Layer.ofPdu =
        linkLayers envelope.link ++
          [.ipv6 envelope.ipSrc envelope.ipDst next envelope.hopLimit] ∧
      walked.transport = some (envelope.link.length + 40, next) := by
  rw [Ipv6Envelope.headers, List.flatMap_append, List.flatMap_singleton] at stands
  have network := stands.right
  rw [LinkLayer.length_encode, Nat.zero_add] at network
  obtain ⟨pdus, transport⟩ := walkToTransport_link (by rw [envelope.announced]; decide) stands.left
  obtain ⟨layer, goesOn⟩ := walkNetwork_ipv6 envelope bounded network
  rw [envelope.announced] at pdus transport
  dsimp only
  rw [pdus, transport]
  exact ⟨congrArg _ layer, goesOn⟩

/-- The walk of a packet from the walk up to the transport header. -/
theorem walkPacket_of_transport {start protocol : Nat}
    (goesOn : (walkToTransport kLinkTypeEthernet pkt).transport = some (start, protocol)) :
    walkPacket kLinkTypeEthernet pkt =
      ((walkToTransport kLinkTypeEthernet pkt).pdus ++ (walkTransport pkt start protocol).1,
        (walkTransport pkt start protocol).2) := by
  rw [walkPacket, goesOn]

end Frame

/-- An extension header is no transport header. -/
theorem leadProtocol_other {last : Nat} {exts : List ExtHeader}
    (stops : exts = [] → last ∉ [6, 17]) : leadProtocol last exts ∉ [6, 17] := by
  cases exts with
  | nil => exact stops rfl
  | cons ext exts => cases ext <;> simp [leadProtocol, ExtHeader.protocol]

/-- The hand-written walk gives exactly the layers that a frame was built from, ends
where its payload begins and returns its ports; of a frame without a transport
header behind the network header it returns that it reached none. -/
theorem walkPacket_frame (frame : L2L3Frame) :
    (walkPacket kLinkTypeEthernet frame.bytes).1.map Layer.ofPdu = frameLayers frame ∧
      (walkPacket kLinkTypeEthernet frame.bytes).2 = frameResult frame := by
  have stands := frame.stands
  cases frame with
  | transport network t upper payload ports =>
      rw [L2L3Frame.headers, List.flatMap_append, List.flatMap_cons] at stands
      have behind := stands.right.left
      rw [Nat.zero_add] at behind
      cases network with
      | ipv4 link ip announced first =>
          rw [Network.headers] at stands behind
          obtain ⟨pdus, transport⟩ := walkToTransport_ipv4 announced stands.left
          rw [if_neg (fun later => later first)] at transport
          rw [List.flatMap_append, List.flatMap_singleton, List.length_append,
            LinkLayer.length_encode, length_ipv4Header] at behind
          obtain ⟨layer, result⟩ := walkTransport_header t behind
          rw [walkPacket_of_transport transport]
          dsimp only
          rw [List.map_append, pdus, layer, result, frameLayers, frameResult, List.append_assoc]
          exact ⟨rfl, rfl⟩
      | ipv6 envelope exts =>
          rw [Network.headers, Ipv6Envelope.chain] at stands behind
          rw [List.flatMap_append] at stands
          obtain ⟨pdus, transport⟩ := walkToTransport_ipv6 stands.left.left
          rw [walkPacket_of_transport transport]
          dsimp only
          rw [List.map_append, pdus]
          cases exts with
          | nil =>
              rw [extHeaders, List.append_nil, Ipv6Envelope.headers, List.flatMap_append,
                List.flatMap_singleton, List.length_append, LinkLayer.length_encode,
                length_ipv6Header] at behind
              obtain ⟨layer, result⟩ := walkTransport_header t behind
              rw [leadProtocol, layer, result, frameLayers, frameResult, List.append_assoc]
              exact ⟨rfl, rfl⟩
          | cons ext exts =>
              have other : leadProtocol t.l4.protocol (ext :: exts) ∉ [6, 17] :=
                leadProtocol_other fun empty => absurd empty (List.cons_ne_nil ext exts)
              rw [walkTransport_other _ other, frameLayers, frameResult, List.map_nil,
                List.append_nil]
              exact ⟨rfl, rfl⟩
  | unread link ip protocol payload announced bounded stops =>
      obtain ⟨pdus, transport⟩ := walkToTransport_ipv4 announced stands
      by_cases first : ip.fragOffset = 0
      · have other := stops.resolve_left (fun later => later first)
        rw [if_neg (fun later => later first)] at transport
        rw [walkPacket_of_transport transport, walkTransport_other _ other]
        dsimp only
        rw [List.append_nil, pdus, frameLayers, frameResult]
        exact ⟨rfl, rfl⟩
      · rw [if_pos first] at transport
        rw [walkPacket, transport]
        dsimp only
        rw [pdus, frameLayers, frameResult]
        exact ⟨rfl, rfl⟩
  | unreadIpv6 envelope exts ending payload stops =>
      rw [L2L3Frame.headers, Ipv6Envelope.chain, List.append_assoc, List.flatMap_append] at stands
      obtain ⟨pdus, transport⟩ := walkToTransport_ipv6 stands.left
      have other : leadProtocol ending.protocol exts ∉ [6, 17] := leadProtocol_other fun _ => stops
      rw [walkPacket_of_transport transport, walkTransport_other _ other]
      dsimp only
      rw [List.append_nil, pdus, frameLayers, frameResult]
      exact ⟨rfl, rfl⟩

end Nanotins.Pcapng2json
