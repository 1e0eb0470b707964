import Nanotins.ProtocolDecode.Refinement

/-!
Contract: where the two traversals report that the payload starts.

Owns: exactly when `l4_payload_offset` and `consumed` lie in the packet.

Does not own: the agreement of the two.
-/

namespace Nanotins.ProtocolDecode

open Nanotins.Library Nanotins.Wire Nanotins.SpecDag

/-- Both reported boundaries lie in the packet. -/
structure BoundariesInside (linkType : Nat) (pkt : Bytes) : Prop where
  payload : (walkPacket linkType pkt).2.reachedL4 = true →
    (walkPacket linkType pkt).2.l4PayloadOffset ≤ pkt.length
  consumed : (walk l2l3 kEthRoot pkt).consumed ≤ pkt.length

/-- The lengths that the packet's headers declare end inside the packet: that of
a whole TCP header before which the hand-written walk stands, and those of the
headers in reach of the graph walk. -/
structure LengthsInside (linkType : Nat) (pkt : Bytes) : Prop where
  tcp : ∀ start, (walkToTransport linkType pkt).transport = some (start, kIpProtoTcp) →
    start + 20 ≤ pkt.length → start + declaredLength pkt start .tcp ≤ pkt.length
  chain : ∀ k node off, k < kMaxWalkSteps → HeaderAt l2l3 pkt kEthRoot 0 k node off →
    off + declaredLength pkt off node ≤ pkt.length

/-- The payload offset of the hand-written walk lies in the packet exactly when
the data offset of a TCP header does; no other branch can overshoot. -/
theorem payload_le_iff (linkType : Nat) (pkt : Bytes) :
    ((walkPacket linkType pkt).2.reachedL4 = true →
        (walkPacket linkType pkt).2.l4PayloadOffset ≤ pkt.length) ↔
      ∀ start, (walkToTransport linkType pkt).transport = some (start, kIpProtoTcp) →
        start + 20 ≤ pkt.length → start + declaredLength pkt start .tcp ≤ pkt.length := by
  constructor
  · intro inside start goesOn whole
    have fits : l2l3.Fits pkt start PduType.tcp.node := by
      change start + specSize L2L3Node.tcp.spec ≤ _
      rw [specSize_tcp]
      exact whole
    have reached : (walkTransport pkt start kIpProtoTcp).2.reachedL4 = true := by
      rw [walkTransport, overlay_drop, if_pos rfl, overlay_eq, if_pos fits]
    obtain ⟨type, header, proto, -, -, payload⟩ := walkTransport_reached reached
    rw [walkPacket_goesOn goesOn] at inside
    have bound := inside reached
    rw [payload] at bound
    rcases proto with ⟨rfl, -⟩ | ⟨-, other⟩
    · exact (after_le_iff fits).mp bound
    · exact absurd other (by decide)
  · intro lengths reached
    obtain ⟨start, ipProto, goesOn, reachedTransport⟩ := goesOn_of_reached reached
    obtain ⟨type, header, proto, fits, -, payload⟩ := walkTransport_reached reachedTransport
    rw [walkPacket_goesOn goesOn]
    dsimp only
    rw [payload]
    apply (after_le_iff fits).mpr
    rcases proto with ⟨rfl, rfl⟩ | ⟨rfl, -⟩
    · apply lengths start goesOn
      rw [← specSize_tcp]
      exact fits
    · exact fits

theorem boundariesInside_iff (linkType : Nat) (pkt : Bytes) :
    BoundariesInside linkType pkt ↔ LengthsInside linkType pkt := by
  constructor
  · rintro ⟨payload, consumed⟩
    exact ⟨(payload_le_iff linkType pkt).mp payload, (consumed_le_iff pkt).mp consumed⟩
  · rintro ⟨tcp, chain⟩
    exact ⟨(payload_le_iff linkType pkt).mpr tcp, (consumed_le_iff pkt).mpr chain⟩

/-- Ethernet, IPv4 and a TCP header of twenty bytes with data offset 15. -/
def longTcpPacket : Bytes :=
  List.replicate 12 0 ++ [0x08, 0x00] ++
    ([0x45] ++ List.replicate 8 0 ++ [6] ++ List.replicate 10 0) ++
    (List.replicate 12 0 ++ [0xF0] ++ List.replicate 7 0)

/-- Both boundaries of this packet of 54 bytes are 94. -/
theorem boundariesInside_fails :
    ¬ BoundariesInside kLinkTypeEthernet longTcpPacket ∧
      (walkPacket kLinkTypeEthernet longTcpPacket).2.reachedL4 = true ∧
      (walkPacket kLinkTypeEthernet longTcpPacket).2.l4PayloadOffset = 94 ∧
      (walk l2l3 kEthRoot longTcpPacket).consumed = 94 := by
  have consumed : (walk l2l3 kEthRoot longTcpPacket).consumed = 94 := by decide +kernel
  refine ⟨fun inside => ?_, by decide +kernel, by decide +kernel, consumed⟩
  have bound := inside.consumed
  rw [consumed] at bound
  exact absurd bound (by decide)

end Nanotins.ProtocolDecode
