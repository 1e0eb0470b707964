import Nanotins.ProtocolDecode.Window

/-!
Contract: the layered decoder, one call per layer on the span behind the last.

Owns: `subspan`, `decode_l2`, `decode_l3` and `decode_l4`, running them one after
another, and that such a run appends the rows of `decode_packet` and ends where
the walk does (`decodeStaged_eq`).

Does not own: which headers a packet has.
-/

namespace Nanotins.ProtocolDecode

open Nanotins.Library

/-! ### The layers -/

/-- The bytes from `off` on; nothing when `off` lies past the end. -/
def subspan (bytes : Bytes) (off : Nat) : Bytes :=
  if off ≤ bytes.length then bytes.drop off else []

/-- What the step of a layer leaves: its return value, the columns, and the two
out-parameters, which start at zero. -/
structure LayerStep where
  ok : Bool
  out : DecodedPdus
  consumed : Nat := 0
  next : Nat := 0

/-- The VLAN loop of `decode_l2`. -/
def decodeVlans (packetId : Nat) (bytes : Bytes) (off ethertype : Nat) (out : DecodedPdus) :
    LayerStep :=
  if ethertype = kEtherTypeVlan ∨ ethertype = kEtherTypeQinQ then
    match _copied : overlay bytes off .vlan with
    | none => { ok := false, out }
    | some tag =>
        decodeVlans packetId bytes (off + 4) (VlanTag.innerEthertype tag)
          (PduColumn.add out .vlan packetId tag)
  else { ok := true, out, consumed := off, next := ethertype }
termination_by bytes.length - off
decreasing_by
  have := le_of_overlay _copied
  simp only [PduType.size] at this
  omega

def decodeL2 (packetId linkType : Nat) (bytes : Bytes) (out : DecodedPdus) : LayerStep :=
  if linkType ≠ kLinkTypeEthernet then { ok := false, out }
  else
    match overlay bytes 0 .ethernet with
    | none => { ok := false, out }
    | some eth =>
        decodeVlans packetId bytes 14 (Ethernet.ethertype eth)
          (PduColumn.add out .ethernet packetId eth)

/-- A later fragment reports the protocol 0, which no transport layer has. -/
def decodeL3 (packetId ethertype : Nat) (bytes : Bytes) (out : DecodedPdus) : LayerStep :=
  if ethertype = kEtherTypeIpv4 then
    match overlay bytes 0 .ipv4 with
    | none => { ok := false, out }
    | some ip =>
        let hdr := Ipv4.headerLength ip
        let firstFragment : Bool := Ipv4.fragOffset ip = 0
        { ok := true
          out := PduColumn.add out .ipv4 packetId ip
          consumed := if 20 ≤ hdr then hdr else 20
          next := if firstFragment then Ipv4.protocol ip else 0 }
  else if ethertype = kEtherTypeIpv6 then
    match overlay bytes 0 .ipv6 with
    | none => { ok := false, out }
    | some ip =>
        { ok := true
          out := PduColumn.add out .ipv6 packetId ip
          consumed := 40
          next := Ipv6.nextHeader ip }
  else { ok := false, out }

def decodeL4 (packetId ipProto : Nat) (bytes : Bytes) (out : DecodedPdus) : LayerStep :=
  if ipProto = kIpProtoTcp then
    match overlay bytes 0 .tcp with
    | none => { ok := false, out }
    | some tcp =>
        let hdr := Tcp.headerLength tcp
        { ok := true
          out := PduColumn.add out .tcp packetId tcp
          consumed := if 20 ≤ hdr then hdr else 20
          next := packPorts (srcPort tcp) (dstPort tcp) }
  else if ipProto = kIpProtoUdp then
    match overlay bytes 0 .udp with
    | none => { ok := false, out }
    | some udp =>
        { ok := true
          out := PduColumn.add out .udp packetId udp
          consumed := 8
          next := packPorts (srcPort udp) (dstPort udp) }
  else { ok := false, out }

/-! ### A staged run -/

/-- The out-parameters of a run whose last layer returned true. -/
structure StagedL4 where
  consumed2 : Nat
  consumed3 : Nat
  consumed4 : Nat
  nextDisc : Nat
deriving DecidableEq, Repr

/-- The columns that a run leaves, and what it reports when every layer decodes. -/
structure StagedRun where
  out : DecodedPdus
  l4 : Option StagedL4 := none

/-- Each layer on the bytes behind the last, up to the first that returns false. -/
def decodeStaged (packetId linkType : Nat) (pkt : Bytes) (out : DecodedPdus) : StagedRun :=
  let l2 := decodeL2 packetId linkType pkt out
  if l2.ok = false then { out := l2.out }
  else
    let afterL2 := subspan pkt l2.consumed
    let l3 := decodeL3 packetId l2.next afterL2 l2.out
    if l3.ok = false then { out := l3.out }
    else
      let l4 := decodeL4 packetId l3.next (subspan afterL2 l3.consumed) l3.out
      if l4.ok = false then { out := l4.out }
      else { out := l4.out, l4 := some ⟨l2.consumed, l3.consumed, l4.consumed, l4.next⟩ }

/-! ### Layers and the walk -/

/-- Append the rows of the headers in order. -/
def addPdus (packetId : Nat) (pdus : List Pdu) (out : DecodedPdus) : DecodedPdus :=
  pdus.foldl (fun out pdu => PduColumn.add out pdu.type packetId pdu.bytes) out

section Layers

variable {packetId linkType off start ethertype ipProto : Nat} {pkt : Bytes} {out : DecodedPdus}

theorem addPdus_append (packetId : Nat) (first second : List Pdu) (out : DecodedPdus) :
    addPdus packetId (first ++ second) out = addPdus packetId second (addPdus packetId first out) :=
  List.foldl_append

theorem subspan_of_le {bytes : Bytes} (inside : off ≤ bytes.length) :
    subspan bytes off = bytes.drop off :=
  if_pos inside

theorem subspan_of_lt {bytes : Bytes} (past : bytes.length < off) : subspan bytes off = [] :=
  if_neg (Nat.not_le.mpr past)

/-- The transport layer decodes what the walk emits there, and measures it from
its own first byte. -/
theorem decodeL4_eq (packetId ipProto start : Nat) (pkt : Bytes) (out : DecodedPdus) :
    decodeL4 packetId ipProto (pkt.drop start) out =
      { ok := (walkTransport pkt start ipProto).2.reachedL4
        out := addPdus packetId (walkTransport pkt start ipProto).1 out
        consumed := (walkTransport pkt start ipProto).2.l4PayloadOffset - start
        next := (walkTransport pkt start ipProto).2.l4Ports } := by
  unfold decodeL4 walkTransport
  by_cases tcp : ipProto = kIpProtoTcp
  · rw [if_pos tcp, if_pos tcp]
    cases overlay (pkt.drop start) 0 .tcp with
    | none => simp [addPdus]
    | some header => simp [addPdus]
  · rw [if_neg tcp, if_neg tcp]
    by_cases udp : ipProto = kIpProtoUdp
    · rw [if_pos udp, if_pos udp]
      cases overlay (pkt.drop start) 0 .udp with
      | none => simp [addPdus]
      | some header => simp [addPdus]
    · rw [if_neg udp, if_neg udp]
      simp [addPdus]

/-- No transport header is decoded from no bytes. -/
theorem decodeL4_nil (packetId ipProto : Nat) (out : DecodedPdus) :
    decodeL4 packetId ipProto [] out = { ok := false, out } := by
  have cut : ∀ type, overlay [] 0 type = none := by
    intro type
    cases type <;> rfl
  unfold decodeL4
  rw [cut, cut]
  simp

/-- The protocol 0 is no transport protocol. -/
theorem decodeL4_zero (packetId : Nat) (bytes : Bytes) (out : DecodedPdus) :
    decodeL4 packetId 0 bytes out = { ok := false, out } := by
  rw [decodeL4, if_neg (by decide), if_neg (by decide)]

/-- How the step of the network layer at `off` and the walk's network branch end
together. -/
inductive L3Handover (packetId off : Nat) (pkt : Bytes) (out : DecodedPdus) :
    LayerStep → NetworkWalk → Prop where
  | rejected : L3Handover packetId off pkt out { ok := false, out } ⟨[], none⟩
  | stops {pdu : Pdu} {consumed next : Nat}
      (undecoded : ∀ out, decodeL4 packetId next (subspan (pkt.drop off) consumed) out =
        { ok := false, out }) :
      L3Handover packetId off pkt out ⟨true, addPdus packetId [pdu] out, consumed, next⟩
        ⟨[pdu], none⟩
  | goesOn {pdu : Pdu} {consumed next : Nat} (inside : off + consumed ≤ pkt.length) :
      L3Handover packetId off pkt out ⟨true, addPdus packetId [pdu] out, consumed, next⟩
        ⟨[pdu], some (off + consumed, next)⟩

/-- Behind an IPv4 header the layers test for a fragment and for the end of the
packet in different ways. -/
theorem handover_of_header (pdu : Pdu) (l3 proto : Nat) (first : Bool)
    (inside : off ≤ pkt.length) :
    L3Handover packetId off pkt out
      ⟨true, addPdus packetId [pdu] out, l3, if first then proto else 0⟩
      ⟨[pdu],
        if (pkt.drop off).length < l3 ∨ first = false then none else some (off + l3, proto)⟩ := by
  cases first with
  | false =>
      simp only [Bool.false_eq_true, or_true, if_true, if_false]
      exact .stops (decodeL4_zero packetId _)
  | true =>
      simp only [Bool.true_eq_false, or_false, if_true]
      by_cases short : (pkt.drop off).length < l3
      · rw [if_pos short]
        apply L3Handover.stops
        rw [subspan_of_lt short]
        exact decodeL4_nil packetId _
      · rw [if_neg short]
        apply L3Handover.goesOn
        rw [List.length_drop] at short
        omega

theorem decodeL3_walk (packetId ethertype : Nat) (out : DecodedPdus) (inside : off ≤ pkt.length) :
    L3Handover packetId off pkt out (decodeL3 packetId ethertype (pkt.drop off) out)
      (walkNetwork pkt off ethertype) := by
  unfold decodeL3 walkNetwork
  rw [if_neg (Nat.not_lt.mpr inside)]
  by_cases ipv4 : ethertype = kEtherTypeIpv4
  · rw [if_pos ipv4, if_pos ipv4]
    cases overlay (pkt.drop off) 0 .ipv4 with
    | none => exact .rejected
    | some ip =>
        exact handover_of_header ⟨.ipv4, off, ip⟩ _ _ (decide (Ipv4.fragOffset ip = 0)) inside
  · rw [if_neg ipv4, if_neg ipv4]
    by_cases ipv6 : ethertype = kEtherTypeIpv6
    · rw [if_pos ipv6, if_pos ipv6]
      cases overlay (pkt.drop off) 0 .ipv6 with
      | none => exact .rejected
      | some ip =>
          have ended : L3Handover packetId off pkt out _ _ :=
            handover_of_header ⟨.ipv6, off, ip⟩ 40 (Ipv6.nextHeader ip) true inside
          simp only [Bool.true_eq_false, or_false, if_true] at ended
          exact ended
    · rw [if_neg ipv6, if_neg ipv6]
      exact .rejected

/-- How the link layer's step and the walk up to the transport layer end together. -/
inductive L2Handover (packetId : Nat) (pkt : Bytes) (out : DecodedPdus) :
    LayerStep → NetworkWalk → Prop where
  | stops (pdus : List Pdu) :
      L2Handover packetId pkt out { ok := false, out := addPdus packetId pdus out } ⟨pdus, none⟩
  | goesOn (pdus : List Pdu) {off ethertype : Nat} (inside : off ≤ pkt.length) :
      L2Handover packetId pkt out ⟨true, addPdus packetId pdus out, off, ethertype⟩
        ⟨pdus ++ (walkNetwork pkt off ethertype).pdus, (walkNetwork pkt off ethertype).transport⟩

/-- A header before both. -/
theorem L2Handover.cons {step : LayerStep} {network : NetworkWalk} (pdu : Pdu)
    (ended : L2Handover packetId pkt (PduColumn.add out pdu.type packetId pdu.bytes) step network) :
    L2Handover packetId pkt out step { network with pdus := pdu :: network.pdus } := by
  cases ended with
  | stops pdus => exact .stops (pdu :: pdus)
  | goesOn pdus inside => exact .goesOn (pdu :: pdus) inside

theorem decodeVlans_walk (inside : off ≤ pkt.length) :
    L2Handover packetId pkt out (decodeVlans packetId pkt off ethertype out)
      (walkEthertype pkt off ethertype) := by
  induction off, ethertype, out using decodeVlans.induct packetId pkt with
  | case1 off ethertype out isVlan cut =>
      rw [decodeVlans, if_pos isVlan, walkEthertype_of_cut isVlan cut]
      split
      · exact .stops []
      · next copied => rw [cut] at copied; contradiction
  | case2 off ethertype out isVlan tag copied inductionHypothesis =>
      rw [decodeVlans, if_pos isVlan, walkEthertype_of_tag isVlan copied]
      split
      · next cut => rw [copied] at cut; contradiction
      · next tag' copied' =>
        obtain rfl : tag = tag' := Option.some.inj (copied.symm.trans copied')
        exact .cons ⟨.vlan, off, tag⟩ (inductionHypothesis (le_of_overlay copied))
  | case3 off ethertype out notVlan =>
      rw [decodeVlans, if_neg notVlan, walkEthertype_of_not_vlan notVlan]
      exact .goesOn [] inside

theorem decodeL2_walk (packetId linkType : Nat) (pkt : Bytes) (out : DecodedPdus) :
    L2Handover packetId pkt out (decodeL2 packetId linkType pkt out)
      (walkToTransport linkType pkt) := by
  unfold decodeL2 walkToTransport
  by_cases other : linkType ≠ kLinkTypeEthernet
  · rw [if_pos other, if_pos other]
    exact .stops []
  · rw [if_neg other, if_neg other]
    cases copied : overlay pkt 0 .ethernet with
    | none => exact .stops []
    | some eth =>
        have inside : 0 + 14 ≤ pkt.length := le_of_overlay copied
        rw [Nat.zero_add] at inside
        exact .cons ⟨.ethernet, 0, eth⟩ (decodeVlans_walk inside)

end Layers

/-! ### The run -/

/-- A payload begins behind the first byte of its transport header. -/
theorem le_payloadOffset {pkt : Bytes} {start ipProto : Nat}
    (reached : (walkTransport pkt start ipProto).2.reachedL4 = true) :
    start ≤ (walkTransport pkt start ipProto).2.l4PayloadOffset := by
  unfold walkTransport at reached ⊢
  split_ifs at reached ⊢
  · cases copied : overlay (pkt.drop start) 0 .tcp with
    | none => simp [copied] at reached
    | some tcp => simp [copied]
  · cases copied : overlay (pkt.drop start) 0 .udp with
    | none => simp [copied] at reached
    | some udp => simp [copied]

/-- The layers one after another append the rows of the one-shot decode; the last
of them decodes exactly when the walk reaches a transport header, and then the
consumed lengths sum up to its payload offset. -/
theorem decodeStaged_eq (packetId linkType : Nat) (pkt : Bytes) (out : DecodedPdus) :
    (decodeStaged packetId linkType pkt out).out = decodePacket packetId linkType pkt out ∧
      ((decodeStaged packetId linkType pkt out).l4.isSome = true ↔
        (walkPacket linkType pkt).2.reachedL4 = true) ∧
      ∀ l4 ∈ (decodeStaged packetId linkType pkt out).l4,
        l4.consumed2 + l4.consumed3 + l4.consumed4 = (walkPacket linkType pkt).2.l4PayloadOffset ∧
          l4.nextDisc = (walkPacket linkType pkt).2.l4Ports := by
  have link := decodeL2_walk packetId linkType pkt out
  change (_ = addPdus packetId (walkPacket linkType pkt).1 out) ∧ _
  rw [decodeStaged, walkPacket]
  generalize decodeL2 packetId linkType pkt out = l2 at link ⊢
  generalize walkToTransport linkType pkt = network at link ⊢
  cases link with
  | stops pdus => simp
  | @goesOn pdus off ethertype inside =>
      have internet := decodeL3_walk packetId ethertype (addPdus packetId pdus out) inside
      dsimp only
      rw [if_neg (by simp), subspan_of_le inside]
      generalize decodeL3 packetId ethertype _ _ = l3 at internet ⊢
      generalize walkNetwork pkt off ethertype = walked at internet ⊢
      cases internet with
      | rejected => simp
      | stops undecoded =>
          dsimp only
          rw [if_neg (by simp), undecoded]
          simp [addPdus_append]
      | @goesOn pdu consumed next inside' =>
          dsimp only
          have short : consumed ≤ (pkt.drop off).length := by
            rw [List.length_drop]
            omega
          rw [if_neg (by simp), subspan_of_le short, List.drop_drop, decodeL4_eq, addPdus_append,
            addPdus_append]
          dsimp only
          cases reached : (walkTransport pkt (off + consumed) next).2.reachedL4 with
          | false => simp
          | true =>
              have behind := le_payloadOffset reached
              refine ⟨rfl, by simp, ?_⟩
              rintro l4 ⟨⟩
              refine ⟨?_, rfl⟩
              dsimp only
              omega

end Nanotins.ProtocolDecode
