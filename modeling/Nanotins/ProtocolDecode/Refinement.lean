import Nanotins.ProtocolDecode.WalkPacket
import Nanotins.SpecDag.Boundaries

/-!
Contract: the graph walk refines the hand-written decoder.

Owns: the lockstep of `walkPacket` with the walk over `L2L3Graph`, and the
refinement `walkPacket_refines`.

Does not own: where the payload boundaries lie, or what the decoders store.
-/

namespace Nanotins.ProtocolDecode

open Nanotins.Library Nanotins.Wire Nanotins.SpecDag

/-! ### Headers of both traversals -/

/-- The graph node for a PDU type. -/
def PduType.node : PduType → L2L3Node
  | .ethernet => .eth
  | .vlan => .vlan
  | .ipv4 => .ipv4
  | .ipv6 => .ipv6
  | .tcp => .tcp
  | .udp => .udp

/-- The six node types that the hand-written walk knows. -/
def isBase : L2L3Node → Bool
  | .eth | .vlan | .ipv4 | .ipv6 | .tcp | .udp => true
  | _ => false

def isTransport : L2L3Node → Bool
  | .tcp | .udp => true
  | _ => false

/-- Type and place of an emitted header. -/
def Pdu.place (pdu : Pdu) : L2L3Node × Nat := (pdu.type.node, pdu.offset)

def baseVisits (visits : List (L2L3Node × Nat)) : List (L2L3Node × Nat) :=
  visits.filter fun visit => isBase visit.1

theorem baseVisits_cons {visit : L2L3Node × Nat} (base : isBase visit.1 = true)
    (visits : List (L2L3Node × Nat)) :
    baseVisits (visit :: visits) = visit :: baseVisits visits :=
  List.filter_cons_of_pos base

theorem isBase_place (pdu : Pdu) : isBase pdu.place.1 = true := by
  obtain ⟨type, offset, bytes⟩ := pdu
  cases type <;> rfl

/-- The extension-header protocol numbers. -/
def isExtension (nextHeader : Nat) : Prop :=
  nextHeader = 0 ∨ nextHeader = 43 ∨ nextHeader = 44 ∨ nextHeader = 51 ∨ nextHeader = 60

/-- Some emitted IPv6 header is followed by an extension header. -/
def HasExtension (pdus : List Pdu) : Prop :=
  ∃ pdu ∈ pdus, pdu.type = .ipv6 ∧ isExtension (Ipv6.nextHeader pdu.bytes)

theorem specSize_node (type : PduType) : specSize type.node.spec = type.size := by
  cases type <;> decide

/-- The bytes of an overlay are the packet's. -/
theorem readBig_copy (pkt : Bytes) (off size : Nat) {k n : Nat} (inside : k + n ≤ size) :
    readBig ((pkt.drop off).take size) k n = readBig pkt (off + k) n := by
  apply readBig_congr
  intro i below
  rw [byteAt_take _ (by omega), byteAt_drop, Nat.add_assoc]

theorem overlay_drop (pkt : Bytes) (off : Nat) (type : PduType) :
    overlay (pkt.drop off) 0 type = overlay pkt off type := by
  have positive : 0 < type.size := by cases type <;> decide
  rw [overlay, overlay, List.length_drop, List.drop_zero, Nat.zero_add]
  by_cases cut : pkt.length < off + type.size
  · rw [if_pos cut, if_pos (by omega)]
  · rw [if_neg cut, if_neg (by omega)]

/-- An overlay succeeds exactly when the node of its type fits. -/
theorem overlay_eq (pkt : Bytes) (off : Nat) (type : PduType) :
    overlay pkt off type =
      if l2l3.Fits pkt off type.node then some ((pkt.drop off).take type.size) else none := by
  have fits : l2l3.Fits pkt off type.node ↔ off + type.size ≤ pkt.length := by
    rw [← specSize_node]
    exact Iff.rfl
  by_cases inside : off + type.size ≤ pkt.length
  · rw [overlay_of_le inside, if_pos (fits.mpr inside)]
  · rw [overlay_of_lt (Nat.not_le.mp inside), if_neg (mt fits.mp inside)]

section Fields

variable (pkt : Bytes) (off : Nat)

theorem Ipv4.headerLength_copy :
    Ipv4.headerLength ((pkt.drop off).take 20) = declaredLength pkt off .ipv4 := by
  rw [Ipv4.headerLength, readBig_copy _ _ _ (by omega)]
  change _ = readBig pkt (off + 0) 1 / 2 ^ 0 % 2 ^ 4 * 4
  rw [Nat.pow_zero, Nat.div_one]

theorem Ipv4.fragOffset_copy :
    Ipv4.fragOffset ((pkt.drop off).take 20) = readUint pkt off Ipv4Spec.fragOffset := by
  rw [Ipv4.fragOffset, readBig_copy _ _ _ (by omega)]
  change _ = readBig pkt (off + 6) 2 / 2 ^ 0 % 2 ^ 13
  rw [Nat.pow_zero, Nat.div_one]

theorem Ipv4.protocol_copy :
    Ipv4.protocol ((pkt.drop off).take 20) = readUint pkt off Ipv4Spec.protocol :=
  readBig_copy _ _ _ (by omega)

theorem Ipv6.nextHeader_copy :
    Ipv6.nextHeader ((pkt.drop off).take 40) = readUint pkt off Ipv6Spec.nextHeader :=
  readBig_copy _ _ _ (by omega)

theorem Tcp.headerLength_copy :
    Tcp.headerLength ((pkt.drop off).take 20) = declaredLength pkt off .tcp := by
  rw [Tcp.headerLength, readBig_copy _ _ _ (by omega)]
  rfl

theorem Ethernet.ethertype_copy :
    Ethernet.ethertype ((pkt.drop off).take 14) = readUint pkt off EthernetSpec.ethertype :=
  readBig_copy _ _ _ (by omega)

theorem VlanTag.innerEthertype_copy :
    VlanTag.innerEthertype ((pkt.drop off).take 4) =
      readUint pkt off VlanTagSpec.innerEthertype :=
  readBig_copy _ _ _ (by omega)

end Fields

/-- The fixed header is the lower bound of a clamped length. -/
theorem clamp_eq (hdr : Nat) : (if 20 ≤ hdr then hdr else 20) = max 20 hdr := by
  split <;> omega

/-! ### Dispatch tables -/

/-- Apart from the extension headers IPv6 dispatches as IPv4 does. -/
theorem ip6NextDispatch_eq {nextHeader : Nat} (plain : ¬ isExtension nextHeader) :
    ip6NextDispatch nextHeader = ipProtoDispatch nextHeader := by
  unfold isExtension at plain
  simp only [not_or] at plain
  obtain ⟨hopByHop, routing, fragment, ah, destOpt⟩ := plain
  simp [ip6NextDispatch, ipProtoDispatch, matchEdges, hopByHop, routing, fragment, ah, destOpt]

/-- Nodes from which the walk reaches none of the six base types. -/
def isSide : L2L3Node → Bool
  | .gptp | .ptpTimestampBody | .ptpTsPortBody | .ptpAnnounceBody | .ptpSignalingBody
  | .someip => true
  | _ => false

theorem isSide_follow {pkt : Bytes} {off : Nat} {node target : L2L3Node}
    (side : isSide node = true) (edge : l2l3.follow pkt off node = some target) :
    isSide target = true := by
  cases node with
  | gptp =>
      have member := matchEdges_mem edge
      simp only [List.mem_cons, Prod.mk.injEq, List.not_mem_nil, or_false] at member
      rcases member with h | h | h | h | h | h | h | h | h <;> rw [h.2] <;> rfl
  | ptpTimestampBody | ptpTsPortBody | ptpAnnounceBody | ptpSignalingBody | someip =>
      cases edge
  | eth | vlan | ipv4 | ipv6 | tcp | udp | ipv6HopByHop | ipv6Routing | ipv6Fragment
  | ipv6DestOpt | ipv6Ah => cases side

/-- A walk from a side node, or from nowhere, visits no base type. -/
theorem baseVisits_of_side {pkt : Bytes} {fuel off : Nat} {node : Option L2L3Node}
    (side : ∀ start, node = some start → isSide start = true) :
    baseVisits (walkFrom l2l3 pkt fuel node off).visits = [] := by
  have visited : ∀ visit ∈ (walkFrom l2l3 pkt fuel node off).visits, isSide visit.1 = true :=
    forall_mem_visits_walkFrom (fun _ _ _ sideNode edge => isSide_follow sideNode edge) side
  apply List.filter_eq_nil_iff.mpr
  intro visit member
  have sideVisit := visited visit member
  cases type : visit.1 <;> rw [type] at sideVisit <;> first | contradiction | decide

/-! ### Lockstep -/

/-- `pdus` and the base visits of a walk with `fuel` steps left agree. -/
structure Agree (fuel : Nat) (pdus : List Pdu) (visits : List (L2L3Node × Nat)) : Prop where
  initial : (pdus.map Pdu.place).take fuel <+: baseVisits visits
  equal : ¬ HasExtension pdus → (pdus.map Pdu.place).take fuel = baseVisits visits

namespace Agree

variable {fuel : Nat} {pdus : List Pdu} {visits : List (L2L3Node × Nat)}

theorem of_eq (same : (pdus.map Pdu.place).take fuel = baseVisits visits) :
    Agree fuel pdus visits :=
  ⟨same ▸ List.prefix_rfl, fun _ => same⟩

theorem zero (pdus : List Pdu) : Agree 0 pdus [] := of_eq rfl

theorem nil (empty : baseVisits visits = []) : Agree fuel [] visits :=
  of_eq (by rw [empty, List.map_nil, List.take_nil])

/-- Both traversals emit the same header. -/
theorem cons {pdu : Pdu} (agree : Agree fuel pdus visits) :
    Agree (fuel + 1) (pdu :: pdus) (pdu.place :: visits) := by
  have emitted := baseVisits_cons (isBase_place pdu) visits
  constructor
  · rw [List.map_cons, List.take_succ_cons, emitted]
    exact List.cons_prefix_cons.mpr ⟨rfl, agree.initial⟩
  · intro plain
    have plainTail : ¬ HasExtension pdus := by
      rintro ⟨later, member, extension⟩
      exact plain ⟨later, List.mem_cons_of_mem pdu member, extension⟩
    rw [List.map_cons, List.take_succ_cons, emitted, agree.equal plainTail]

/-- The hand-written walk stops at an IPv6 header with an extension. -/
theorem extension {pdu : Pdu} (ipv6 : pdu.type = .ipv6)
    (extension : isExtension (Ipv6.nextHeader pdu.bytes)) :
    Agree (fuel + 1) [pdu] (pdu.place :: visits) := by
  constructor
  · rw [List.map_singleton, List.take_succ_cons, List.take_nil,
      baseVisits_cons (isBase_place pdu)]
    exact List.cons_prefix_cons.mpr ⟨rfl, List.nil_prefix⟩
  · intro plain
    exact absurd ⟨pdu, List.mem_singleton_self pdu, ipv6, extension⟩ plain

end Agree

/-- All headers of a walk that stands at `network`. -/
def NetworkWalk.finish (pkt : Bytes) (network : NetworkWalk) : List Pdu :=
  match network.transport with
  | none => network.pdus
  | some (start, ipProto) => network.pdus ++ (walkTransport pkt start ipProto).1

theorem NetworkWalk.finish_cons (pkt : Bytes) (network : NetworkWalk) (pdu : Pdu) :
    NetworkWalk.finish pkt { network with pdus := pdu :: network.pdus } =
      pdu :: network.finish pkt := by
  obtain ⟨pdus, transport⟩ := network
  cases transport <;> rfl

/-- Both walks stand before the same header: either neither can take it, or both
emit it. -/
theorem agree_step {pkt : Bytes} {fuel off : Nat} (type : PduType) {pdus : Bytes → List Pdu}
    (taken : l2l3.Fits pkt off type.node → ∀ fuel,
      Agree fuel (pdus ((pkt.drop off).take type.size))
        (walkFrom l2l3 pkt fuel (l2l3.follow pkt off type.node)
          (l2l3.after pkt off type.node)).visits) :
    Agree fuel
      (match overlay pkt off type with
        | none => []
        | some header => ⟨type, off, header⟩ :: pdus header)
      (walkFrom l2l3 pkt fuel (some type.node) off).visits := by
  rw [overlay_eq]
  by_cases fits : l2l3.Fits pkt off type.node
  · rw [if_pos fits]
    cases fuel with
    | zero => exact Agree.zero _
    | succ fuel =>
        rw [walkFrom_of_fits fits]
        exact (taken fits fuel).cons
  · rw [if_neg fits, walkFrom_of_not_fits fits]
    exact Agree.nil rfl

theorem agree_transport (pkt : Bytes) (fuel start ipProto : Nat) :
    Agree fuel (walkTransport pkt start ipProto).1
      (walkFrom l2l3 pkt fuel (ipProtoDispatch ipProto) start).visits := by
  have leaf : ∀ type : PduType, isTransport type.node = true → ∀ target,
      l2l3.follow pkt start type.node = some target → isSide target = true := by
    intro type transport target edge
    cases type with
    | tcp | udp => rw [someipPortDispatch_eq edge]; rfl
    | ethernet | vlan | ipv4 | ipv6 => cases transport
  have step : ∀ type : PduType, isTransport type.node = true →
      Agree fuel
        (match overlay pkt start type with
          | none => []
          | some header => [⟨type, start, header⟩])
        (walkFrom l2l3 pkt fuel (some type.node) start).visits := by
    intro type transport
    apply agree_step type
    intro _ fuel
    exact Agree.nil (baseVisits_of_side (leaf type transport))
  rw [walkTransport, overlay_drop, overlay_drop]
  by_cases tcp : ipProto = kIpProtoTcp
  · subst tcp
    have agree := step .tcp rfl
    rw [if_pos rfl]
    cases copied : overlay pkt start .tcp with
    | none => rw [copied] at agree; exact agree
    | some header => rw [copied] at agree; exact agree
  · rw [if_neg tcp]
    by_cases udp : ipProto = kIpProtoUdp
    · subst udp
      have agree := step .udp rfl
      rw [if_pos rfl]
      cases copied : overlay pkt start .udp with
      | none => rw [copied] at agree; exact agree
      | some header => rw [copied] at agree; exact agree
    · have nowhere : ipProtoDispatch ipProto = none := by
        have tcp' : ¬ ipProto = 6 := tcp
        have udp' : ¬ ipProto = 17 := udp
        simp [ipProtoDispatch, matchEdges, tcp', udp']
      rw [if_neg udp, nowhere, walkFrom_none]
      exact Agree.nil rfl

/-- Behind the end of the packet no header fits. -/
theorem visits_of_past {pkt : Bytes} {fuel off : Nat} (node : Option L2L3Node)
    (past : pkt.length < off) : (walkFrom l2l3 pkt fuel node off).visits = [] := by
  cases node with
  | none => rw [walkFrom_none]
  | some start =>
      have cut : ¬ l2l3.Fits pkt off start := by
        change ¬ off + _ ≤ pkt.length
        omega
      rw [walkFrom_of_not_fits cut]

theorem agree_ipv4 (pkt : Bytes) (fuel off : Nat) (inside : off ≤ pkt.length) :
    Agree fuel ((walkNetwork pkt off kEtherTypeIpv4).finish pkt)
      (walkFrom l2l3 pkt fuel (some .ipv4) off).visits := by
  -- what the walk emits behind the IPv4 header
  let tail (ip : Bytes) : List Pdu :=
    let l3 := if 20 ≤ Ipv4.headerLength ip then Ipv4.headerLength ip else 20
    if (pkt.drop off).length < l3 ∨ (decide (Ipv4.fragOffset ip = 0)) = false then []
    else (walkTransport pkt (off + l3) (Ipv4.protocol ip)).1
  have agree : Agree fuel
      (match overlay pkt off .ipv4 with
        | none => []
        | some ip => ⟨.ipv4, off, ip⟩ :: tail ip)
      (walkFrom l2l3 pkt fuel (some .ipv4) off).visits := by
    apply agree_step .ipv4
    intro _ fuel
    have after : l2l3.after pkt off .ipv4 = off + max 20 (declaredLength pkt off .ipv4) :=
      after_eq .ipv4
    have follow : l2l3.follow pkt off .ipv4 =
        if readUint pkt off Ipv4Spec.fragOffset ≠ 0 then none
        else ipProtoDispatch (readUint pkt off Ipv4Spec.protocol) := rfl
    simp only [tail, PduType.size, PduType.node, Ipv4.headerLength_copy, Ipv4.fragOffset_copy,
      Ipv4.protocol_copy, clamp_eq, List.length_drop, decide_eq_false_iff_not]
    rw [after, follow]
    by_cases fragment : readUint pkt off Ipv4Spec.fragOffset = 0
    · rw [if_neg (not_not.mpr fragment)]
      by_cases past : pkt.length - off < max 20 (declaredLength pkt off .ipv4)
      · rw [if_pos (.inl past), visits_of_past _ (by omega)]
        exact Agree.nil rfl
      · rw [if_neg (by simp [past, fragment])]
        exact agree_transport pkt fuel _ _
    · rw [if_pos fragment, if_pos (.inr fragment), walkFrom_none]
      exact Agree.nil rfl
  unfold walkNetwork
  rw [if_neg (by omega)]
  dsimp only
  rw [if_pos rfl, overlay_drop]
  cases copied : overlay pkt off .ipv4 with
  | none => rw [copied] at agree; exact agree
  | some ip =>
      rw [copied] at agree
      dsimp only [NetworkWalk.finish, tail] at agree ⊢
      generalize (if 20 ≤ Ipv4.headerLength ip then Ipv4.headerLength ip else 20) = l3 at agree ⊢
      by_cases stopped : (pkt.drop off).length < l3 ∨ decide (Ipv4.fragOffset ip = 0) = false
      · rw [if_pos stopped] at agree ⊢
        exact agree
      · rw [if_neg stopped] at agree ⊢
        exact agree

theorem agree_ipv6 (pkt : Bytes) (fuel off : Nat) (inside : off ≤ pkt.length) :
    Agree fuel ((walkNetwork pkt off kEtherTypeIpv6).finish pkt)
      (walkFrom l2l3 pkt fuel (some PduType.ipv6.node) off).visits := by
  have size : specSize L2L3Node.ipv6.spec = 40 := by decide
  have network : walkNetwork pkt off kEtherTypeIpv6 =
      match overlay pkt off .ipv6 with
      | none => ⟨[], none⟩
      | some ip =>
          ⟨[⟨.ipv6, off, ip⟩],
            if (pkt.drop off).length < 40 then none else some (off + 40, Ipv6.nextHeader ip)⟩ := by
    rw [← overlay_drop]
    unfold walkNetwork
    rw [if_neg (by omega)]
    exact (if_neg (by decide)).trans (if_pos rfl)
  rw [network, overlay_eq]
  by_cases fits : l2l3.Fits pkt off PduType.ipv6.node
  · have long : off + 40 ≤ pkt.length := size ▸ fits
    have follow : l2l3.follow pkt off PduType.ipv6.node =
        ip6NextDispatch (readUint pkt off Ipv6Spec.nextHeader) := rfl
    rw [if_pos fits]
    simp only [PduType.size, Ipv6.nextHeader_copy, List.length_drop]
    rw [if_neg (by omega)]
    cases fuel with
    | zero => exact Agree.zero _
    | succ fuel =>
        rw [walkFrom_of_fits fits, follow]
        by_cases extension : isExtension (readUint pkt off Ipv6Spec.nextHeader)
        · have stops : (walkTransport pkt (off + 40)
              (readUint pkt off Ipv6Spec.nextHeader)).1 = [] := by
            rw [walkTransport, if_neg, if_neg]
            · unfold isExtension at extension
              rw [kIpProtoUdp]
              omega
            · unfold isExtension at extension
              rw [kIpProtoTcp]
              omega
          dsimp only [NetworkWalk.finish]
          rw [stops]
          apply Agree.extension rfl
          rw [Ipv6.nextHeader_copy]
          exact extension
        · rw [ip6NextDispatch_eq extension]
          exact (agree_transport pkt fuel (off + 40) _).cons
  · rw [if_neg fits, walkFrom_of_not_fits fits]
    exact Agree.nil rfl

theorem agree_network (pkt : Bytes) (fuel off ethertype : Nat)
    (notVlan : ¬ (ethertype = kEtherTypeVlan ∨ ethertype = kEtherTypeQinQ)) :
    Agree fuel ((walkNetwork pkt off ethertype).finish pkt)
      (walkFrom l2l3 pkt fuel (ethertypeDispatch ethertype) off).visits := by
  by_cases past : pkt.length < off
  · rw [walkNetwork, if_pos past, visits_of_past _ past]
    exact Agree.nil rfl
  · by_cases ipv4 : ethertype = kEtherTypeIpv4
    · subst ipv4
      exact agree_ipv4 pkt fuel off (Nat.not_lt.mp past)
    · by_cases ipv6 : ethertype = kEtherTypeIpv6
      · subst ipv6
        exact agree_ipv6 pkt fuel off (Nat.not_lt.mp past)
      · have nothing : (walkNetwork pkt off ethertype).finish pkt = [] := by
          rw [walkNetwork, if_neg past]
          dsimp only
          rw [if_neg ipv4, if_neg ipv6]
          rfl
        rw [nothing]
        apply Agree.nil
        apply baseVisits_of_side
        intro start edge
        have member := matchEdges_mem edge
        simp only [List.mem_cons, Prod.mk.injEq, List.not_mem_nil, or_false] at member
        rcases member with vlan | qinq | isIpv4 | isIpv6 | gptp
        · exact absurd (.inl vlan.1) notVlan
        · exact absurd (.inr qinq.1) notVlan
        · exact absurd isIpv4.1 ipv4
        · exact absurd isIpv6.1 ipv6
        · rw [gptp.2]
          rfl

theorem overlay_eq_some {pkt header : Bytes} {off : Nat} {type : PduType}
    (copied : overlay pkt off type = some header) :
    l2l3.Fits pkt off type.node ∧ header = (pkt.drop off).take type.size := by
  rw [overlay_eq] at copied
  split at copied
  next fits => exact ⟨fits, (Option.some.inj copied).symm⟩
  · contradiction

theorem ethertypeDispatch_vlan {ethertype : Nat}
    (isVlan : ethertype = kEtherTypeVlan ∨ ethertype = kEtherTypeQinQ) :
    ethertypeDispatch ethertype = some PduType.vlan.node := by
  rcases isVlan with rfl | rfl <;> decide

/-- From the VLAN loop on, by induction on the tags. -/
theorem agree_ethertype (pkt : Bytes) (fuel off ethertype : Nat) :
    Agree fuel ((walkEthertype pkt off ethertype).finish pkt)
      (walkFrom l2l3 pkt fuel (ethertypeDispatch ethertype) off).visits := by
  induction off, ethertype using walkEthertype.induct pkt generalizing fuel with
  | case1 off ethertype isVlan copied =>
      have cut : ¬ l2l3.Fits pkt off PduType.vlan.node := by
        intro fits
        rw [overlay_eq, if_pos fits] at copied
        contradiction
      rw [walkEthertype_of_cut isVlan copied, ethertypeDispatch_vlan isVlan,
        walkFrom_of_not_fits cut]
      exact Agree.nil rfl
  | case2 off ethertype isVlan tag copied inductionHypothesis =>
      obtain ⟨fits, rfl⟩ := overlay_eq_some copied
      have inner : VlanTag.innerEthertype ((pkt.drop off).take PduType.vlan.size) =
          readUint pkt off VlanTagSpec.innerEthertype := VlanTag.innerEthertype_copy pkt off
      rw [walkEthertype_of_tag isVlan copied, ethertypeDispatch_vlan isVlan,
        NetworkWalk.finish_cons]
      cases fuel with
      | zero => exact Agree.zero _
      | succ fuel =>
          rw [walkFrom_of_fits fits]
          have tail := inductionHypothesis fuel
          rw [inner] at tail ⊢
          exact tail.cons
  | case3 off ethertype notVlan =>
      rw [walkEthertype_of_not_vlan notVlan]
      exact agree_network pkt fuel off ethertype notVlan

theorem walkPacket_fst (linkType : Nat) (pkt : Bytes) :
    (walkPacket linkType pkt).1 = (walkToTransport linkType pkt).finish pkt := by
  unfold walkPacket NetworkWalk.finish
  dsimp only
  cases (walkToTransport linkType pkt).transport <;> rfl

/-- The whole traversal, from the Ethernet header. -/
theorem agree_walkPacket (pkt : Bytes) :
    Agree kMaxWalkSteps (walkPacket kLinkTypeEthernet pkt).1 (walk l2l3 kEthRoot pkt).visits := by
  have step : Agree kMaxWalkSteps
      (match overlay pkt 0 .ethernet with
        | none => []
        | some eth => ⟨.ethernet, 0, eth⟩ ::
            (walkEthertype pkt 14 (Ethernet.ethertype eth)).finish pkt)
      (walk l2l3 kEthRoot pkt).visits := by
    apply agree_step .ethernet
    intro _ fuel
    have after : l2l3.after pkt 0 PduType.ethernet.node = 14 := rfl
    have follow : l2l3.follow pkt 0 PduType.ethernet.node =
        ethertypeDispatch (readUint pkt 0 EthernetSpec.ethertype) := rfl
    have type : Ethernet.ethertype ((pkt.drop 0).take PduType.ethernet.size) =
        readUint pkt 0 EthernetSpec.ethertype := Ethernet.ethertype_copy pkt 0
    rw [after, follow, type]
    exact agree_ethertype pkt fuel 14 _
  rw [walkPacket_fst, walkToTransport, if_neg (by decide)]
  cases copied : overlay pkt 0 .ethernet with
  | none => rw [copied] at step; exact step
  | some eth =>
      rw [copied] at step
      rw [NetworkWalk.finish_cons]
      exact step

/-! ### The payload offset -/

/-- The network branch goes on behind one IP header; behind an IPv6 header with
the header's own `next_header`. -/
theorem walkNetwork_goesOn {pkt : Bytes} {off ethertype start ipProto : Nat}
    (goesOn : (walkNetwork pkt off ethertype).transport = some (start, ipProto)) :
    ∀ pdu ∈ (walkNetwork pkt off ethertype).pdus, pdu.type = .ipv6 →
      Ipv6.nextHeader pdu.bytes = ipProto := by
  unfold walkNetwork at goesOn ⊢
  split at goesOn
  · contradiction
  next inside =>
    rw [if_neg inside]
    dsimp only at goesOn ⊢
    split at goesOn
    next ipv4 =>
      rw [if_pos ipv4]
      cases overlay (pkt.drop off) 0 .ipv4 with
      | none => simp
      | some ip => simp
    next notIpv4 =>
      rw [if_neg notIpv4]
      split at goesOn
      next ipv6 =>
        rw [if_pos ipv6]
        cases copied : overlay (pkt.drop off) 0 .ipv6 with
        | none => simp
        | some ip =>
            rw [copied] at goesOn
            dsimp only at goesOn
            split at goesOn
            · contradiction
            · cases goesOn
              intro pdu member _
              rw [List.mem_singleton.mp member]
      · contradiction

theorem walkEthertype_goesOn {pkt : Bytes} {off ethertype start ipProto : Nat}
    (goesOn : (walkEthertype pkt off ethertype).transport = some (start, ipProto)) :
    ∀ pdu ∈ (walkEthertype pkt off ethertype).pdus, pdu.type = .ipv6 →
      Ipv6.nextHeader pdu.bytes = ipProto := by
  induction off, ethertype using walkEthertype.induct pkt with
  | case1 off ethertype isVlan cut =>
      rw [walkEthertype_of_cut isVlan cut] at goesOn
      contradiction
  | case2 off ethertype isVlan tag copied inductionHypothesis =>
      rw [walkEthertype_of_tag isVlan copied] at goesOn ⊢
      intro pdu member ipv6
      rcases List.mem_cons.mp member with rfl | later
      · contradiction
      · exact inductionHypothesis goesOn pdu later ipv6
  | case3 off ethertype notVlan =>
      rw [walkEthertype_of_not_vlan notVlan] at goesOn ⊢
      exact walkNetwork_goesOn goesOn

theorem walkToTransport_goesOn {linkType : Nat} {pkt : Bytes} {start ipProto : Nat}
    (goesOn : (walkToTransport linkType pkt).transport = some (start, ipProto)) :
    ∀ pdu ∈ (walkToTransport linkType pkt).pdus, pdu.type = .ipv6 →
      Ipv6.nextHeader pdu.bytes = ipProto := by
  unfold walkToTransport at goesOn ⊢
  split at goesOn
  · contradiction
  next ethernet =>
    rw [if_neg ethernet]
    cases copied : overlay pkt 0 .ethernet with
    | none => rw [copied] at goesOn; contradiction
    | some eth =>
        rw [copied] at goesOn
        intro pdu member ipv6
        rcases List.mem_cons.mp member with rfl | later
        · contradiction
        · exact walkEthertype_goesOn goesOn pdu later ipv6

/-- When the transport branch reaches L4 it emits one whole TCP or UDP header
and reports the offset behind it. -/
theorem walkTransport_reached {pkt : Bytes} {start ipProto : Nat}
    (reached : (walkTransport pkt start ipProto).2.reachedL4 = true) :
    ∃ type header, (type = PduType.tcp ∧ ipProto = kIpProtoTcp ∨
        type = PduType.udp ∧ ipProto = kIpProtoUdp) ∧
      l2l3.Fits pkt start type.node ∧
      (walkTransport pkt start ipProto).1 = [⟨type, start, header⟩] ∧
      (walkTransport pkt start ipProto).2.l4PayloadOffset = l2l3.after pkt start type.node := by
  rw [walkTransport, overlay_drop, overlay_drop] at reached ⊢
  by_cases tcp : ipProto = kIpProtoTcp
  · simp only [if_pos tcp] at reached ⊢
    cases copied : overlay pkt start .tcp with
    | none => rw [copied] at reached; contradiction
    | some header =>
        obtain ⟨fits, rfl⟩ := overlay_eq_some copied
        refine ⟨.tcp, _, .inl ⟨rfl, tcp⟩, fits, rfl, ?_⟩
        have length : Tcp.headerLength ((pkt.drop start).take PduType.tcp.size) =
            declaredLength pkt start .tcp := Tcp.headerLength_copy pkt start
        dsimp only
        rw [length, clamp_eq]
        exact (after_eq .tcp).symm
  · simp only [if_neg tcp] at reached ⊢
    by_cases udp : ipProto = kIpProtoUdp
    · simp only [if_pos udp] at reached ⊢
      cases copied : overlay pkt start .udp with
      | none => rw [copied] at reached; contradiction
      | some header =>
          obtain ⟨fits, rfl⟩ := overlay_eq_some copied
          exact ⟨.udp, _, .inr ⟨rfl, udp⟩, fits, rfl, rfl⟩
    · simp only [if_neg udp] at reached
      contradiction

theorem walkPacket_goesOn {linkType : Nat} {pkt : Bytes} {start ipProto : Nat}
    (goesOn : (walkToTransport linkType pkt).transport = some (start, ipProto)) :
    walkPacket linkType pkt =
      ((walkToTransport linkType pkt).pdus ++ (walkTransport pkt start ipProto).1,
        (walkTransport pkt start ipProto).2) := by
  rw [walkPacket]
  dsimp only
  rw [goesOn]

/-- A walk that reaches L4 went through the transport branch. -/
theorem goesOn_of_reached {linkType : Nat} {pkt : Bytes}
    (reached : (walkPacket linkType pkt).2.reachedL4 = true) :
    ∃ start ipProto, (walkToTransport linkType pkt).transport = some (start, ipProto) ∧
      (walkTransport pkt start ipProto).2.reachedL4 = true := by
  cases goesOn : (walkToTransport linkType pkt).transport with
  | none =>
      rw [walkPacket] at reached
      dsimp only at reached
      rw [goesOn] at reached
      contradiction
  | some state =>
      obtain ⟨start, ipProto⟩ := state
      rw [walkPacket_goesOn goesOn] at reached
      exact ⟨start, ipProto, rfl, reached⟩

/-- The headers that `walk_packet` emits are, up to the step bound, the base
headers that the graph walk visits, except behind an IPv6 header that is
followed by an extension header; and its payload offset is where the graph walk
leaves the last transport header. -/
structure Refines (pkt : Bytes) : Prop where
  initial : ((walkPacket kLinkTypeEthernet pkt).1.map Pdu.place).take kMaxWalkSteps <+:
    baseVisits (walk l2l3 kEthRoot pkt).visits
  equal : ¬ HasExtension (walkPacket kLinkTypeEthernet pkt).1 →
    ((walkPacket kLinkTypeEthernet pkt).1.map Pdu.place).take kMaxWalkSteps =
      baseVisits (walk l2l3 kEthRoot pkt).visits
  payload : (walkPacket kLinkTypeEthernet pkt).2.reachedL4 = true →
    (walkPacket kLinkTypeEthernet pkt).1.length ≤ kMaxWalkSteps →
    ∃ node off,
      ((baseVisits (walk l2l3 kEthRoot pkt).visits).filter fun visit => isTransport visit.1).getLast?
        = some (node, off) ∧
      (walkPacket kLinkTypeEthernet pkt).2.l4PayloadOffset = l2l3.after pkt off node

theorem walkPacket_refines (pkt : Bytes) : Refines pkt := by
  have agree := agree_walkPacket pkt
  refine ⟨agree.initial, agree.equal, fun reached short => ?_⟩
  obtain ⟨start, ipProto, goesOn, reachedTransport⟩ := goesOn_of_reached reached
  obtain ⟨type, header, proto, fits, emitted, payload⟩ := walkTransport_reached reachedTransport
  have walked := walkPacket_goesOn goesOn
  have transport : isTransport type.node = true := by
    rcases proto with ⟨rfl, -⟩ | ⟨rfl, -⟩ <;> rfl
  have plain : ¬ HasExtension (walkPacket kLinkTypeEthernet pkt).1 := by
    rw [walked, emitted]
    rintro ⟨pdu, member, ipv6, extension⟩
    rcases List.mem_append.mp member with network | last
    · rw [walkToTransport_goesOn goesOn pdu network ipv6] at extension
      unfold isExtension at extension
      rcases proto with ⟨-, rfl⟩ | ⟨-, rfl⟩ <;> revert extension <;> decide
    · rw [List.mem_singleton.mp last] at ipv6
      rcases proto with ⟨rfl, -⟩ | ⟨rfl, -⟩ <;> contradiction
  have whole := agree.equal plain
  rw [List.take_of_length_le (by rwa [List.length_map])] at whole
  refine ⟨type.node, start, ?_, by rw [walked]; exact payload⟩
  rw [← whole, walked, emitted, List.map_append, List.filter_append]
  have kept : ([(⟨type, start, header⟩ : Pdu)].map Pdu.place).filter
      (fun visit => isTransport visit.1) = [(type.node, start)] :=
    List.filter_cons_of_pos transport
  rw [kept, List.getLast?_append]
  rfl

end Nanotins.ProtocolDecode
