import Nanotins.ProtocolDecode.Refinement

/-!
Contract: what `walk_packet` reads of the memory that its span lies in.

Owns: that every header the walk finds is a copy of bytes of the packet, the walk
over an arbitrary byte reader, and that on a reader which faults outside a buffer it
faults exactly if a header it finds leaves the buffer (`walkPacketM_guarded`).

Does not own: where callers place their spans.
-/

namespace Nanotins.ProtocolDecode

open Nanotins.Library

/-! ### Copies of headers -/

/-- The header is the packet's bytes at its offset, and whole. -/
def Pdu.Copied (pkt : Bytes) (pdu : Pdu) : Prop := overlay pkt pdu.offset pdu.type = some pdu.bytes

section Copied

variable {pkt : Bytes}

theorem copied_of_mem_walkNetwork (off ethertype : Nat) :
    ∀ pdu ∈ (walkNetwork pkt off ethertype).pdus, pdu.Copied pkt := by
  unfold walkNetwork
  dsimp only
  rw [overlay_drop, overlay_drop]
  by_cases outside : pkt.length < off
  · rw [if_pos outside]
    exact List.forall_mem_nil _
  rw [if_neg outside]
  by_cases isIpv4 : ethertype = kEtherTypeIpv4
  · rw [if_pos isIpv4]
    cases copied : overlay pkt off .ipv4 with
    | none => exact List.forall_mem_nil _
    | some ip => exact List.forall_mem_singleton.mpr copied
  rw [if_neg isIpv4]
  by_cases isIpv6 : ethertype = kEtherTypeIpv6
  · rw [if_pos isIpv6]
    cases copied : overlay pkt off .ipv6 with
    | none => exact List.forall_mem_nil _
    | some ip => exact List.forall_mem_singleton.mpr copied
  · rw [if_neg isIpv6]
    exact List.forall_mem_nil _

theorem copied_of_mem_walkEthertype (off ethertype : Nat) :
    ∀ pdu ∈ (walkEthertype pkt off ethertype).pdus, pdu.Copied pkt := by
  induction off, ethertype using walkEthertype.induct pkt with
  | case1 off ethertype isVlan cut =>
      rw [walkEthertype_of_cut isVlan cut]
      exact List.forall_mem_nil _
  | case2 off ethertype isVlan tag copied inductionHypothesis =>
      rw [walkEthertype_of_tag isVlan copied]
      exact List.forall_mem_cons.mpr ⟨copied, inductionHypothesis⟩
  | case3 off ethertype notVlan =>
      rw [walkEthertype_of_not_vlan notVlan]
      exact copied_of_mem_walkNetwork off ethertype

theorem copied_of_mem_walkTransport (start ipProto : Nat) :
    ∀ pdu ∈ (walkTransport pkt start ipProto).1, pdu.Copied pkt := by
  unfold walkTransport
  dsimp only
  rw [overlay_drop, overlay_drop]
  split_ifs
  · cases copied : overlay pkt start .tcp with
    | none => exact List.forall_mem_nil _
    | some tcp => exact List.forall_mem_singleton.mpr copied
  · cases copied : overlay pkt start .udp with
    | none => exact List.forall_mem_nil _
    | some udp => exact List.forall_mem_singleton.mpr copied
  · exact List.forall_mem_nil _

theorem copied_of_mem_walkToTransport (linkType : Nat) :
    ∀ pdu ∈ (walkToTransport linkType pkt).pdus, pdu.Copied pkt := by
  unfold walkToTransport
  split
  · exact List.forall_mem_nil _
  · cases copied : overlay pkt 0 .ethernet with
    | none => exact List.forall_mem_nil _
    | some eth => exact List.forall_mem_cons.mpr ⟨copied, copied_of_mem_walkEthertype _ _⟩

/-- Every header handed to a callback is a copy of whole bytes of the packet. -/
theorem copied_of_mem_walkPacket {linkType : Nat} :
    ∀ pdu ∈ (walkPacket linkType pkt).1, pdu.Copied pkt := by
  have network : ∀ pdu ∈ (walkToTransport linkType pkt).pdus, pdu.Copied pkt :=
    copied_of_mem_walkToTransport linkType
  cases goesOn : (walkToTransport linkType pkt).transport with
  | none =>
      rw [walkPacket]
      dsimp only
      rw [goesOn]
      exact network
  | some state =>
      rw [walkPacket_goesOn goesOn]
      exact List.forall_mem_append.mpr ⟨network, copied_of_mem_walkTransport _ _⟩

end Copied

/-! ### The walk over a reader -/

section Reader

variable {m : Type → Type} [Monad m] (rd : Nat → m UInt8)

/-- Copy a header out of the span of `size` bytes at `start`. -/
def overlayM (start size off : Nat) (type : PduType) : m (Option Bytes) :=
  if size < off + type.size then return none
  else do
    let header ← readBytesM rd (start + off) type.size
    return some header

def walkNetworkM (start size off ethertype : Nat) : m NetworkWalk :=
  if size < off then return ⟨[], none⟩
  else do
    let afterL2 := start + off
    let rest := size - off
    if ethertype = kEtherTypeIpv4 then
      match ← overlayM rd afterL2 rest 0 .ipv4 with
      | none => return ⟨[], none⟩
      | some ip =>
          let hdr := Ipv4.headerLength ip
          let l3 := if 20 ≤ hdr then hdr else 20
          let hasL4 : Bool := Ipv4.fragOffset ip = 0
          return ⟨[⟨.ipv4, off, ip⟩],
            if rest < l3 ∨ hasL4 = false then none else some (off + l3, Ipv4.protocol ip)⟩
    else if ethertype = kEtherTypeIpv6 then
      match ← overlayM rd afterL2 rest 0 .ipv6 with
      | none => return ⟨[], none⟩
      | some ip =>
          let l3 := 40
          return ⟨[⟨.ipv6, off, ip⟩],
            if rest < l3 then none else some (off + l3, Ipv6.nextHeader ip)⟩
    else return ⟨[], none⟩

/-- The `overlay` of a tag is written out, for the bound that ends the loop. -/
def walkEthertypeM (start size off ethertype : Nat) : m NetworkWalk :=
  if ethertype = kEtherTypeVlan ∨ ethertype = kEtherTypeQinQ then
    if _cut : size < off + PduType.vlan.size then return ⟨[], none⟩
    else do
      let tag ← readBytesM rd (start + off) PduType.vlan.size
      let rest ← walkEthertypeM start size (off + 4) (VlanTag.innerEthertype tag)
      return { rest with pdus := ⟨.vlan, off, tag⟩ :: rest.pdus }
  else walkNetworkM rd start size off ethertype
termination_by size - off
decreasing_by
  simp only [PduType.size] at _cut
  omega

/-- `off` is where `after_l3` begins in the span. -/
def walkTransportM (start size off ipProto : Nat) : m (List Pdu × WalkResult) := do
  let afterL3 := start + off
  let rest := size - off
  if ipProto = kIpProtoTcp then
    match ← overlayM rd afterL3 rest 0 .tcp with
    | none => return ([], {})
    | some tcp =>
        let hdr := Tcp.headerLength tcp
        return ([⟨.tcp, off, tcp⟩],
          ⟨off + (if 20 ≤ hdr then hdr else 20), packPorts (srcPort tcp) (dstPort tcp), true⟩)
  else if ipProto = kIpProtoUdp then
    match ← overlayM rd afterL3 rest 0 .udp with
    | none => return ([], {})
    | some udp =>
        return ([⟨.udp, off, udp⟩], ⟨off + 8, packPorts (srcPort udp) (dstPort udp), true⟩)
  else return ([], {})

def walkToTransportM (linkType start size : Nat) : m NetworkWalk :=
  if linkType ≠ kLinkTypeEthernet then return ⟨[], none⟩
  else do
    match ← overlayM rd start size 0 .ethernet with
    | none => return ⟨[], none⟩
    | some eth =>
        let rest ← walkEthertypeM rd start size 14 (Ethernet.ethertype eth)
        return { rest with pdus := ⟨.ethernet, 0, eth⟩ :: rest.pdus }

/-- `walk_packet` over the span of `size` bytes at `start`. -/
def walkPacketM (linkType start size : Nat) : m (List Pdu × WalkResult) := do
  let network ← walkToTransportM rd linkType start size
  match network.transport with
  | none => return (network.pdus, {})
  | some (off, ipProto) =>
      let transport ← walkTransportM rd start size off ipProto
      return (network.pdus ++ transport.1, transport.2)

end Reader

/-! ### Headers inside a buffer -/

/-- The headers of a span at `start` end before `limit`. -/
def HeadersInside (limit start : Nat) (pdus : List Pdu) : Prop :=
  ∀ pdu ∈ pdus, start + pdu.offset + pdu.type.size ≤ limit

instance (limit start : Nat) (pdus : List Pdu) : Decidable (HeadersInside limit start pdus) :=
  List.decidableBAll _ _

/-- A result, unless one of the headers leaves the buffer. -/
def whenInside {α : Type} (limit start : Nat) (pdus : List Pdu) (result : α) : Option α :=
  if HeadersInside limit start pdus then some result else none

/-- Where the span lies in the buffer, so do its headers. -/
theorem headersInside_walkPacket {limit start : Nat} {pkt : Bytes} (linkType : Nat)
    (inside : start + pkt.length ≤ limit) :
    HeadersInside limit start (walkPacket linkType pkt).1 := by
  intro pdu member
  have whole := le_of_overlay (copied_of_mem_walkPacket pdu member)
  omega

section WhenInside

variable {α β : Type} {limit start : Nat} {pdus : List Pdu}

theorem whenInside_nil (result : α) : whenInside limit start [] result = some result :=
  if_pos (List.forall_mem_nil _)

theorem whenInside_cons (pdu : Pdu) (result : α) :
    whenInside limit start (pdu :: pdus) result =
      if start + pdu.offset + pdu.type.size ≤ limit then whenInside limit start pdus result
      else none := by
  have split : HeadersInside limit start (pdu :: pdus) ↔
      start + pdu.offset + pdu.type.size ≤ limit ∧ HeadersInside limit start pdus :=
    List.forall_mem_cons
  by_cases here : start + pdu.offset + pdu.type.size ≤ limit
  · rw [if_pos here, whenInside, whenInside]
    exact if_congr (split.trans (and_iff_right here)) rfl rfl
  · rw [if_neg here]
    exact if_neg fun inside => here (split.mp inside).1

theorem whenInside_append (front back : List Pdu) (result : α) :
    whenInside limit start (front ++ back) result =
      if HeadersInside limit start front then whenInside limit start back result else none := by
  have split : HeadersInside limit start (front ++ back) ↔
      HeadersInside limit start front ∧ HeadersInside limit start back :=
    List.forall_mem_append
  by_cases here : HeadersInside limit start front
  · rw [if_pos here, whenInside, whenInside]
    exact if_congr (split.trans (and_iff_right here)) rfl rfl
  · rw [if_neg here]
    exact if_neg fun inside => here (split.mp inside).1

theorem whenInside_bind (result : α) (f : α → Option β) :
    (whenInside limit start pdus result >>= f) =
      if HeadersInside limit start pdus then f result else none := by
  unfold whenInside
  split <;> rfl

end WhenInside

/-! ### What the walk reads -/

section Guarded

variable {file : Bytes} {start size : Nat}

/-- An overlay behind a `subspan` is one at its offset. -/
theorem overlayM_subspan {m : Type → Type} [Monad m] (rd : Nat → m UInt8) (off : Nat)
    (type : PduType) :
    overlayM rd (start + off) (size - off) 0 type = overlayM rd start size off type := by
  have positive : 0 < type.size := by cases type <;> decide
  have cut : size - off < 0 + type.size ↔ size < off + type.size := by omega
  rw [overlayM, overlayM, Nat.add_zero]
  exact if_congr cut rfl rfl

/-- An overlay faults if its header leaves the buffer; else what follows it runs. -/
theorem overlayM_guarded {β : Type} (off : Nat) (type : PduType)
    (next : Option Bytes → Option β) :
    (overlayM (guardedByte file 0 file.length) start size off type >>= next) =
      match overlay (readBytes file start size) off type with
      | none => next none
      | some header =>
          if start + off + type.size ≤ file.length then next (some header) else none := by
  have positive : 0 < type.size := by cases type <;> decide
  rw [overlayM]
  by_cases cut : size < off + type.size
  · rw [if_pos cut, overlay_of_lt (by rwa [length_readBytes])]
    rfl
  · have header : ((readBytes file start size).drop off).take type.size =
        readBytes file (start + off) type.size := by
      obtain ⟨rest, rfl⟩ := Nat.exists_eq_add_of_le (Nat.not_lt.mp cut)
      rw [Nat.add_assoc, readBytes_add, readBytes_add,
        List.drop_left' (length_readBytes _ _ _), List.take_left' (length_readBytes _ _ _)]
    rw [if_neg cut, overlay_of_le (by rw [length_readBytes]; exact Nat.not_lt.mp cut), header]
    dsimp only
    by_cases inside : start + off + type.size ≤ file.length
    · rw [if_pos inside, readBytesM_guarded (Nat.zero_le _) inside]
      rfl
    · rw [if_neg inside, readBytesM_fault positive (Nat.not_le.mp inside)]
      rfl

theorem walkNetworkM_guarded (off ethertype : Nat) :
    walkNetworkM (guardedByte file 0 file.length) start size off ethertype =
      let walked := walkNetwork (readBytes file start size) off ethertype
      whenInside file.length start walked.pdus walked := by
  dsimp only
  rw [walkNetworkM, walkNetwork, length_readBytes]
  by_cases past : size < off
  · rw [if_pos past, if_pos past]
    exact (whenInside_nil _).symm
  rw [if_neg past, if_neg past]
  dsimp only
  rw [overlay_drop, overlay_drop, List.length_drop, length_readBytes, overlayM_subspan,
    overlayM_subspan, overlayM_guarded, overlayM_guarded]
  by_cases four : ethertype = kEtherTypeIpv4
  · rw [if_pos four, if_pos four]
    cases overlay (readBytes file start size) off .ipv4 with
    | none => exact (whenInside_nil _).symm
    | some ip =>
        rw [whenInside_cons, whenInside_nil]
        rfl
  rw [if_neg four, if_neg four]
  by_cases six : ethertype = kEtherTypeIpv6
  · rw [if_pos six, if_pos six]
    cases overlay (readBytes file start size) off .ipv6 with
    | none => exact (whenInside_nil _).symm
    | some ip =>
        rw [whenInside_cons, whenInside_nil]
        rfl
  rw [if_neg six, if_neg six]
  exact (whenInside_nil _).symm

/-- A round of the VLAN loop, by its overlay. -/
theorem walkEthertypeM_of_vlan {rd : Nat → Option UInt8} {off ethertype : Nat}
    (isVlan : ethertype = kEtherTypeVlan ∨ ethertype = kEtherTypeQinQ) :
    walkEthertypeM rd start size off ethertype =
      (overlayM rd start size off .vlan >>= fun copied =>
        match copied with
        | none => some ⟨[], none⟩
        | some tag =>
            walkEthertypeM rd start size (off + 4) (VlanTag.innerEthertype tag) >>= fun rest =>
              some { rest with pdus := ⟨.vlan, off, tag⟩ :: rest.pdus }) := by
  rw [walkEthertypeM, if_pos isVlan, overlayM]
  split
  · rfl
  · cases readBytesM rd (start + off) PduType.vlan.size <;> rfl

theorem walkEthertypeM_guarded (off ethertype : Nat) :
    walkEthertypeM (guardedByte file 0 file.length) start size off ethertype =
      let walked := walkEthertype (readBytes file start size) off ethertype
      whenInside file.length start walked.pdus walked := by
  dsimp only
  induction off, ethertype using walkEthertype.induct (readBytes file start size) with
  | case1 off ethertype isVlan cut =>
      rw [walkEthertype_of_cut isVlan cut, walkEthertypeM_of_vlan isVlan, overlayM_guarded, cut,
        whenInside_nil]
  | case2 off ethertype isVlan tag copied inductionHypothesis =>
      rw [walkEthertype_of_tag isVlan copied, walkEthertypeM_of_vlan isVlan, overlayM_guarded,
        copied]
      dsimp only
      rw [inductionHypothesis, whenInside_cons, whenInside_bind]
      rfl
  | case3 off ethertype notVlan =>
      rw [walkEthertype_of_not_vlan notVlan, walkEthertypeM, if_neg notVlan]
      exact walkNetworkM_guarded off ethertype

theorem walkTransportM_guarded (off ipProto : Nat) :
    walkTransportM (guardedByte file 0 file.length) start size off ipProto =
      let walked := walkTransport (readBytes file start size) off ipProto
      whenInside file.length start walked.1 walked := by
  dsimp only
  rw [walkTransportM, walkTransport]
  dsimp only
  rw [overlay_drop, overlay_drop, overlayM_subspan, overlayM_subspan, overlayM_guarded,
    overlayM_guarded]
  by_cases tcp : ipProto = kIpProtoTcp
  · rw [if_pos tcp, if_pos tcp]
    cases overlay (readBytes file start size) off .tcp with
    | none => exact (whenInside_nil _).symm
    | some header =>
        rw [whenInside_cons, whenInside_nil]
        rfl
  rw [if_neg tcp, if_neg tcp]
  by_cases udp : ipProto = kIpProtoUdp
  · rw [if_pos udp, if_pos udp]
    cases overlay (readBytes file start size) off .udp with
    | none => exact (whenInside_nil _).symm
    | some header =>
        rw [whenInside_cons, whenInside_nil]
        rfl
  rw [if_neg udp, if_neg udp]
  exact (whenInside_nil _).symm

theorem walkToTransportM_guarded (linkType : Nat) :
    walkToTransportM (guardedByte file 0 file.length) linkType start size =
      let walked := walkToTransport linkType (readBytes file start size)
      whenInside file.length start walked.pdus walked := by
  dsimp only
  rw [walkToTransportM, walkToTransport]
  by_cases other : linkType ≠ kLinkTypeEthernet
  · rw [if_pos other, if_pos other, whenInside_nil]
    rfl
  rw [if_neg other, if_neg other, overlayM_guarded]
  cases overlay (readBytes file start size) 0 .ethernet with
  | none => exact (whenInside_nil _).symm
  | some eth =>
      dsimp only
      rw [walkEthertypeM_guarded, whenInside_cons]
      dsimp only
      rw [whenInside_bind]
      rfl

/-- Over a span of a buffer the walk faults exactly if one of its headers leaves the
buffer, where bytes behind the buffer's end count as zero. -/
theorem walkPacketM_guarded (linkType : Nat) :
    walkPacketM (guardedByte file 0 file.length) linkType start size =
      let walked := walkPacket linkType (readBytes file start size)
      whenInside file.length start walked.1 walked := by
  dsimp only
  rw [walkPacketM, walkToTransportM_guarded, walkPacket]
  dsimp only
  rw [whenInside_bind]
  cases (walkToTransport linkType (readBytes file start size)).transport with
  | none => rfl
  | some state =>
      obtain ⟨off, ipProto⟩ := state
      dsimp only
      rw [walkTransportM_guarded, whenInside_append]
      dsimp only
      rw [whenInside_bind]
      rfl

end Guarded

end Nanotins.ProtocolDecode
