import Nanotins.Library.ByteReader

/-!
Contract: the hand-written L2/L3/L4 traversal, as `walk_packet` in
`protocol_decode.hpp` computes it over the overlays of `protocols.hpp`.

Owns: overlays, the header fields the walk reads, the VLAN loop, the IPv4/IPv6
and TCP/UDP branches, and `walkPacket`.

Does not own: the tables its callers fill, or the graph walk.

The callbacks of the source return nothing, so a call is modelled by the list of
headers passed to them, in order, and the `WalkResult`.
-/

namespace Nanotins.ProtocolDecode

open Nanotins.Library

/-- The six PDU types in table order. -/
inductive PduType where
  | ethernet | vlan | ipv4 | ipv6 | tcp | udp
deriving DecidableEq, Repr

/-- `sizeof` of the packed header structs. -/
def PduType.size : PduType → Nat
  | .ethernet => 14
  | .vlan => 4
  | .ipv4 => 20
  | .ipv6 => 40
  | .tcp => 20
  | .udp => 8

/-- A header handed to a callback: the struct's bytes, and where in the packet
they were copied from. -/
structure Pdu where
  type : PduType
  offset : Nat
  bytes : Bytes
deriving DecidableEq, Repr

def kEtherTypeIpv4 : Nat := 0x0800
def kEtherTypeIpv6 : Nat := 0x86DD
def kEtherTypeVlan : Nat := 0x8100
def kEtherTypeQinQ : Nat := 0x88A8
def kIpProtoTcp : Nat := 6
def kIpProtoUdp : Nat := 17
def kLinkTypeEthernet : Nat := 1

/-- Copy the header of the given type out of the buffer at `off`. -/
def overlay (bytes : Bytes) (off : Nat) (type : PduType) : Option Bytes :=
  if bytes.length < off + type.size then none
  else some ((bytes.drop off).take type.size)

/-! ### Header fields -/

def Ethernet.ethertype (eth : Bytes) : Nat := readBig eth 12 2

def VlanTag.innerEthertype (tag : Bytes) : Nat := readBig tag 2 2

/-- `ver_ihl.word_host() & 0x0F`, in bytes. -/
def Ipv4.headerLength (ip : Bytes) : Nat := readBig ip 0 1 % 2 ^ 4 * 4

/-- `flags_frag.word_host() & 0x1FFF`. -/
def Ipv4.fragOffset (ip : Bytes) : Nat := readBig ip 6 2 % 2 ^ 13

def Ipv4.protocol (ip : Bytes) : Nat := readBig ip 9 1

def Ipv6.nextHeader (ip : Bytes) : Nat := readBig ip 6 1

/-- `(off_flags.word_host() >> 12) & 0x0F`, in bytes. -/
def Tcp.headerLength (tcp : Bytes) : Nat := readBig tcp 12 2 / 2 ^ 12 % 2 ^ 4 * 4

def srcPort (l4 : Bytes) : Nat := readBig l4 0 2

def dstPort (l4 : Bytes) : Nat := readBig l4 2 2

/-- The source port above the destination port. -/
def packPorts (src dst : Nat) : Nat := src * 2 ^ 16 + dst

/-! ### The walk -/

structure WalkResult where
  l4PayloadOffset : Nat := 0
  l4Ports : Nat := 0
  reachedL4 : Bool := false
deriving DecidableEq, Repr, Inhabited

theorem overlay_of_le {bytes : Bytes} {off : Nat} {type : PduType}
    (fits : off + type.size ≤ bytes.length) :
    overlay bytes off type = some ((bytes.drop off).take type.size) :=
  if_neg (Nat.not_lt.mpr fits)

theorem overlay_of_lt {bytes : Bytes} {off : Nat} {type : PduType}
    (cut : bytes.length < off + type.size) : overlay bytes off type = none :=
  if_pos cut

theorem le_of_overlay {bytes header : Bytes} {off : Nat} {type : PduType}
    (copied : overlay bytes off type = some header) : off + type.size ≤ bytes.length := by
  by_contra cut
  rw [overlay_of_lt (Nat.not_le.mp cut)] at copied
  contradiction

/-- What the walk up to the network layer leaves behind: the headers emitted,
and the state before the L4 step (the offset of `after_l3` and `ip_proto`)
unless it returned early. -/
structure NetworkWalk where
  pdus : List Pdu
  transport : Option (Nat × Nat)
deriving DecidableEq, Repr

/-- The network branch, for the bytes behind the L2 headers. -/
def walkNetwork (pkt : Bytes) (off ethertype : Nat) : NetworkWalk :=
  if pkt.length < off then ⟨[], none⟩
  else
    let afterL2 := pkt.drop off
    if ethertype = kEtherTypeIpv4 then
      match overlay afterL2 0 .ipv4 with
      | none => ⟨[], none⟩
      | some ip =>
          let hdr := Ipv4.headerLength ip
          let l3 := if 20 ≤ hdr then hdr else 20
          let hasL4 : Bool := Ipv4.fragOffset ip = 0
          ⟨[⟨.ipv4, off, ip⟩],
            if afterL2.length < l3 ∨ hasL4 = false then none
            else some (off + l3, Ipv4.protocol ip)⟩
    else if ethertype = kEtherTypeIpv6 then
      match overlay afterL2 0 .ipv6 with
      | none => ⟨[], none⟩
      | some ip =>
          let l3 := 40
          ⟨[⟨.ipv6, off, ip⟩],
            if afterL2.length < l3 then none else some (off + l3, Ipv6.nextHeader ip)⟩
    else ⟨[], none⟩

/-- The VLAN loop, then the network branch. -/
def walkEthertype (pkt : Bytes) (off ethertype : Nat) : NetworkWalk :=
  if ethertype = kEtherTypeVlan ∨ ethertype = kEtherTypeQinQ then
    match _copied : overlay pkt off .vlan with
    | none => ⟨[], none⟩
    | some tag =>
        let rest := walkEthertype pkt (off + 4) (VlanTag.innerEthertype tag)
        { rest with pdus := ⟨.vlan, off, tag⟩ :: rest.pdus }
  else walkNetwork pkt off ethertype
termination_by pkt.length - off
decreasing_by
  have := le_of_overlay _copied
  simp only [PduType.size] at this
  omega

section Vlan

variable {pkt : Bytes} {off ethertype : Nat}

theorem walkEthertype_of_tag {tag : Bytes}
    (isVlan : ethertype = kEtherTypeVlan ∨ ethertype = kEtherTypeQinQ)
    (copied : overlay pkt off .vlan = some tag) :
    walkEthertype pkt off ethertype =
      let rest := walkEthertype pkt (off + 4) (VlanTag.innerEthertype tag)
      { rest with pdus := ⟨.vlan, off, tag⟩ :: rest.pdus } := by
  rw [walkEthertype, if_pos isVlan]
  split
  next cut => rw [copied] at cut; contradiction
  next tag' copied' =>
    rw [copied] at copied'
    cases copied'
    rfl

theorem walkEthertype_of_cut
    (isVlan : ethertype = kEtherTypeVlan ∨ ethertype = kEtherTypeQinQ)
    (cut : overlay pkt off .vlan = none) : walkEthertype pkt off ethertype = ⟨[], none⟩ := by
  rw [walkEthertype, if_pos isVlan]
  split
  · rfl
  next copied => rw [cut] at copied; contradiction

theorem walkEthertype_of_not_vlan
    (notVlan : ¬ (ethertype = kEtherTypeVlan ∨ ethertype = kEtherTypeQinQ)) :
    walkEthertype pkt off ethertype = walkNetwork pkt off ethertype := by
  rw [walkEthertype, if_neg notVlan]

end Vlan

/-- The transport branch: `start` is where `after_l3` begins. -/
def walkTransport (pkt : Bytes) (start ipProto : Nat) : List Pdu × WalkResult :=
  let afterL3 := pkt.drop start
  if ipProto = kIpProtoTcp then
    match overlay afterL3 0 .tcp with
    | none => ([], {})
    | some tcp =>
        let hdr := Tcp.headerLength tcp
        ([⟨.tcp, start, tcp⟩],
          ⟨start + (if 20 ≤ hdr then hdr else 20), packPorts (srcPort tcp) (dstPort tcp), true⟩)
  else if ipProto = kIpProtoUdp then
    match overlay afterL3 0 .udp with
    | none => ([], {})
    | some udp =>
        ([⟨.udp, start, udp⟩], ⟨start + 8, packPorts (srcPort udp) (dstPort udp), true⟩)
  else ([], {})

/-- The headers emitted up to the network layer, and the state before the L4
step. -/
def walkToTransport (linkType : Nat) (pkt : Bytes) : NetworkWalk :=
  if linkType ≠ kLinkTypeEthernet then ⟨[], none⟩
  else
    match overlay pkt 0 .ethernet with
    | none => ⟨[], none⟩
    | some eth =>
        let rest := walkEthertype pkt 14 (Ethernet.ethertype eth)
        { rest with pdus := ⟨.ethernet, 0, eth⟩ :: rest.pdus }

def walkPacket (linkType : Nat) (pkt : Bytes) : List Pdu × WalkResult :=
  let network := walkToTransport linkType pkt
  match network.transport with
  | none => (network.pdus, {})
  | some (start, ipProto) =>
      let transport := walkTransport pkt start ipProto
      (network.pdus ++ transport.1, transport.2)

end Nanotins.ProtocolDecode
