import Nanotins.SpecDag.Walk
import Nanotins.Wire.ProtocolSpecs

/-!
Contract: the seventeen nodes of `L2L3Graph` and their dispatch tables.

Owns: `advance` and `next` of each node over an arbitrary byte reader, the
graph, that both read only the node's own header, and that a walk of the graph
therefore reads only the packet.

Does not own: where a walk goes.
-/

namespace Nanotins.SpecDag

open Nanotins.Library Nanotins.Wire

/-- The nodes in id order. -/
inductive L2L3Node where
  | eth | vlan | ipv4 | ipv6 | tcp | udp | gptp
  | ptpTimestampBody | ptpTsPortBody | ptpAnnounceBody | ptpSignalingBody
  | ipv6HopByHop | ipv6Routing | ipv6Fragment | ipv6DestOpt | ipv6Ah
  | someip
deriving DecidableEq, Repr

/-! ### Dispatch tables -/

def ethertypeDispatch : Nat → Option L2L3Node :=
  matchEdges [(0x8100, .vlan), (0x88A8, .vlan), (0x0800, .ipv4), (0x86DD, .ipv6), (0x88F7, .gptp)]

def ipProtoDispatch : Nat → Option L2L3Node := matchEdges [(6, .tcp), (17, .udp)]

def ip6NextDispatch : Nat → Option L2L3Node :=
  matchEdges [(0, .ipv6HopByHop), (43, .ipv6Routing), (44, .ipv6Fragment), (60, .ipv6DestOpt),
    (51, .ipv6Ah), (6, .tcp), (17, .udp)]

/-- Match the well-known port on either endpoint, the destination first. -/
def someipPortDispatch (dst src : Nat) : Option L2L3Node :=
  let target := matchEdges [(kSomeipSdPort, .someip)] dst
  if target.isSome then target else matchEdges [(kSomeipSdPort, .someip)] src

/-- The transport nodes lead to SOME/IP only. -/
theorem someipPortDispatch_eq {dst src : Nat} {target : L2L3Node}
    (hit : someipPortDispatch dst src = some target) : target = .someip := by
  have onPort : ∀ port, matchEdges [(kSomeipSdPort, L2L3Node.someip)] port = some target →
      target = .someip := by
    intro port found
    have member := matchEdges_mem found
    rw [List.mem_singleton] at member
    exact congrArg Prod.snd member
  unfold someipPortDispatch at hit
  dsimp only at hit
  split at hit
  · exact onPort dst hit
  · exact onPort src hit

def ptpMsgtypeDispatch : Nat → Option L2L3Node :=
  matchEdges
    [(kPtpMsgSync, .ptpTimestampBody), (kPtpMsgFollowUp, .ptpTimestampBody),
      (kPtpMsgDelayReq, .ptpTimestampBody), (kPtpMsgPdelayReq, .ptpTimestampBody),
      (kPtpMsgDelayResp, .ptpTsPortBody), (kPtpMsgPdelayResp, .ptpTsPortBody),
      (kPtpMsgPdelayRespFollowUp, .ptpTsPortBody), (kPtpMsgAnnounce, .ptpAnnounceBody),
      (kPtpMsgSignaling, .ptpSignalingBody)]

/-! ### Nodes -/

section Nodes

variable {m : Type → Type} [Monad m] (rd : Nat → m UInt8) (p : Nat)

def EthNode.nextM : m (Option L2L3Node) := do
  return ethertypeDispatch (← readUintM rd p EthernetSpec.ethertype)

def VlanNode.nextM : m (Option L2L3Node) := do
  return ethertypeDispatch (← readUintM rd p VlanTagSpec.innerEthertype)

def Ipv4Node.advanceM : m Nat := do
  let hdr := (← readUintM rd p Ipv4Spec.ihl) * 4
  return if 20 ≤ hdr then hdr else 20

/-- A fragment that is not the first carries no L4 header. -/
def Ipv4Node.nextM : m (Option L2L3Node) := do
  let fragOffset ← readUintM rd p Ipv4Spec.fragOffset
  if fragOffset ≠ 0 then
    return none
  return ipProtoDispatch (← readUintM rd p Ipv4Spec.protocol)

def Ipv6Node.nextM : m (Option L2L3Node) := do
  return ip6NextDispatch (← readUintM rd p Ipv6Spec.nextHeader)

/-- The length of a Hop-by-Hop or Destination Options header. -/
def Ipv6ExtOptNode.advanceM : m Nat := do
  return ((← readUintM rd p Ipv6ExtOptSpec.hdrExtLen) + 1) * 8

def Ipv6ExtOptNode.nextM : m (Option L2L3Node) := do
  return ip6NextDispatch (← readUintM rd p Ipv6ExtOptSpec.nextHeader)

def Ipv6RoutingNode.advanceM : m Nat := do
  return ((← readUintM rd p Ipv6SrhSpec.hdrExtLen) + 1) * 8

def Ipv6RoutingNode.nextM : m (Option L2L3Node) := do
  return ip6NextDispatch (← readUintM rd p Ipv6SrhSpec.nextHeader)

def Ipv6FragmentNode.nextM : m (Option L2L3Node) := do
  let fragOffset ← readUintM rd p Ipv6FragmentSpec.fragOffset
  if fragOffset ≠ 0 then
    return none
  return ip6NextDispatch (← readUintM rd p Ipv6FragmentSpec.nextHeader)

/-- An AH counts its length in units of four bytes, with a bias of two. -/
def Ipv6AhNode.advanceM : m Nat := do
  return ((← readUintM rd p Ipv6AhSpec.payloadLen) + 2) * 4

def Ipv6AhNode.nextM : m (Option L2L3Node) := do
  return ip6NextDispatch (← readUintM rd p Ipv6AhSpec.nextHeader)

def TcpNode.advanceM : m Nat := do
  let hdr := (← readUintM rd p TcpSpec.dataOffset) * 4
  return if 20 ≤ hdr then hdr else 20

def TcpNode.nextM : m (Option L2L3Node) := do
  let dst ← readUintM rd p TcpSpec.dstPort
  let src ← readUintM rd p TcpSpec.srcPort
  return someipPortDispatch dst src

def UdpNode.nextM : m (Option L2L3Node) := do
  let dst ← readUintM rd p UdpSpec.dstPort
  let src ← readUintM rd p UdpSpec.srcPort
  return someipPortDispatch dst src

def GptpNode.nextM : m (Option L2L3Node) := do
  return ptpMsgtypeDispatch (← readUintM rd p PtpHeaderSpec.messageType)

end Nodes

namespace L2L3Node

def spec : L2L3Node → WireSpec
  | .eth => EthernetSpec.fields
  | .vlan => VlanTagSpec.fields
  | .ipv4 => Ipv4Spec.fields
  | .ipv6 => Ipv6Spec.fields
  | .tcp => TcpSpec.fields
  | .udp => UdpSpec.fields
  | .gptp => PtpHeaderSpec.fields
  | .ptpTimestampBody => PtpTimestampBodySpec.fields
  | .ptpTsPortBody => PtpTsPortBodySpec.fields
  | .ptpAnnounceBody => PtpAnnounceBodySpec.fields
  | .ptpSignalingBody => PtpSignalingBodySpec.fields
  | .ipv6HopByHop => Ipv6ExtOptSpec.fields
  | .ipv6Routing => Ipv6SrhSpec.fields
  | .ipv6Fragment => Ipv6FragmentSpec.fields
  | .ipv6DestOpt => Ipv6ExtOptSpec.fields
  | .ipv6Ah => Ipv6AhSpec.fields
  | .someip => SomeipSpec.fields

variable {m : Type → Type} [Monad m]

def advanceM (rd : Nat → m UInt8) (p : Nat) : L2L3Node → m Nat
  | .eth => pure 14
  | .vlan => pure 4
  | .ipv4 => Ipv4Node.advanceM rd p
  | .ipv6 => pure 40
  | .tcp => TcpNode.advanceM rd p
  | .udp => pure 8
  | .gptp => pure kPtpHeaderLen
  | .ptpTimestampBody => pure (specSize PtpTimestampBodySpec.fields)
  | .ptpTsPortBody => pure (specSize PtpTsPortBodySpec.fields)
  | .ptpAnnounceBody => pure (specSize PtpAnnounceBodySpec.fields)
  | .ptpSignalingBody => pure (specSize PtpSignalingBodySpec.fields)
  | .ipv6HopByHop => Ipv6ExtOptNode.advanceM rd p
  | .ipv6Routing => Ipv6RoutingNode.advanceM rd p
  | .ipv6Fragment => pure 8
  | .ipv6DestOpt => Ipv6ExtOptNode.advanceM rd p
  | .ipv6Ah => Ipv6AhNode.advanceM rd p
  | .someip => pure kSomeipHeaderLen

def nextM (rd : Nat → m UInt8) (p : Nat) : L2L3Node → m (Option L2L3Node)
  | .eth => EthNode.nextM rd p
  | .vlan => VlanNode.nextM rd p
  | .ipv4 => Ipv4Node.nextM rd p
  | .ipv6 => Ipv6Node.nextM rd p
  | .tcp => TcpNode.nextM rd p
  | .udp => UdpNode.nextM rd p
  | .gptp => GptpNode.nextM rd p
  | .ipv6HopByHop => Ipv6ExtOptNode.nextM rd p
  | .ipv6Routing => Ipv6RoutingNode.nextM rd p
  | .ipv6Fragment => Ipv6FragmentNode.nextM rd p
  | .ipv6DestOpt => Ipv6ExtOptNode.nextM rd p
  | .ipv6Ah => Ipv6AhNode.nextM rd p
  | .ptpTimestampBody | .ptpTsPortBody | .ptpAnnounceBody | .ptpSignalingBody | .someip => pure none

end L2L3Node

abbrev L2L3Graph (m : Type → Type) [Monad m] : Graph m where
  Node := L2L3Node
  spec := L2L3Node.spec
  advance := L2L3Node.advanceM
  next := L2L3Node.nextM

def kEthRoot : L2L3Node := .eth

/-! ### Nodes read their own header -/

section Guarded

variable {pkt : Bytes} {lo hi p : Nat}

/-- `advance` reads inside the node's fixed header. -/
theorem advanceM_guarded (node : L2L3Node) (above : lo ≤ p)
    (fits : p + specSize node.spec ≤ hi) :
    node.advanceM (guardedByte pkt lo hi) p = some (Id.run (node.advanceM (byteAt pkt) p)) := by
  have field : ∀ field ∈ node.spec, readUintM (guardedByte pkt lo hi) p field =
      some (readUint pkt p field) := fun field member =>
    readUintM_guarded_of_mem member above fits
  cases node with
  | ipv4 =>
      rw [L2L3Node.advanceM, Ipv4Node.advanceM, field Ipv4Spec.ihl (by decide)]
      rfl
  | tcp =>
      rw [L2L3Node.advanceM, TcpNode.advanceM, field TcpSpec.dataOffset (by decide)]
      rfl
  | ipv6HopByHop | ipv6DestOpt =>
      rw [L2L3Node.advanceM, Ipv6ExtOptNode.advanceM, field Ipv6ExtOptSpec.hdrExtLen (by decide)]
      rfl
  | ipv6Routing =>
      rw [L2L3Node.advanceM, Ipv6RoutingNode.advanceM, field Ipv6SrhSpec.hdrExtLen (by decide)]
      rfl
  | ipv6Ah =>
      rw [L2L3Node.advanceM, Ipv6AhNode.advanceM, field Ipv6AhSpec.payloadLen (by decide)]
      rfl
  | eth | vlan | ipv6 | udp | gptp | ptpTimestampBody | ptpTsPortBody | ptpAnnounceBody
  | ptpSignalingBody | ipv6Fragment | someip => rfl

/-- `next` reads inside the node's fixed header. -/
theorem nextM_guarded (node : L2L3Node) (above : lo ≤ p)
    (fits : p + specSize node.spec ≤ hi) :
    node.nextM (guardedByte pkt lo hi) p = some (Id.run (node.nextM (byteAt pkt) p)) := by
  have field : ∀ field ∈ node.spec, readUintM (guardedByte pkt lo hi) p field =
      some (readUint pkt p field) := fun field member =>
    readUintM_guarded_of_mem member above fits
  cases node with
  | eth =>
      rw [L2L3Node.nextM, EthNode.nextM, field EthernetSpec.ethertype (by decide)]
      rfl
  | vlan =>
      rw [L2L3Node.nextM, VlanNode.nextM, field VlanTagSpec.innerEthertype (by decide)]
      rfl
  | ipv4 =>
      rw [L2L3Node.nextM, Ipv4Node.nextM, field Ipv4Spec.fragOffset (by decide),
        field Ipv4Spec.protocol (by decide)]
      exact (apply_ite some _ _ _).symm
  | ipv6 =>
      rw [L2L3Node.nextM, Ipv6Node.nextM, field Ipv6Spec.nextHeader (by decide)]
      rfl
  | tcp =>
      rw [L2L3Node.nextM, TcpNode.nextM, field TcpSpec.dstPort (by decide),
        field TcpSpec.srcPort (by decide)]
      rfl
  | udp =>
      rw [L2L3Node.nextM, UdpNode.nextM, field UdpSpec.dstPort (by decide),
        field UdpSpec.srcPort (by decide)]
      rfl
  | gptp =>
      rw [L2L3Node.nextM, GptpNode.nextM, field PtpHeaderSpec.messageType (by decide)]
      rfl
  | ipv6HopByHop | ipv6DestOpt =>
      rw [L2L3Node.nextM, Ipv6ExtOptNode.nextM, field Ipv6ExtOptSpec.nextHeader (by decide)]
      rfl
  | ipv6Routing =>
      rw [L2L3Node.nextM, Ipv6RoutingNode.nextM, field Ipv6SrhSpec.nextHeader (by decide)]
      rfl
  | ipv6Fragment =>
      rw [L2L3Node.nextM, Ipv6FragmentNode.nextM, field Ipv6FragmentSpec.fragOffset (by decide),
        field Ipv6FragmentSpec.nextHeader (by decide)]
      exact (apply_ite some _ _ _).symm
  | ipv6Ah =>
      rw [L2L3Node.nextM, Ipv6AhNode.nextM, field Ipv6AhSpec.nextHeader (by decide)]
      rfl
  | ptpTimestampBody | ptpTsPortBody | ptpAnnounceBody | ptpSignalingBody | someip => rfl

/-- The fit check, `advance` and `next` stay in the packet. -/
theorem walkFromM_guarded (fuel : Nat) (node : Option L2L3Node) (off : Nat) :
    walkFromM (L2L3Graph Option) (guardedByte pkt 0 pkt.length) pkt.length fuel node off =
      some (walkFrom (L2L3Graph Id) pkt fuel node off) := by
  induction fuel generalizing node off with
  | zero => rfl
  | succ fuel inductionHypothesis =>
      cases node with
      | none => rfl
      | some node =>
          by_cases fits : (L2L3Graph Id).Fits pkt off node
          · have advance : (L2L3Graph Option).advance (guardedByte pkt 0 pkt.length) off node = _ :=
              advanceM_guarded node (Nat.zero_le off) fits
            have next : (L2L3Graph Option).next (guardedByte pkt 0 pkt.length) off node = _ :=
              nextM_guarded node (Nat.zero_le off) fits
            rw [walkFromM, if_neg (Nat.not_lt.mpr fits), advance, next, walkFrom_of_fits fits]
            change Option.bind (walkFromM _ _ _ fuel _ _) _ = _
            rw [inductionHypothesis]
            rfl
          · rw [walkFromM, if_pos (Nat.not_le.mp fits), walkFrom_of_not_fits fits]
            rfl

/-- A walk reads no byte outside the packet. -/
theorem walkM_guarded (pkt : Bytes) (root : L2L3Node) :
    walkM (L2L3Graph Option) (guardedByte pkt 0 pkt.length) pkt.length root =
      some (walk (L2L3Graph Id) root pkt) :=
  walkFromM_guarded kMaxWalkSteps (some root) 0

end Guarded

end Nanotins.SpecDag
