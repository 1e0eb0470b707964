import Nanotins.SpecDag.HeaderChain

/-!
Contract: the walk over the link layer of a frame.

Owns: frames of an Ethernet header, any number of VLAN tags and a payload, that a
walk visits these headers and goes on behind them with the innermost ethertype
(`LinkLayer.visits_eq`), and that only link headers lead to a link header.

Does not own: the headers of the payload.
-/

namespace Nanotins.SpecDag

open Nanotins.Library Nanotins.Wire

/-- A VLAN tag without its inner ethertype, and the TPID that announces it. -/
structure VlanTag where
  tpid : Nat
  pcp : Nat
  dei : Nat
  vid : Nat
  tpid_eq : tpid = 0x8100 ∨ tpid = 0x88A8
  pcp_lt : pcp < 2 ^ 3
  dei_lt : dei < 2 ^ 1
  vid_lt : vid < 2 ^ 12

/-- The ethertype that announces VLAN tags before a payload of type `ethertype`. -/
def outerEthertype (ethertype : Nat) : List VlanTag → Nat
  | [] => ethertype
  | tag :: _ => tag.tpid

theorem outerEthertype_lt {ethertype : Nat} (bounded : ethertype < 2 ^ 16) (tags : List VlanTag) :
    outerEthertype ethertype tags < 2 ^ 16 := by
  cases tags with
  | nil => exact bounded
  | cons tag _ => rcases tag.tpid_eq with same | same <;> simp [outerEthertype, same]

theorem packed_eth : packed L2L3Node.eth.spec = true := rfl

theorem packed_vlan : packed L2L3Node.vlan.spec = true := rfl

/-- The header that announces `inner`. -/
def VlanTag.header (tag : VlanTag) (inner : Nat) (bounded : inner < 2 ^ 16) : Header :=
  ⟨.vlan, [.uint tag.pcp, .uint tag.dei, .uint tag.vid, .uint inner], [], packed_vlan,
    .cons (.bits tag.pcp_lt) (.cons (.bits tag.dei_lt) (.cons (.bits tag.vid_lt)
      (.cons (.uint bounded) .nil)))⟩

theorem VlanTag.length_header (tag : VlanTag) {inner : Nat} (bounded : inner < 2 ^ 16) :
    (tag.header inner bounded).encode.length = 4 := by
  rw [Header.length_encode]
  rfl

def tagHeaders {ethertype : Nat} (bounded : ethertype < 2 ^ 16) : List VlanTag → List Header
  | [] => []
  | tag :: tags =>
      tag.header (outerEthertype ethertype tags) (outerEthertype_lt bounded tags) ::
        tagHeaders bounded tags

/-- The headers of a frame up to its payload, which has type `ethertype`. -/
structure LinkLayer where
  dst : Bytes
  src : Bytes
  tags : List VlanTag
  ethertype : Nat
  dst_length : dst.length = 6
  src_length : src.length = 6
  ethertype_lt : ethertype < 2 ^ 16

namespace LinkLayer

variable (layer : LinkLayer)

def ethHeader : Header :=
  ⟨.eth, [.bytes layer.dst, .bytes layer.src, .uint (outerEthertype layer.ethertype layer.tags)],
    [], packed_eth, .cons (fits_bytes layer.dst_length) (.cons (fits_bytes layer.src_length)
      (.cons (.uint (outerEthertype_lt layer.ethertype_lt layer.tags)) .nil))⟩

def headers : List Header := layer.ethHeader :: tagHeaders layer.ethertype_lt layer.tags

/-- The frame around a payload. -/
def frame (payload : Bytes) : Bytes := layer.headers.flatMap Header.encode ++ payload

/-- The offset of the payload. -/
def length : Nat := 14 + 4 * layer.tags.length

end LinkLayer

/-- A link layer with two VLAN tags. -/
def doubleTagged (ethertype : Nat) (bounded : ethertype < 2 ^ 16) : LinkLayer where
  dst := List.replicate 6 1
  src := List.replicate 6 2
  tags := [⟨0x88A8, 1, 0, 7, .inr rfl, by decide, by decide, by decide⟩,
    ⟨0x8100, 0, 1, 9, .inl rfl, by decide, by decide, by decide⟩]
  ethertype := ethertype
  dst_length := rfl
  src_length := rfl
  ethertype_lt := bounded

/-! ### The headers lead to each other -/

section Links

theorem firstNode_tagHeaders {ethertype : Nat} (bounded : ethertype < 2 ^ 16)
    (tags : List VlanTag) :
    firstNode (tagHeaders bounded tags) (ethertypeDispatch ethertype) =
      ethertypeDispatch (outerEthertype ethertype tags) := by
  cases tags with
  | nil => rfl
  | cons tag _ =>
      show some L2L3Node.vlan = ethertypeDispatch tag.tpid
      rcases tag.tpid_eq with same | same <;> rw [same] <;> rfl

theorem namedChain_tagHeaders {ethertype : Nat} (bounded : ethertype < 2 ^ 16)
    (tags : List VlanTag) :
    NamedChain (tagHeaders bounded tags) (ethertypeDispatch ethertype) := by
  induction tags with
  | nil => trivial
  | cons tag tags inductionHypothesis =>
      refine ⟨?_, inductionHypothesis⟩
      intro pkt off stands
      have innerRead : readField pkt off VlanTagSpec.innerEthertype =
          .uint (outerEthertype ethertype tags) :=
        readField_of_map (Header.readField_eq stands) 3 rfl rfl
      rw [firstNode_tagHeaders, Header.length_encode, after_eq]
      exact ⟨congrArg ethertypeDispatch (readUint_of_readField innerRead), rfl⟩

variable (layer : LinkLayer)

theorem LinkLayer.namedChain_headers :
    NamedChain layer.headers (ethertypeDispatch layer.ethertype) := by
  refine ⟨?_, namedChain_tagHeaders layer.ethertype_lt layer.tags⟩
  intro pkt off stands
  have ethertypeRead : readField pkt off EthernetSpec.ethertype =
      .uint (outerEthertype layer.ethertype layer.tags) :=
    readField_of_map (Header.readField_eq stands) 2 rfl rfl
  rw [firstNode_tagHeaders, Header.length_encode, after_eq]
  exact ⟨congrArg ethertypeDispatch (readUint_of_readField ethertypeRead), rfl⟩

theorem length_tagHeaders {ethertype : Nat} (bounded : ethertype < 2 ^ 16) (tags : List VlanTag) :
    (tagHeaders bounded tags).length = tags.length := by
  induction tags with
  | nil => rfl
  | cons tag tags inductionHypothesis =>
      rw [tagHeaders, List.length_cons, List.length_cons, inductionHypothesis]

theorem length_encode_tagHeaders {ethertype : Nat} (bounded : ethertype < 2 ^ 16)
    (tags : List VlanTag) :
    ((tagHeaders bounded tags).flatMap Header.encode).length = 4 * tags.length := by
  induction tags with
  | nil => rfl
  | cons tag tags inductionHypothesis =>
      rw [tagHeaders, List.flatMap_cons, List.length_append, inductionHypothesis,
        VlanTag.length_header, List.length_cons]
      omega

theorem LinkLayer.length_headers : layer.headers.length = layer.tags.length + 1 := by
  rw [headers, List.length_cons, length_tagHeaders]

theorem LinkLayer.length_encode : (layer.headers.flatMap Header.encode).length = layer.length := by
  have size : specSize L2L3Node.eth.spec = 14 := by decide
  rw [headers, List.flatMap_cons, List.length_append, length_encode_tagHeaders,
    Header.length_encode, length]
  exact congrArg (· + 4 * layer.tags.length) size

/-- A walk visits the link headers of a frame, and goes on at its payload. -/
theorem LinkLayer.visits_eq (payload : Bytes) {left : Nat}
    (steps : kMaxWalkSteps = left + (layer.tags.length + 1)) :
    (walk l2l3 kEthRoot (layer.frame payload)).visits =
      headerVisits 0 layer.headers ++
        (walkFrom l2l3 (layer.frame payload) left (ethertypeDispatch layer.ethertype)
          layer.length).visits := by
  have stands : StandsAt (layer.frame payload) 0 (layer.headers.flatMap Header.encode) :=
    ⟨[], payload, (List.nil_append _).symm, rfl⟩
  have visited := visits_of_namedChain left layer.namedChain_headers stands
  rw [LinkLayer.length_encode, Nat.zero_add, LinkLayer.length_headers, ← steps] at visited
  exact visited

/-! ### Link headers -/

def L2L3Node.Link (node : L2L3Node) : Prop := node = .eth ∨ node = .vlan

instance (node : L2L3Node) : Decidable node.Link := inferInstanceAs (Decidable (_ ∨ _))

theorem link_of_mem_tagHeaders {ethertype : Nat} (bounded : ethertype < 2 ^ 16)
    (tags : List VlanTag) : ∀ header ∈ tagHeaders bounded tags, header.node.Link := by
  induction tags with
  | nil => exact List.forall_mem_nil _
  | cons tag tags inductionHypothesis =>
      exact List.forall_mem_cons.mpr ⟨.inr rfl, inductionHypothesis⟩

theorem LinkLayer.link_of_mem_headers : ∀ header ∈ layer.headers, header.node.Link :=
  List.forall_mem_cons.mpr ⟨.inl rfl, link_of_mem_tagHeaders layer.ethertype_lt layer.tags⟩

theorem not_link_of_mem {edges : List (Nat × L2L3Node)} (none : ∀ edge ∈ edges, ¬ edge.2.Link)
    {key : Nat} {target : L2L3Node} (found : matchEdges edges key = some target) :
    ¬ target.Link :=
  none _ (matchEdges_mem found)

/-- No other header leads to a link header. -/
theorem not_link_of_follow {pkt : Bytes} {off : Nat} {node target : L2L3Node}
    (above : ¬ node.Link) (edge : l2l3.follow pkt off node = some target) : ¬ target.Link := by
  have next : ∀ key, ip6NextDispatch key = some target → ¬ target.Link :=
    fun _ found => not_link_of_mem (by decide) found
  have someip : ∀ dst src, someipPortDispatch dst src = some target → ¬ target.Link := by
    intro dst src found
    rw [someipPortDispatch_eq found]
    decide
  cases node with
  | eth => exact absurd (.inl rfl) above
  | vlan => exact absurd (.inr rfl) above
  | ipv4 =>
      change (if readUint pkt off Ipv4Spec.fragOffset ≠ 0 then none
        else ipProtoDispatch (readUint pkt off Ipv4Spec.protocol)) = _ at edge
      split at edge
      · contradiction
      · exact not_link_of_mem (by decide) edge
  | ipv6 | ipv6HopByHop | ipv6DestOpt | ipv6Routing | ipv6Ah => exact next _ edge
  | ipv6Fragment =>
      change (if readUint pkt off Ipv6FragmentSpec.fragOffset ≠ 0 then none
        else ip6NextDispatch (readUint pkt off Ipv6FragmentSpec.nextHeader)) = _ at edge
      split at edge
      · contradiction
      · exact next _ edge
  | tcp | udp => exact someip _ _ edge
  | gptp => exact not_link_of_mem (by decide) edge
  | ptpTimestampBody | ptpTsPortBody | ptpAnnounceBody | ptpSignalingBody | someip => contradiction

/-- No link header stands behind an ethertype that is no TPID. -/
theorem not_link_of_mem_visits {pkt : Bytes} {left off ethertype : Nat}
    (payload : ethertype ≠ 0x8100 ∧ ethertype ≠ 0x88A8) :
    ∀ visit ∈ (walkFrom l2l3 pkt left (ethertypeDispatch ethertype) off).visits,
      ¬ visit.1.Link := by
  refine forall_mem_visits_walkFrom (G := l2l3) (P := fun node : L2L3Node => ¬ node.Link) ?_ ?_
  · exact fun off node target above edge => not_link_of_follow above edge
  · intro node named
    have member := matchEdges_mem (Option.mem_def.mp named)
    simp only [List.mem_cons, List.not_mem_nil, or_false, Prod.mk.injEq] at member
    rcases member with ⟨same, -⟩ | ⟨same, -⟩ | ⟨-, rfl⟩ | ⟨-, rfl⟩ | ⟨-, rfl⟩
    · exact absurd same payload.1
    · exact absurd same payload.2
    all_goals decide

end Links

end Nanotins.SpecDag
