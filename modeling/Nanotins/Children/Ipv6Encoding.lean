import Nanotins.Children.Ipv6Children
import Nanotins.SpecDag.Ipv6Chain

/-!
Contract: tabulating the children of an IPv6 header chain inverts their encoding.

Owns: options and segment lists as they are written, packets with an extension
chain of such headers, the rows they stand for, and that the serial decoder
appends exactly these rows (`dagDecode_childChain`).

Does not own: cut or inconsistent headers.
-/

namespace Nanotins.Children

open Nanotins.Library Nanotins.Wire Nanotins.SpecDag

/-! ### Options -/

/-- An option or an SRH TLV: a pad of one byte, or another type and a value. -/
inductive Ipv6Option where
  | pad1
  | tlv (type : UInt8) (value : Bytes) (nonzero : type ≠ 0) (value_length : value.length < 2 ^ 8)

namespace Ipv6Option

def type : Ipv6Option → UInt8
  | pad1 => 0
  | tlv type .. => type

def value : Ipv6Option → Bytes
  | pad1 => []
  | tlv _ value .. => value

def encode : Ipv6Option → Bytes
  | pad1 => [0]
  | tlv type value .. => type :: UInt8.ofNat value.length :: value

theorem value_length_lt (option : Ipv6Option) : option.value.length < 2 ^ 8 := by
  cases option with
  | pad1 => decide
  | tlv _ _ _ value_length => exact value_length

/-- The row of an option in a header of type `container`. -/
def row (packetId container : Nat) (option : Ipv6Option) : Row ipv6ChildSchema where
  table := .opt
  cell
    | .optPacketId => .uint packetId
    | .containerType => .uint container
    | .optType => .uint option.type.toNat
    | .optLen => .uint option.value.length
    | _ => default

end Ipv6Option

def encodeOptions (options : List Ipv6Option) : Bytes := options.flatMap Ipv6Option.encode

section Options

variable {pkt : Bytes} {p stop : Nat}

/-- The cursor takes the option it stands before. -/
theorem next_option {option : Ipv6Option} (stands : StandsAt pkt p option.encode)
    (inside : p + option.encode.length ≤ stop) :
    ∃ value, TlvCursor.next pkt ⟨p, stop, .ipv6Options⟩ =
      some (⟨option.type, UInt8.ofNat option.value.length, value⟩,
        ⟨p + option.encode.length, stop, .ipv6Options⟩) := by
  rw [TlvCursor.next_eq]
  cases option with
  | pad1 =>
      have more : ¬ stop ≤ p := Nat.not_le.mpr inside
      have first : byteAt pkt p = 0 := stands.head
      refine ⟨none, ?_⟩
      dsimp only
      rw [if_neg more, if_pos ⟨rfl, first⟩]
      rfl
  | tlv type value nonzero value_length =>
      have first : byteAt pkt p = type := stands.head
      have second : byteAt pkt (p + 1) = UInt8.ofNat value.length := stands.tail.head
      have length : (UInt8.ofNat value.length).toNat = value.length :=
        Nat.mod_eq_of_lt value_length
      have width : (Ipv6Option.tlv type value nonzero value_length).encode.length =
          2 + value.length := by
        rw [Ipv6Option.encode, List.length_cons, List.length_cons]
        omega
      rw [width] at inside ⊢
      refine ⟨some (p + 2), ?_⟩
      dsimp only
      rw [first, second, length, if_neg (by omega), if_neg (by simp [nonzero]), if_neg (by simp),
        if_neg (by omega), if_neg (by omega), Nat.add_assoc]
      rfl

/-- The records of an encoded list that fills its region are the options. -/
theorem records_encodeOptions {options : List Ipv6Option}
    (stands : StandsAt pkt p (encodeOptions options))
    (fills : p + (encodeOptions options).length = stop) :
    (TlvCursor.records pkt ⟨p, stop, .ipv6Options⟩).map
        (fun record => (⟨record.type, record.length⟩ : OptChild)) =
      options.map fun option => ⟨option.type, UInt8.ofNat option.value.length⟩ := by
  induction options generalizing p with
  | nil =>
      have ended : TlvCursor.next pkt ⟨p, stop, .ipv6Options⟩ = none := by
        rw [TlvCursor.next_eq]
        exact if_pos (Nat.le_of_eq fills.symm)
      rw [TlvCursor.records_eq, ended]
      rfl
  | cons option options inductionHypothesis =>
      rw [encodeOptions, List.flatMap_cons] at stands fills
      rw [List.length_append] at fills
      rcases next_option stands.left (by omega : _ ≤ stop) with ⟨value, taken⟩
      have rest := inductionHypothesis stands.right ((Nat.add_assoc _ _ _).trans fills)
      rw [TlvCursor.records_eq, taken]
      dsimp only
      rw [List.map_cons, List.map_cons, rest]

theorem ipv6OptRow_option (packetId : Nat) (container : UInt8) (option : Ipv6Option) :
    ipv6OptRow packetId container ⟨option.type, UInt8.ofNat option.value.length⟩ =
      option.row packetId container.toNat := by
  rw [ipv6OptRow, Ipv6Option.row]
  congr 1
  funext col
  cases col with
  | optLen => exact congrArg FieldValue.uint (Nat.mod_eq_of_lt option.value_length_lt)
  | segPacketId | srhOrder | segmentIndex | address | optPacketId | containerType | optType => rfl

end Options

/-! ### Segments -/

/-- The 16 bytes of an IPv6 address. -/
structure Ipv6Address where
  bytes : Bytes
  length_bytes : bytes.length = 16

attribute [simp] Ipv6Address.length_bytes

def encodeSegments (segments : List Ipv6Address) : Bytes := segments.flatMap Ipv6Address.bytes

@[simp] theorem length_encodeSegments (segments : List Ipv6Address) :
    (encodeSegments segments).length = segments.length * 16 := by
  simp [encodeSegments, List.length_flatMap]

/-- The row of a segment: `order` Routing headers and `index` segments before it. -/
def segmentRow (packetId order index : Nat) (address : Ipv6Address) : Row ipv6ChildSchema where
  table := .srhSegment
  cell
    | .segPacketId => .uint packetId
    | .srhOrder => .uint order
    | .segmentIndex => .uint index
    | .address => .bytes address.bytes
    | _ => default

section Segments

variable {pkt : Bytes} {segBase nseg stop : Nat}

theorem srhRow_segment (packetId : Nat) (order : UInt8) {index ptr : Nat} (bounded : index < 256)
    {address : Ipv6Address} (stands : StandsAt pkt ptr address.bytes) :
    srhRow packetId pkt order (.segment (UInt8.ofNat index) ptr) =
      segmentRow packetId order.toNat index address := by
  have copied : readBytes pkt ptr 16 = address.bytes := by
    rw [← address.length_bytes]
    exact stands.readBytes_eq
  rw [srhRow, segmentRow, copied]
  congr 1
  funext col
  cases col with
  | segmentIndex => exact congrArg FieldValue.uint (Nat.mod_eq_of_lt bounded)
  | segPacketId | srhOrder | address | optPacketId | containerType | optType | optLen => rfl

/-- The segment loop takes the segments that stand behind each other; `index` is
the number of segments before them. -/
theorem map_srhSegments (packetId : Nat) (order : UInt8) (index : Nat)
    {segments : List Ipv6Address} (few : nseg ≤ 256) (count : index + segments.length = nseg)
    (stands : StandsAt pkt (segBase + index * 16) (encodeSegments segments))
    (inside : segBase + nseg * 16 ≤ stop) :
    (srhSegments segBase nseg stop segments.length index).map (srhRow packetId pkt order) =
      segments.mapIdx fun i => segmentRow packetId order.toNat (index + i) := by
  induction segments generalizing index with
  | nil => rfl
  | cons segment segments inductionHypothesis =>
      rw [encodeSegments, List.flatMap_cons] at stands
      rw [List.length_cons] at count
      have behind := stands.right
      rw [segment.length_bytes, Nat.add_assoc, ← Nat.succ_mul] at behind
      have rest := inductionHypothesis (index + 1) (by omega) behind
      have found : repeatAt segBase nseg 16 stop index = some (segBase + index * 16) := by
        rw [repeatAt, if_neg (by omega), if_pos (by omega)]
      have shift : (fun i => segmentRow packetId order.toNat (index + (i + 1))) =
          fun i => segmentRow packetId order.toNat (index + 1 + i) := by
        funext i
        rw [Nat.add_assoc, Nat.add_comm 1]
      rw [List.length_cons, srhSegments, found]
      dsimp only
      rw [List.map_cons, rest, srhRow_segment packetId order (by omega) stands.left,
        List.mapIdx_cons, shift]
      rfl

end Segments

/-! ### Headers -/

section Headers

variable {pkt : Bytes} {off hdrExtLen : Nat}

/-- The declared end of a header that stands in the packet is not cut. -/
theorem clampEnd_of_stands {body : Bytes} {fixed : Nat} (stands : StandsAt pkt (off + fixed) body)
    (filled : fixed + body.length = (hdrExtLen + 1) * 8) :
    clampEnd (off + (hdrExtLen + 1) * 8) pkt.length = off + fixed + body.length := by
  have inside := stands.length_le
  rw [clampEnd, if_pos (by omega)]
  omega

theorem forEachOpt_encode {options : List Ipv6Option}
    (length : readUint pkt off Ipv6ExtOptSpec.hdrExtLen = hdrExtLen)
    (stands : StandsAt pkt (off + 2) (encodeOptions options))
    (filled : 2 + (encodeOptions options).length = (hdrExtLen + 1) * 8) :
    forEachOpt pkt off =
      options.map fun option => ⟨option.type, UInt8.ofNat option.value.length⟩ := by
  rw [forEachOpt_eq, length]
  dsimp only
  rw [clampEnd_of_stands stands filled, if_neg (by omega)]
  exact records_encodeOptions stands rfl

theorem encodeOptions_eq_nil {options : List Ipv6Option} (none : encodeOptions options = []) :
    options = [] := by
  cases options with
  | nil => rfl
  | cons option options => cases option <;> simp [encodeOptions, Ipv6Option.encode] at none

/-- Whether or not TLVs follow, the records behind the segments are the TLVs. -/
theorem forEachSrhChild_encode {segments : List Ipv6Address} {tlvs : List Ipv6Option}
    (length : readUint pkt off Ipv6SrhSpec.hdrExtLen = hdrExtLen)
    (last : readUint pkt off Ipv6SrhSpec.lastEntry + 1 = segments.length)
    (stands : StandsAt pkt (off + 8) (encodeSegments segments ++ encodeOptions tlvs))
    (filled : 8 + (encodeSegments segments ++ encodeOptions tlvs).length = (hdrExtLen + 1) * 8) :
    forEachSrhChild pkt off =
      srhSegments (off + 8) segments.length (off + (hdrExtLen + 1) * 8) segments.length 0 ++
        tlvs.map fun tlv => .tlv tlv.type (UInt8.ofNat tlv.value.length) := by
  have stop := clampEnd_of_stands stands filled
  have behind := stands.right
  rw [length_encodeSegments] at behind
  rw [List.length_append, length_encodeSegments] at stop filled
  have whole : off + (hdrExtLen + 1) * 8 =
      off + 8 + segments.length * 16 + (encodeOptions tlvs).length := by omega
  rw [forEachSrhChild_eq, length, last]
  dsimp only
  rw [stop, ← Nat.add_assoc, whole]
  split
  · have records := congrArg (List.map fun opt : OptChild => SrhChild.tlv opt.type opt.length)
      (records_encodeOptions behind rfl)
    rw [List.map_map, List.map_map] at records
    exact congrArg (_ ++ ·) records
  · next ended =>
    have none : tlvs = [] := encodeOptions_eq_nil (List.eq_nil_of_length_eq_zero (by omega))
    rw [none, List.map_nil, List.append_nil]

/-- A routing header is tabulated as its segments, then its TLVs. -/
theorem map_forEachSrhChild (packetId : Nat) (order : UInt8) {segments : List Ipv6Address}
    {tlvs : List Ipv6Option} (few : segments.length ≤ 256)
    (length : readUint pkt off Ipv6SrhSpec.hdrExtLen = hdrExtLen)
    (last : readUint pkt off Ipv6SrhSpec.lastEntry + 1 = segments.length)
    (stands : StandsAt pkt (off + 8) (encodeSegments segments ++ encodeOptions tlvs))
    (filled : 8 + (encodeSegments segments ++ encodeOptions tlvs).length = (hdrExtLen + 1) * 8) :
    (forEachSrhChild pkt off).map (srhRow packetId pkt order) =
      segments.mapIdx (segmentRow packetId order.toNat) ++ tlvs.map (Ipv6Option.row packetId 43) := by
  rw [forEachSrhChild_encode length last stands filled, List.map_append, List.map_map]
  rw [List.length_append, length_encodeSegments] at filled
  have first : StandsAt pkt (off + 8 + 0 * 16) (encodeSegments segments) := by
    rw [Nat.zero_mul]
    exact stands.left
  have rows := map_srhSegments packetId order 0 few (Nat.zero_add _) first
    (by omega : _ ≤ off + (hdrExtLen + 1) * 8)
  simp only [Nat.zero_add] at rows
  rw [rows]
  apply congrArg (segments.mapIdx (segmentRow packetId order.toNat) ++ ·)
  apply List.map_congr_left
  intro tlv _
  exact ipv6OptRow_option packetId 43 tlv

end Headers

/-! ### Chains -/

/-- An extension header with encoded children, or one that has none: a first
fragment or an authentication header. -/
inductive ChildExt where
  | hopByHop (options : List Ipv6Option) (hdrExtLen : Nat) (bounded : hdrExtLen < 2 ^ 8)
      (filled : 2 + (encodeOptions options).length = (hdrExtLen + 1) * 8)
  | destOpt (options : List Ipv6Option) (hdrExtLen : Nat) (bounded : hdrExtLen < 2 ^ 8)
      (filled : 2 + (encodeOptions options).length = (hdrExtLen + 1) * 8)
  | routing (segments : List Ipv6Address) (tlvs : List Ipv6Option)
      (hdrExtLen routingType segmentsLeft flags tag : Nat)
      (bounded : hdrExtLen < 2 ^ 8 ∧ routingType < 2 ^ 8 ∧ segmentsLeft < 2 ^ 8 ∧ flags < 2 ^ 8 ∧
        tag < 2 ^ 16)
      (nonempty : segments ≠ [])
      (filled : 8 + (encodeSegments segments ++ encodeOptions tlvs).length = (hdrExtLen + 1) * 8)
  | childless (ext : ExtHeader) (other : ext.protocol = 44 ∨ ext.protocol = 51)

namespace ChildExt

theorem segments_length_lt {segments : List Ipv6Address} {body : Bytes} {hdrExtLen : Nat}
    (bounded : hdrExtLen < 2 ^ 8)
    (filled : 8 + (encodeSegments segments ++ body).length = (hdrExtLen + 1) * 8) :
    segments.length < 2 ^ 8 := by
  rw [List.length_append, length_encodeSegments] at filled
  omega

/-- The header as it is written; `last_entry` is one below the segment count. -/
def ext : ChildExt → ExtHeader
  | hopByHop options hdrExtLen bounded filled =>
      .hopByHop hdrExtLen (encodeOptions options) bounded filled
  | destOpt options hdrExtLen bounded filled =>
      .destOpt hdrExtLen (encodeOptions options) bounded filled
  | routing segments tlvs hdrExtLen routingType segmentsLeft flags tag bounded _ filled =>
      .routing hdrExtLen routingType segmentsLeft (segments.length - 1) flags tag
        (encodeSegments segments ++ encodeOptions tlvs)
        ⟨bounded.1, bounded.2.1, bounded.2.2.1,
          Nat.lt_of_le_of_lt (Nat.sub_le _ 1) (segments_length_lt bounded.1 filled),
          bounded.2.2.2.1, bounded.2.2.2.2⟩
        filled
  | childless ext _ => ext

/-- The rows of the header, `order` Routing headers into the packet. -/
def rows (packetId order : Nat) : ChildExt → List (Row ipv6ChildSchema)
  | hopByHop options .. => options.map (Ipv6Option.row packetId 0)
  | destOpt options .. => options.map (Ipv6Option.row packetId 60)
  | routing segments tlvs .. =>
      segments.mapIdx (segmentRow packetId order) ++ tlvs.map (Ipv6Option.row packetId 43)
  | childless .. => []

def isRouting : ChildExt → Bool
  | routing .. => true
  | _ => false

end ChildExt

/-- The rows of a chain, header by header. -/
def chainRows (packetId : Nat) : Nat → List ChildExt → List (Row ipv6ChildSchema)
  | _, [] => []
  | order, ext :: exts =>
      ext.rows packetId order ++
        chainRows packetId (if ext.isRouting then order + 1 else order) exts

/-- A packet with an IPv6 extension chain; behind the chain any bytes may follow. -/
structure ChildChain where
  envelope : Ipv6Envelope
  exts : List ChildExt
  ending : ChainEnd
  trailing : Bytes

namespace ChildChain

variable (p : ChildChain)

/-- The headers up to the last extension header with children. -/
def headers : List Header := p.envelope.chain (p.exts.map ChildExt.ext) p.ending.protocol_lt

def bytes : Bytes :=
  p.headers.flatMap Header.encode ++ (p.ending.headers.flatMap Header.encode ++ p.trailing)

/-- The child rows that the packet stands for. -/
def rows (packetId : Nat) : List (Row ipv6ChildSchema) := chainRows packetId 0 p.exts

end ChildChain

/-! ### Rows of a chain -/

section Visits

variable {pkt : Bytes} {off : Nat}

/-- The nodes whose headers have child rows. -/
def hasChildren : L2L3Node → Bool
  | .ipv6HopByHop | .ipv6Routing | .ipv6DestOpt => true
  | _ => false

/-- Headers without children are passed over. -/
theorem ipv6VisitsRows_append (packetId : Nat) (order : UInt8) {front : List (L2L3Node × Nat)}
    (childless : ∀ visit ∈ front, hasChildren visit.1 = false) (back : List (L2L3Node × Nat)) :
    ipv6VisitsRows (G := l2l3) some packetId pkt order (front ++ back) =
      ipv6VisitsRows (G := l2l3) some packetId pkt order back := by
  induction front with
  | nil => rfl
  | cons visit front inductionHypothesis =>
      rcases List.forall_mem_cons.mp childless with ⟨here, others⟩
      have none : ipv6VisitRows (G := l2l3) some packetId pkt order visit = [] ∧
          nextSrhOrder (G := l2l3) some order visit.1 = order := by
        rcases visit with ⟨node, place⟩
        cases node <;> first | exact ⟨rfl, rfl⟩ | contradiction
      rw [List.cons_append, ipv6VisitsRows, none.1, none.2, List.nil_append]
      exact inductionHypothesis others

theorem childless_of_link {node : L2L3Node} (link : node.Link) : hasChildren node = false := by
  rcases link with rfl | rfl <;> rfl

theorem childless_envelope (env : Ipv6Envelope) {next : Nat} (bounded : next < 2 ^ 8) :
    ∀ visit ∈ headerVisits off (env.headers next bounded), hasChildren visit.1 = false := by
  intro visit member
  rcases node_of_mem_headerVisits visit member with ⟨header, inside, same⟩
  rw [same]
  rcases List.mem_append.mp inside with link | last
  · exact childless_of_link (env.link.link_of_mem_headers header link)
  · rw [List.mem_singleton.mp last]
    rfl

theorem map_options (packetId : Nat) (container : UInt8) (options : List Ipv6Option) :
    (options.map fun option : Ipv6Option =>
        (⟨option.type, UInt8.ofNat option.value.length⟩ : OptChild)).map
        (ipv6OptRow packetId container) =
      options.map (Ipv6Option.row packetId container.toNat) := by
  rw [List.map_map]
  apply List.map_congr_left
  intro option _
  exact ipv6OptRow_option packetId container option

/-- Where an extension header stands, its rows are those it was built from. -/
theorem ipv6VisitRows_ext (packetId : Nat) (order : UInt8) (ext : ChildExt) {next : Nat}
    (bounded : next < 2 ^ 8) (stands : StandsAt pkt off (ext.ext.header next bounded).encode) :
    ipv6VisitRows (G := l2l3) some packetId pkt order ((ext.ext.header next bounded).node, off) =
      ext.rows packetId order.toNat := by
  have body := Header.standsAt_body stands
  cases ext with
  | hopByHop options hdrExtLen _ filled =>
      rcases leadingReads rfl rfl stands with ⟨-, length⟩
      have children := forEachOpt_encode length body filled
      show (forEachOpt pkt off).map (ipv6OptRow packetId 0) = _
      rw [children]
      exact map_options packetId 0 options
  | destOpt options hdrExtLen _ filled =>
      rcases leadingReads rfl rfl stands with ⟨-, length⟩
      have children := forEachOpt_encode length body filled
      show (forEachOpt pkt off).map (ipv6OptRow packetId 60) = _
      rw [children]
      exact map_options packetId 60 options
  | routing segments tlvs hdrExtLen routingType segmentsLeft flags tag b nonempty filled =>
      rcases leadingReads rfl rfl stands with ⟨-, length⟩
      have last : readUint pkt off Ipv6SrhSpec.lastEntry + 1 = segments.length := by
        have positive := List.length_pos_iff.mpr nonempty
        have value : readUint pkt off Ipv6SrhSpec.lastEntry = segments.length - 1 :=
          FieldValue.uint.inj (readField_of_map (Header.readField_eq stands) 4 rfl rfl)
        omega
      have few := ChildExt.segments_length_lt b.1 filled
      exact map_forEachSrhChild packetId order (by omega) length last body filled
  | childless ext other =>
      cases ext with
      | fragment | ah => rfl
      | hopByHop | destOpt | routing =>
          simp [ExtHeader.protocol] at other

/-- Behind a Routing header the ordinal is one higher. -/
theorem nextSrhOrder_ext (order : UInt8) (ext : ChildExt) {next : Nat} (bounded : next < 2 ^ 8)
    (few : order.toNat + 1 < 256) :
    (nextSrhOrder (G := l2l3) some order (ext.ext.header next bounded).node).toNat =
      if ext.isRouting then order.toNat + 1 else order.toNat := by
  have step : (order + 1).toNat = order.toNat + 1 := by
    rw [UInt8.toNat_add]
    exact Nat.mod_eq_of_lt few
  cases ext with
  | hopByHop | destOpt => rfl
  | routing => exact step
  | childless ext other =>
      cases ext with
      | fragment | ah => rfl
      | hopByHop | destOpt | routing =>
          simp [ExtHeader.protocol] at other

/-- The rows of a chain that stands in the packet are those it was built from,
whatever headers without children are visited behind it. -/
theorem ipv6VisitsRows_chain (packetId : Nat) (order : UInt8) {last : Nat} (bounded : last < 2 ^ 8)
    {exts : List ChildExt} {tail : List (L2L3Node × Nat)} (few : order.toNat + exts.length < 256)
    (stands : StandsAt pkt off
      ((extHeaders bounded (exts.map ChildExt.ext)).flatMap Header.encode))
    (childless : ∀ visit ∈ tail, hasChildren visit.1 = false) :
    ipv6VisitsRows (G := l2l3) some packetId pkt order
        (headerVisits off (extHeaders bounded (exts.map ChildExt.ext)) ++ tail) =
      chainRows packetId order.toNat exts := by
  induction exts generalizing off order with
  | nil =>
      have passed : ipv6VisitsRows (G := l2l3) some packetId pkt order (tail ++ []) = _ :=
        ipv6VisitsRows_append packetId order childless []
      rw [List.append_nil] at passed
      exact passed
  | cons ext exts inductionHypothesis =>
      rw [List.map_cons, extHeaders, List.flatMap_cons] at stands
      rw [List.length_cons] at few
      have next := nextSrhOrder_ext order ext
        (leadProtocol_lt bounded (exts.map ChildExt.ext)) (by omega)
      have rest := inductionHypothesis (nextSrhOrder (G := l2l3) some order
        (ext.ext.header _ (leadProtocol_lt bounded (exts.map ChildExt.ext))).node)
        (by rw [next]; split <;> omega) stands.right
      rw [List.map_cons, extHeaders, headerVisits, List.cons_append, ipv6VisitsRows, rest, next,
        ipv6VisitRows_ext packetId order ext _ stands.left, chainRows]

end Visits

/-! ### The walk over a chain -/

section Walk

variable {pkt : Bytes} {off : Nat}

/-- Headers behind a protocol that is no extension header have no IPv6 children. -/
theorem childless_upper {protocol : Nat} (other : protocol ∉ [0, 43, 44, 51, 60]) (left : Nat) :
    ∀ visit ∈ (walkFrom l2l3 pkt left (ip6NextDispatch protocol) off).visits,
      hasChildren visit.1 = false := by
  have upper : ∀ visit ∈ (walkFrom l2l3 pkt left (ip6NextDispatch protocol) off).visits,
      visit.1 ∈ [L2L3Node.tcp, .udp, .someip] := by
    apply forall_mem_visits_walkFrom (G := l2l3) (P := (· ∈ [L2L3Node.tcp, .udp, .someip]))
    · intro place node target inside edge
      simp only [List.mem_cons, List.not_mem_nil, or_false] at inside ⊢
      rcases inside with rfl | rfl | rfl
      · exact .inr (.inr (someipPortDispatch_eq edge))
      · exact .inr (.inr (someipPortDispatch_eq edge))
      · contradiction
    · intro node named
      have edge := matchEdges_mem named
      simp only [List.mem_cons, Prod.mk.injEq, List.not_mem_nil, or_false, not_or] at edge other ⊢
      rcases edge with hop | routing | fragment | dest | ah | ⟨-, rfl⟩ | ⟨-, rfl⟩
      · exact absurd hop.1 other.1
      · exact absurd routing.1 other.2.1
      · exact absurd fragment.1 other.2.2.1
      · exact absurd dest.1 other.2.2.2.2
      · exact absurd ah.1 other.2.2.2.1
      · exact .inl rfl
      · exact .inr (.inl rfl)
  intro visit member
  have inside := upper visit member
  simp only [List.mem_cons, List.not_mem_nil, or_false] at inside
  rcases inside with same | same | same <;> rw [same] <;> rfl

/-- No header with IPv6 children is visited behind a chain. -/
theorem childless_ending {ending : ChainEnd}
    (stands : StandsAt pkt off (ending.headers.flatMap Header.encode)) (left : Nat) :
    ∀ visit ∈ (walkFrom l2l3 pkt left (ip6NextDispatch ending.protocol) off).visits,
      hasChildren visit.1 = false := by
  cases ending with
  | upper protocol bounded other => exact childless_upper other left
  | laterFragment next reserved fragOffset res2 moreFragments identification b later =>
      have named := (ChainEnd.laterFragment next reserved fragOffset res2 moreFragments
        identification b later).namedChain_headers
      cases left with
      | zero => exact List.forall_mem_nil _
      | succ left =>
          have visited : (walkFrom l2l3 pkt (left + 1) (some .ipv6Fragment) off).visits =
              [(.ipv6Fragment, off)] := by
            have chain := visits_of_namedChain left named stands
            rw [walkFrom_none] at chain
            exact chain
          show ∀ visit ∈ (walkFrom l2l3 pkt (left + 1) (some .ipv6Fragment) off).visits, _
          rw [visited]
          exact List.forall_mem_singleton.mpr rfl

end Walk

theorem length_extHeaders {last : Nat} (bounded : last < 2 ^ 8) (exts : List ExtHeader) :
    (extHeaders bounded exts).length = exts.length := by
  induction exts with
  | nil => rfl
  | cons ext exts inductionHypothesis => exact congrArg (· + 1) inductionHypothesis

/-- Decoding a packet with a chain of extension headers within the step limit
appends the child rows that its options, segments and TLVs stand for. -/
theorem dagDecode_childChain (p : ChildChain) (short : p.headers.length ≤ kMaxWalkSteps)
    (packetId : Nat) (tabs : DagTables l2l3) (kids : Ipv6ChildTables) :
    (dagDecodePacketWithChildren (G := l2l3) some packetId p.bytes tabs kids kEthRoot).2 =
      kids.appendAll (p.rows packetId) := by
  have stands : StandsAt p.bytes 0 (p.headers.flatMap Header.encode) :=
    ⟨[], _, (List.nil_append _).symm, rfl⟩
  have endStands : StandsAt p.bytes (p.headers.flatMap Header.encode).length
      (p.ending.headers.flatMap Header.encode) := StandsAt.mk _ _ _
  rcases Nat.exists_eq_add_of_le' short with ⟨left, steps⟩
  have named : NamedChain p.headers (ip6NextDispatch p.ending.protocol) :=
    p.envelope.namedChain_chain _ p.ending.protocol_lt
  have visited := visits_of_namedChain left named stands
  have lead : firstNode p.headers (ip6NextDispatch p.ending.protocol) = some kEthRoot := rfl
  rw [lead, ← steps, Nat.zero_add] at visited
  have few : (0 : UInt8).toNat + p.exts.length < 256 := by
    rw [ChildChain.headers, Ipv6Envelope.chain, List.length_append, length_extHeaders,
      List.length_map, kMaxWalkSteps] at short
    have zero : (0 : UInt8).toNat = 0 := rfl
    omega
  have chainStands := stands
  rw [ChildChain.headers, Ipv6Envelope.chain, List.flatMap_append] at chainStands
  rw [dagDecodePacketWithChildren_eq, ipv6ChildRows, walk, visited]
  apply congrArg kids.appendAll
  rw [ChildChain.headers, Ipv6Envelope.chain, headerVisits_append, List.append_assoc,
    ipv6VisitsRows_append packetId 0 (childless_envelope p.envelope _)]
  exact ipv6VisitsRows_chain packetId 0 p.ending.protocol_lt few chainStands.right
    (childless_ending endStands left)

/-- Hop-by-Hop options with two pads, a Routing header with a TLV, a first
fragment, a second Routing header with two segments, and Destination Options. -/
def twoRoutingChain : ChildChain where
  envelope := tunnelPacket.envelope
  exts := [.hopByHop [.tlv 5 (List.replicate 18 0) (by decide) (by decide), .pad1, .pad1] 2
      (by decide) (by decide),
    .routing [⟨List.replicate 16 0x30, rfl⟩] [.tlv 5 (List.replicate 6 0) (by decide) (by decide)]
      3 4 1 0 0 (by decide) (by simp) (by decide),
    .childless (.fragment 0 0 1 7 (by decide)) (.inl rfl),
    .routing [⟨List.replicate 16 0x31, rfl⟩, ⟨List.replicate 16 0x32, rfl⟩] [] 4 4 2 0 0
      (by decide) (by simp) (by decide),
    .destOpt [.tlv 1 (List.replicate 20 0) (by decide) (by decide)] 2 (by decide) (by decide)]
  ending := .upper 59 (by decide) (by decide)
  trailing := [0xDE, 0xAD]

theorem dagDecode_childChain_twoRouting :
    let kids := (dagDecodePacketWithChildren (G := l2l3) some 7 twoRoutingChain.bytes (fun _ => [])
      (fun _ => []) kEthRoot).2
    kids = Store.appendAll (fun _ => []) (twoRoutingChain.rows 7) ∧
      kids .srhOrder = [.uint 0, .uint 1, .uint 1] ∧
      kids .containerType = [.uint 0, .uint 0, .uint 0, .uint 43, .uint 60] := by
  have decoded := dagDecode_childChain twoRoutingChain (by decide) 7 (fun _ => []) fun _ => []
  intro kids
  refine ⟨decoded, ?_, ?_⟩
  · exact (congrFun decoded _).trans (by decide +kernel)
  · exact (congrFun decoded _).trans (by decide +kernel)

end Nanotins.Children
