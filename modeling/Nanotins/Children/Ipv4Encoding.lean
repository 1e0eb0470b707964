import Nanotins.Children.Ipv4Children
import Nanotins.Children.Ipv6Encoding
import Nanotins.Children.TlvGrammar
import Nanotins.SpecDag.Frames

/-!
Contract: tabulating the options of IPv4 frames inverts their encoding.

Owns: option lists as they are written, with or without an end mark and padding,
the rows they stand for, and that the serial decoder appends exactly these rows
for a frame that carries them (`dagDecode_ipv4Options`).

Does not own: cut or malformed option lists.
-/

namespace Nanotins.Children

open Nanotins.Library Nanotins.Wire Nanotins.SpecDag

/-! ### Options -/

/-- The options of an IPv4 header; `closing` is the padding behind an end mark. -/
structure Ipv4Options where
  items : List TlvItem
  closing : Option Bytes
  legal : ∀ item ∈ items, item.Legal .ipv4Options

namespace Ipv4Options

variable (options : Ipv4Options)

def encode : Bytes :=
  options.items.flatMap (TlvItem.encode .ipv4Options) ++
    match options.closing with
    | none => []
    | some padding => TlvItem.eool.encode .ipv4Options ++ padding

/-- The records of the list; the end mark is one of them. -/
def records : List TlvItem :=
  options.items ++
    match options.closing with
    | none => []
    | some _ => [.eool]

end Ipv4Options

/-- The row of an option: its type, and its length on the wire. -/
def ipv4ItemRow (packetId : Nat) (item : TlvItem) : Row ipv4ChildSchema where
  table := .opt
  cell
    | .packetId => .uint packetId
    | .optType => .uint item.type.toNat
    | .optLen => .uint (item.encode .ipv4Options).length

def Ipv4Options.rows (options : Ipv4Options) (packetId : Nat) : List (Row ipv4ChildSchema) :=
  options.records.map (ipv4ItemRow packetId)

section Options

variable {pkt : Bytes} {p stop : Nat}

/-- The records of an option list that fills its region are those it was written
from. -/
theorem records_ipv4Options {options : Ipv4Options} (stands : StandsAt pkt p options.encode)
    (fills : p + options.encode.length = stop) :
    (TlvCursor.records pkt ⟨p, stop, .ipv4Options⟩).map (TlvRecord.item pkt) = options.records := by
  have readBy := TlvCursor.readBy pkt .ipv4Options
  have encodes := (encodes_tlvGrammar_iff .ipv4Options options.items _).mpr ⟨options.legal, rfl⟩
  have region : TlvCursor.region pkt ⟨p, stop, .ipv4Options⟩ = options.encode := by
    rw [TlvCursor.region, ← fills, Nat.add_sub_cancel_left]
    exact stands.readBytes_eq
  obtain ⟨taken, final, walk, shown⟩ : ∃ taken final,
      Walk (TlvCursor.next pkt) ⟨p, stop, .ipv4Options⟩ taken final ∧
        taken.map (TlvRecord.item pkt) = options.records := by
    rw [Ipv4Options.encode] at region
    rw [Ipv4Options.records]
    cases closing : options.closing with
    | none =>
        rw [closing] at region
        exact readBy.walk_of_encodes encodes readBy.walk_of_nil rfl region
    | some padding =>
        rw [closing] at region
        exact readBy.walk_of_encodes encodes (readBy.walk_of_closing ⟨rfl, rfl, rfl⟩) rfl region
  rw [TlvCursor.records_of_walk walk, shown]

/-- A child is what its record says. -/
theorem ipv4OptRow_item (packetId : Nat) {record : TlvRecord}
    (short : ∀ value, record.value = some value → record.length.toNat ≤ 253) :
    ipv4OptRow packetId ⟨record.type, if record.value = none then 1 else record.length + 2⟩ =
      ipv4ItemRow packetId (record.item pkt) := by
  rw [ipv4OptRow, ipv4ItemRow]
  congr 1
  funext col
  cases col with
  | packetId | optType => rfl
  | optLen =>
      cases value : record.value with
      | none => simp [TlvRecord.item, TlvItem.encode, value]
      | some place =>
          have below := short place value
          have width : (record.length + 2).toNat = record.length.toNat + 2 := by
            rw [UInt8.toNat_add]
            exact Nat.mod_eq_of_lt (by simp; omega)
          simp [TlvRecord.item, TlvItem.encode, value, width]

/-- The values of the records fit their length octets. -/
theorem value_length_le (options : Ipv4Options) :
    ∀ item ∈ options.records, ∀ value, item.value = some value → value.length ≤ 253 := by
  refine List.forall_mem_append.mpr ⟨fun item member value some => ?_, ?_⟩
  · obtain ⟨type, content⟩ := item
    obtain rfl : content = .some value := some
    exact (options.legal _ member).2
  · cases options.closing with
    | none => exact List.forall_mem_nil _
    | some padding =>
        refine List.forall_mem_singleton.mpr fun value some => ?_
        exact absurd some (Option.some_ne_none value).symm

theorem records_eq_nil {options : Ipv4Options} (empty : options.encode.length = 0) :
    options.records = [] := by
  rw [List.length_eq_zero_iff, Ipv4Options.encode, List.append_eq_nil_iff] at empty
  have nonempty : ∀ item, TlvItem.encode .ipv4Options item ≠ [] := by
    rintro ⟨type, value | value⟩ <;> exact List.cons_ne_nil _ _
  have items : options.items = [] := by
    cases items : options.items with
    | nil => rfl
    | cons item items =>
        rw [items, List.flatMap_cons, List.append_eq_nil_iff] at empty
        exact absurd empty.1.1 (nonempty item)
  rw [Ipv4Options.records, items]
  cases closing : options.closing with
  | none => rfl
  | some padding =>
      rw [closing] at empty
      exact absurd empty.2 (List.cons_ne_nil _ _)

/-- The rows of the options of a header are those they were written from. -/
theorem map_forEachIpv4Opt {off : Nat} {ip : Ipv4Header} {protocol : Nat}
    {bounded : protocol < 2 ^ 8} {options : Ipv4Options} (written : ip.options = options.encode)
    (packetId : Nat) (stands : StandsAt pkt off (ip.header protocol bounded).encode) :
    (forEachIpv4Opt pkt off).map (ipv4OptRow packetId) = options.rows packetId := by
  have words : readUint pkt off Ipv4Spec.ihl = ip.ihl :=
    FieldValue.uint.inj (readField_of_map (Header.readField_eq stands) 1 rfl rfl)
  have body : StandsAt pkt (off + 20) options.encode := by
    have behind := Header.standsAt_body stands
    change StandsAt pkt (off + specSize L2L3Node.ipv4.spec) ip.options at behind
    rwa [specSize_ipv4, written] at behind
  have whole := ip.whole
  rw [written] at whole
  have inside := body.length_le
  have uncut : clampEnd (off + ip.ihl * 4) pkt.length = off + ip.ihl * 4 := if_pos (by omega)
  rw [forEachIpv4Opt_eq, words]
  dsimp only
  rw [uncut]
  split
  · rw [Ipv4Options.rows, records_eq_nil (by omega)]
    rfl
  · have read : (TlvCursor.records pkt ⟨off + 20, off + ip.ihl * 4, .ipv4Options⟩).map
        (TlvRecord.item pkt) = options.records := records_ipv4Options body (by omega)
    rw [if_neg (by omega), List.map_map, Ipv4Options.rows, ← read, List.map_map]
    refine List.map_congr_left fun record member => ?_
    apply ipv4OptRow_item
    intro value some
    have item : record.item pkt ∈ options.records := by
      rw [← read]
      exact List.mem_map_of_mem member
    have shown : (record.item pkt).value = .some (readBytes pkt value record.length.toNat) := by
      rw [TlvRecord.item, some]
      rfl
    have short := value_length_le options _ item _ shown
    rwa [length_readBytes] at short

end Options

/-! ### Frames -/

section Frames

variable {pkt : Bytes} {off : Nat}

/-- Headers that are no IPv4 headers have no options here. -/
theorem ipv4Rows_of_other (packetId : Nat) {headers : List Header}
    (other : ∀ header ∈ headers, header.node ≠ .ipv4) :
    (headerVisits off headers).flatMap (ipv4VisitRows (G := l2l3) some packetId pkt) = [] := by
  rw [List.flatMap_eq_nil_iff]
  intro visit member
  obtain ⟨header, inside, same⟩ := node_of_mem_headerVisits visit member
  apply if_neg
  rw [same]
  exact fun ipv4 => other header inside (Option.some.inj ipv4)

/-- The rows of headers among which there is one IPv4 header. -/
theorem ipv4Rows_of_header (packetId : Nat) {front back : List Header} {ip : Ipv4Header}
    {protocol : Nat} {bounded : protocol < 2 ^ 8} {options : Ipv4Options}
    (written : ip.options = options.encode)
    (before : ∀ header ∈ front, header.node ≠ .ipv4)
    (behind : ∀ header ∈ back, header.node ≠ .ipv4)
    (stands : StandsAt pkt off
      ((front ++ ip.header protocol bounded :: back).flatMap Header.encode)) :
    (headerVisits off (front ++ ip.header protocol bounded :: back)).flatMap
        (ipv4VisitRows (G := l2l3) some packetId pkt) =
      options.rows packetId := by
  rw [List.flatMap_append, List.flatMap_cons] at stands
  have here := map_forEachIpv4Opt written packetId stands.right.left
  rw [headerVisits_append, headerVisits, List.flatMap_append, ipv4Rows_of_other packetId before,
    List.flatMap_cons, ipv4Rows_of_other packetId behind, List.nil_append, List.append_nil, ← here]
  exact if_pos rfl

theorem not_ipv4_of_link {node : L2L3Node} (link : node.Link) : node ≠ .ipv4 := by
  rcases link with rfl | rfl <;> exact nofun

theorem node_linkHeaders (link : LinkLayer) : ∀ header ∈ link.headers, header.node ≠ .ipv4 :=
  fun header member => not_ipv4_of_link (link.link_of_mem_headers header member)

theorem node_extHeaders {last : Nat} (bounded : last < 2 ^ 8) (exts : List ExtHeader) :
    ∀ header ∈ extHeaders bounded exts, header.node ≠ .ipv4 := by
  induction exts with
  | nil => exact List.forall_mem_nil _
  | cons ext exts inductionHypothesis =>
      refine List.forall_mem_cons.mpr ⟨?_, inductionHypothesis⟩
      cases ext <;> exact nofun

/-- An IPv6 chain has no IPv4 header. -/
theorem node_chain (envelope : Ipv6Envelope) (exts : List ExtHeader) {last : Nat}
    (bounded : last < 2 ^ 8) : ∀ header ∈ envelope.chain exts bounded, header.node ≠ .ipv4 := by
  refine List.forall_mem_append.mpr ⟨List.forall_mem_append.mpr ⟨?_, ?_⟩, ?_⟩
  · exact node_linkHeaders envelope.link
  · exact List.forall_mem_singleton.mpr nofun
  · exact node_extHeaders bounded exts

theorem node_endHeaders (ending : ChainEnd) : ∀ header ∈ ending.headers, header.node ≠ .ipv4 := by
  cases ending with
  | upper => exact List.forall_mem_nil _
  | laterFragment => exact List.forall_mem_singleton.mpr nofun

theorem node_upperHeaders (transport : Transport) (upper : Upper) :
    ∀ header ∈ transport.header :: upper.headers, header.node ≠ .ipv4 := by
  refine List.forall_mem_cons.mpr ⟨?_, ?_⟩
  · obtain ⟨l4, options, whole⟩ := transport
    cases l4 <;> exact nofun
  · cases upper with
    | someip header => exact List.forall_mem_singleton.mpr nofun
    | data => exact List.forall_mem_nil _

end Frames

/-- The option bytes of a frame's IPv4 header, if it has one. -/
def ipv4OptionBytes : L2L3Frame → Bytes
  | .transport (.ipv4 _ ip _ _) _ _ _ _ => ip.options
  | .transport (.ipv6 _ _) _ _ _ _ => []
  | .unread _ ip _ _ _ _ _ => ip.options
  | .unreadIpv6 .. => []

/-- Without an IPv4 header nothing is tabulated. -/
theorem ipv4Rows_without (packetId : Nat) {pkt : Bytes} {headers : List Header}
    {options : Ipv4Options} (written : [] = options.encode)
    (none : ∀ header ∈ headers, header.node ≠ .ipv4) :
    (headerVisits 0 headers).flatMap (ipv4VisitRows (G := l2l3) some packetId pkt) =
      options.rows packetId := by
  rw [Ipv4Options.rows, records_eq_nil (congrArg List.length written.symm)]
  exact ipv4Rows_of_other packetId none

theorem ipv4Rows_frame (packetId : Nat) {frame : L2L3Frame} {options : Ipv4Options}
    (written : ipv4OptionBytes frame = options.encode) :
    (headerVisits 0 frame.headers).flatMap
        (ipv4VisitRows (G := l2l3) some packetId frame.bytes) = options.rows packetId := by
  have stands := frame.stands
  cases frame with
  | transport network transport upper payload ports =>
      have behind := node_upperHeaders transport upper
      cases network with
      | ipv4 link ip announced first =>
          rw [L2L3Frame.headers, Network.headers, List.append_assoc] at stands ⊢
          exact ipv4Rows_of_header packetId written (node_linkHeaders link) behind stands
      | ipv6 envelope exts =>
          apply ipv4Rows_without packetId written
          exact List.forall_mem_append.mpr ⟨node_chain envelope exts _, behind⟩
  | unread link ip protocol payload announced bounded stops =>
      exact ipv4Rows_of_header packetId written (node_linkHeaders link) (List.forall_mem_nil _)
        stands
  | unreadIpv6 envelope exts ending payload stops =>
      apply ipv4Rows_without packetId written
      exact List.forall_mem_append.mpr ⟨node_chain envelope exts _, node_endHeaders ending⟩

/-- Decoding a frame within the step limit fills the node tables as without options,
and appends a row for each option that its IPv4 header was written with. -/
theorem dagDecode_ipv4Options (frame : L2L3Frame) (options : Ipv4Options)
    (written : ipv4OptionBytes frame = options.encode)
    (short : frame.headers.length ≤ kMaxWalkSteps)
    (packetId : Nat) (tabs : DagTables l2l3) (kids : Ipv4ChildTables) :
    let decoded := dagDecodePacketWithIpv4Children (G := l2l3) some packetId frame.bytes tabs kids
      kEthRoot
    (∀ col, decoded.1 col = tabs col ++ cellsOf col (frame.headers.map (headerRow packetId))) ∧
      decoded.2 = kids.appendAll (options.rows packetId) := by
  dsimp only
  rw [dagDecodePacketWithIpv4Children_eq, ipv4ChildRows, L2L3Frame.visits_eq short,
    ipv4Rows_frame packetId written]
  exact ⟨L2L3Frame.decode_eq short packetId tabs, rfl⟩

/-- A record-route option and an end mark in an IPv4 frame that carries ICMP. -/
theorem dagDecode_ipv4Options_icmp :
    ∃ frame : L2L3Frame, ipv4OptionBytes frame = [7, 3, 4, 0] ∧
      let kids := (dagDecodePacketWithIpv4Children (G := l2l3) some 5 frame.bytes (fun _ => [])
        (fun _ => []) kEthRoot).2
      kids .optType = [.uint 7, .uint 0] ∧ kids .optLen = [.uint 3, .uint 1] := by
  let options : Ipv4Options :=
    ⟨[⟨7, some [4]⟩], some [], List.forall_mem_singleton.mpr ⟨by decide, by decide⟩⟩
  let ip : Ipv4Header :=
    ⟨4, 6, 0, 0, 24, 7, 0, 0, 64, 0, [10, 0, 0, 1], [10, 0, 0, 2], options.encode, by decide,
      by decide, by decide, by decide, by decide, by decide, by decide, by decide, by decide,
      by decide, rfl, rfl, rfl⟩
  let link : LinkLayer := ⟨List.replicate 6 1, List.replicate 6 2, [], 0x0800, rfl, rfl, by decide⟩
  let frame : L2L3Frame := .unread link ip 1 [] rfl (by decide) (.inr (by decide))
  have decoded :=
    (dagDecode_ipv4Options frame options rfl (by decide) 5 (fun _ => []) fun _ => []).2
  refine ⟨frame, rfl, ?_, ?_⟩
  · exact (congrFun decoded _).trans rfl
  · exact (congrFun decoded _).trans rfl

end Nanotins.Children
