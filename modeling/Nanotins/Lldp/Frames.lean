import Nanotins.Lldp.Contents
import Nanotins.SpecDag.LinkLayer

/-!
Contract: what the LLDP tool makes of Ethernet traffic.

Owns: the rules of the example, what they call on a frame with any VLAN tags, and
that an engine with these rules lists the contents of the LLDP frames it sees, and
nothing else (`lldpTable_eq`).

Does not own: frames with more headers than a walk takes.
-/

namespace Nanotins.Lldp

open Nanotins.Library Nanotins.Wire Nanotins.SpecDag Nanotins.Dpar

def kLldpEtherType : Nat := 0x88CC

/-- The rules of `rules.example.txt`, without its comments. -/
def exampleRules : Text :=
  ("eth.ethertype == 0x88CC        => lldp eth_payload  \"lldp\"\n" ++
    "vlan.inner_ethertype == 0x88CC => lldp vlan_payload \"lldp\"\n").toList

/-- The rule for frames without a VLAN tag. -/
def untaggedRule : Rule where
  preds := [⟨⟨0, 12, 2, true, false, 0, 0⟩, .eq, 0x88CC⟩]
  region := ⟨.ethPayload, 0⟩
  name := "lldp".toList

/-- The rule for frames with VLAN tags. -/
def taggedRule : Rule where
  preds := [⟨⟨1, 2, 2, true, false, 0, 0⟩, .eq, 0x88CC⟩]
  region := ⟨.vlanPayload, 1⟩
  ruleId := 1
  priority := 1
  name := "lldp".toList

theorem exampleRules_ok :
    (compileRules exampleRules buildL2l3Catalog LldpPalette.names).ok = true ∧
      (compileRules exampleRules buildL2l3Catalog LldpPalette.names).rules =
        [untaggedRule, taggedRule] := by
  decide +kernel

theorem wellFormed_exampleRules :
    untaggedRule.WellFormed LldpPalette.names.length ∧
      taggedRule.WellFormed LldpPalette.names.length := by
  have rules := (wellFormed_of_compiled exampleRules_ok.1).1
  rw [exampleRules_ok.2] at rules
  exact ⟨rules _ (by simp), rules _ (by simp)⟩

/-! ### The link layer that rules see -/

section LinkLayer

variable {pkt : Bytes} {off : Nat}

theorem lastOffset_append_of_link {node : L2L3Node} (link : node.Link)
    (visits : List (L2L3Node × Nat)) {behind : List (L2L3Node × Nat)}
    (above : ∀ visit ∈ behind, ¬ visit.1.Link) :
    lastOffset (visits ++ behind) node = lastOffset visits node := by
  have none : behind.filter (fun visit => visit.1 = node) = [] := by
    rw [List.filter_eq_nil_iff]
    intro visit member same
    rw [decide_eq_true_eq] at same
    exact above visit member (same ▸ link)
  rw [lastOffset, lastOffset, List.filter_append, none, List.append_nil]

/-- VLAN tags are no Ethernet headers. -/
theorem filter_eth_tagHeaders {ethertype : Nat} (bounded : ethertype < 2 ^ 16)
    (tags : List VlanTag) (off : Nat) :
    (headerVisits off (tagHeaders bounded tags)).filter (fun visit => visit.1 = .eth) = [] := by
  induction tags generalizing off with
  | nil => rfl
  | cons tag tags inductionHypothesis => exact inductionHypothesis _

/-- The last VLAN tag stands right before the payload and has its ethertype. -/
theorem lastTag {ethertype : Nat} (bounded : ethertype < 2 ^ 16) {tags : List VlanTag}
    (tagged : tags ≠ [])
    (stands : StandsAt pkt off ((tagHeaders bounded tags).flatMap Header.encode)) :
    ∃ place, lastOffset (headerVisits off (tagHeaders bounded tags)) .vlan = some place ∧
      place + 4 = off + 4 * tags.length ∧
      readUint pkt place VlanTagSpec.innerEthertype = ethertype := by
  induction tags generalizing off with
  | nil => exact absurd rfl tagged
  | cons tag tags inductionHypothesis =>
      rw [tagHeaders, List.flatMap_cons] at stands
      cases tags with
      | nil =>
          have innerRead : readField pkt off VlanTagSpec.innerEthertype = .uint ethertype :=
            readField_of_map (Header.readField_eq stands.left) 3 rfl rfl
          exact ⟨off, rfl, rfl, readUint_of_readField innerRead⟩
      | cons next tags =>
          obtain ⟨place, last, before, inner⟩ :=
            inductionHypothesis (List.cons_ne_nil _ _) stands.right
          refine ⟨place, ?_, ?_, inner⟩
          · rw [tagHeaders, headerVisits, ← List.singleton_append, lastOffset, List.filter_append]
            obtain ⟨visit, found, rfl⟩ := Option.map_eq_some_iff.mp last
            rw [List.getLast?_append, found]
            rfl
          · rw [VlanTag.length_header] at before
            rw [List.length_cons]
            omega

variable (layer : LinkLayer) (payload : Bytes)

/-- Where rules find the link headers of a frame, and what they read there. -/
theorem linkOffsets (short : layer.tags.length < kMaxWalkSteps)
    (inner : layer.ethertype ≠ 0x8100 ∧ layer.ethertype ≠ 0x88A8) :
    let visits := (walk l2l3 kEthRoot (layer.frame payload)).visits
    lastOffset visits .eth = some 0 ∧
      readUint (layer.frame payload) 0 EthernetSpec.ethertype =
        outerEthertype layer.ethertype layer.tags ∧
      (layer.tags = [] → lastOffset visits .vlan = none) ∧
      (layer.tags ≠ [] → ∃ place, lastOffset visits .vlan = some place ∧
        place + 4 = layer.length ∧
        readUint (layer.frame payload) place VlanTagSpec.innerEthertype = layer.ethertype) := by
  intro visits
  have stands : StandsAt (layer.frame payload) 0 (layer.headers.flatMap Header.encode) :=
    ⟨[], payload, (List.nil_append _).symm, rfl⟩
  obtain ⟨left, steps⟩ := Nat.exists_eq_add_of_le' short
  have visited := layer.visits_eq payload steps
  have size : layer.ethHeader.encode.length = 14 := by
    rw [Header.length_encode]
    exact (by decide : specSize L2L3Node.eth.spec + 0 = 14)
  have last : ∀ {node : L2L3Node}, node.Link →
      lastOffset visits node = lastOffset (headerVisits 0 layer.headers) node := by
    intro node link
    change lastOffset (walk l2l3 kEthRoot (layer.frame payload)).visits node = _
    rw [visited]
    exact lastOffset_append_of_link link _ (not_link_of_mem_visits inner)
  rw [last (.inl rfl), last (.inr rfl), LinkLayer.headers]
  rw [LinkLayer.headers, List.flatMap_cons] at stands
  refine ⟨?_, ?_, ?_, ?_⟩
  · rw [headerVisits, ← List.singleton_append, lastOffset, List.filter_append,
      filter_eth_tagHeaders]
    rfl
  · have ethertypeRead : readField (layer.frame payload) 0 EthernetSpec.ethertype =
        .uint (outerEthertype layer.ethertype layer.tags) :=
      readField_of_map (Header.readField_eq stands.left) 2 rfl rfl
    exact readUint_of_readField ethertypeRead
  · intro untagged
    rw [untagged]
    rfl
  · intro tagged
    obtain ⟨place, found, before, read⟩ :=
      lastTag layer.ethertype_lt tagged stands.right
    rw [size] at before
    refine ⟨place, ?_, by rw [before, LinkLayer.length, Nat.zero_add], read⟩
    rw [headerVisits, ← found, lastOffset, lastOffset, List.filter_cons_of_neg
      (by simp [LinkLayer.ethHeader])]

end LinkLayer

/-! ### The calls on a frame -/

section Calls

variable {pkt : Bytes} {place : Nat}

/-- A predicate on a link header compares what the last of these headers says. -/
theorem holds_iff (pkt : Bytes) {ref : FieldRef} {node : L2L3Node} {field : Field}
    (refers : RefersTo ref node field) (operand : Nat) :
    Holds pkt ⟨ref, .eq, operand⟩ ↔
      ∃ place, lastOffset (walk l2l3 kEthRoot pkt).visits node = some place ∧
        readUint pkt place field = operand := by
  rw [holds_iff_of_refersTo refers]
  simp only [CmpOp.holds, Option.mem_def, beq_iff_eq, Int.ofNat_inj]

/-- A region of fixed distance from its anchor ends with the packet. -/
theorem resolves_of_found {rs : RegionSel} {distance : Nat}
    (starts : rs.kind.start pkt place = place + distance)
    (ends : rs.kind.stop pkt place = pkt.length)
    (found : lastOffset (walk l2l3 kEthRoot pkt).visits rs.kind.anchor = some place)
    (inside : place + distance ≤ pkt.length) :
    Resolves pkt rs (place + distance, pkt.length) := by
  refine ⟨place, found, ?_, ?_⟩
  · rwa [starts]
  · rw [starts, ends]

theorem refersTo_ethertype : RefersTo ⟨0, 12, 2, true, false, 0, 0⟩ .eth EthernetSpec.ethertype :=
  ⟨by decide, rfl, rfl, rfl, rfl, rfl⟩

theorem refersTo_innerEthertype :
    RefersTo ⟨1, 2, 2, true, false, 0, 0⟩ .vlan VlanTagSpec.innerEthertype :=
  ⟨by decide, rfl, rfl, rfl, rfl, rfl⟩

variable (layer : LinkLayer) (payload : Bytes) (pid : Nat)

theorem length_frame : (layer.frame payload).length = layer.length + payload.length := by
  rw [LinkLayer.frame, List.length_append, LinkLayer.length_encode]

/-- The id of the example's rule for a frame with these tags. -/
def ruleIdOf (tags : List VlanTag) : Nat := if tags = [] then 0 else 1

theorem callOf_of_not_holds {pkt : DagPacket} {rule : Rule} {palette : Nat} {pr : Predicate}
    (wellFormed : rule.WellFormed palette) (asked : pr ∈ rule.preds)
    (false : ¬ Holds pkt.data pr) : callOf pkt rule = none := by
  rw [Option.eq_none_iff_forall_ne_some]
  intro call made
  exact false (((callOf_eq_some_iff wellFormed).mp made).1 pr asked)

theorem callOf_of_holds {pkt : DagPacket} {rule : Rule} {palette : Nat} {pr : Predicate}
    {first last : Nat} (wellFormed : rule.WellFormed palette) (asked : rule.preds = [pr])
    (holds : Holds pkt.data pr) (resolves : Resolves pkt.data rule.region (first, last)) :
    callOf pkt rule = some ⟨rule.parserKind, pkt.packetId, rule.ruleId, first, last⟩ := by
  rw [callOf_eq_some_iff wellFormed, asked]
  exact ⟨List.forall_mem_singleton.mpr holds, (first, last), resolves, rfl⟩

theorem callOf_untagged (short : layer.tags.length < kMaxWalkSteps)
    (inner : layer.ethertype ≠ 0x8100 ∧ layer.ethertype ≠ 0x88A8) :
    callOf ⟨layer.frame payload, pid⟩ untaggedRule =
      if layer.tags = [] ∧ layer.ethertype = kLldpEtherType then
        some ⟨0, pid, 0, layer.length, (layer.frame payload).length⟩
      else none := by
  obtain ⟨found, outer, -, -⟩ := linkOffsets layer payload short inner
  have holds := holds_iff (layer.frame payload) refersTo_ethertype kLldpEtherType
  split
  · next lldp =>
    have start : layer.length = 0 + 14 := by rw [LinkLayer.length, lldp.1, List.length_nil]
    have inside : 0 + 14 ≤ (layer.frame payload).length := by
      rw [length_frame, start]
      exact Nat.le_add_right _ _
    have resolves : Resolves (layer.frame payload) untaggedRule.region _ :=
      resolves_of_found (RegionKind.start_ethPayload _ _)
        (RegionKind.stop_ethPayload _ _) found inside
    rw [lldp.1, outerEthertype] at outer
    rw [start]
    exact callOf_of_holds wellFormed_exampleRules.1 rfl
      (holds.mpr ⟨0, found, outer.trans lldp.2⟩) resolves
  · next other =>
    apply callOf_of_not_holds wellFormed_exampleRules.1 (List.mem_singleton_self _)
    refine mt holds.mp ?_
    rintro ⟨place, again, read⟩
    rw [found, Option.some.injEq] at again
    rw [← again, outer] at read
    cases tags : layer.tags with
    | nil =>
        rw [tags] at read
        exact other ⟨tags, read⟩
    | cons tag _ =>
        rw [tags, outerEthertype] at read
        rcases tag.tpid_eq with same | same <;> rw [same] at read <;> exact absurd read (by decide)

theorem callOf_tagged (short : layer.tags.length < kMaxWalkSteps)
    (inner : layer.ethertype ≠ 0x8100 ∧ layer.ethertype ≠ 0x88A8) :
    callOf ⟨layer.frame payload, pid⟩ taggedRule =
      if layer.tags ≠ [] ∧ layer.ethertype = kLldpEtherType then
        some ⟨0, pid, 1, layer.length, (layer.frame payload).length⟩
      else none := by
  obtain ⟨-, -, untagged, tagged⟩ := linkOffsets layer payload short inner
  have holds := holds_iff (layer.frame payload) refersTo_innerEthertype kLldpEtherType
  split
  · next lldp =>
    obtain ⟨place, found, before, said⟩ := tagged lldp.1
    have inside : place + 4 ≤ (layer.frame payload).length := by
      rw [length_frame, before]
      exact Nat.le_add_right _ _
    have resolves : Resolves (layer.frame payload) taggedRule.region _ :=
      resolves_of_found (RegionKind.start_vlanPayload _ _)
        (RegionKind.stop_vlanPayload _ _) found inside
    rw [← before]
    exact callOf_of_holds wellFormed_exampleRules.2 rfl
      (holds.mpr ⟨place, found, said.trans lldp.2⟩) resolves
  · next other =>
    apply callOf_of_not_holds wellFormed_exampleRules.2 (List.mem_singleton_self _)
    refine mt holds.mp ?_
    rintro ⟨place, again, read⟩
    by_cases none : layer.tags = []
    · rw [untagged none] at again
      exact Option.some_ne_none _ again.symm
    · obtain ⟨last, found, -, said⟩ := tagged none
      rw [found, Option.some.injEq] at again
      rw [← again, said] at read
      exact other ⟨none, read⟩

/-- The rules of the example call the parser once on an LLDP frame, for its
payload, and never on another. -/
theorem calls_frame (short : layer.tags.length < kMaxWalkSteps)
    (inner : layer.ethertype ≠ 0x8100 ∧ layer.ethertype ≠ 0x88A8) :
    [untaggedRule, taggedRule].filterMap (callOf ⟨layer.frame payload, pid⟩) =
      if layer.ethertype = kLldpEtherType then
        [⟨0, pid, ruleIdOf layer.tags, layer.length, (layer.frame payload).length⟩]
      else [] := by
  have first := callOf_untagged layer payload pid short inner
  have second := callOf_tagged layer payload pid short inner
  by_cases lldp : layer.ethertype = kLldpEtherType
  · rw [if_pos lldp, ruleIdOf]
    by_cases none : layer.tags = []
    · rw [if_pos ⟨none, lldp⟩] at first
      rw [if_neg (fun tagged => tagged.1 none)] at second
      rw [List.filterMap_cons_some first, List.filterMap_cons_none second, if_pos none,
        List.filterMap_nil]
    · rw [if_neg (fun untagged => none untagged.1)] at first
      rw [if_pos ⟨none, lldp⟩] at second
      rw [List.filterMap_cons_none first, List.filterMap_cons_some second, if_neg none,
        List.filterMap_nil]
  · rw [if_neg (fun called => lldp called.2)] at first second
    rw [if_neg lldp, List.filterMap_cons_none first, List.filterMap_cons_none second,
      List.filterMap_nil]

end Calls

/-! ### Traffic -/

/-- A frame with an LLDPDU, which `left` ends. -/
structure LldpFrame where
  link : LinkLayer
  infos : List LldpInfo
  left : Bytes
  ethertype : link.ethertype = kLldpEtherType
  short : link.tags.length < kMaxWalkSteps
  legal : ∀ info ∈ infos, info.Legal
  ended : EndsLldpdu left

/-- A frame with any other payload. -/
structure OtherFrame where
  link : LinkLayer
  payload : Bytes
  ethertype : link.ethertype ∉ [0x8100, 0x88A8, kLldpEtherType]
  short : link.tags.length < kMaxWalkSteps

inductive Frame where
  | lldp (frame : LldpFrame)
  | other (frame : OtherFrame)

namespace Frame

def bytes : Frame → Bytes
  | lldp frame => frame.link.frame (lldpdu frame.infos ++ frame.left)
  | other frame => frame.link.frame frame.payload

/-- The rows that the frame should have. -/
def rows (pid : Nat) : Frame → List LldpTlvRow
  | lldp frame => LldpInfo.rows pid (ruleIdOf frame.link.tags) 0 0 frame.infos
  | other _ => []

end Frame

section Traffic

variable (pid : Nat)

/-- A packet of the traffic. -/
def packetOf (sent : Nat × Frame) : DagPacket := ⟨sent.2.bytes, sent.1⟩

theorem region_frame (link : LinkLayer) (payload : Bytes) :
    LldpCursor.region (link.frame payload) ⟨link.length, (link.frame payload).length⟩ = payload := by
  have stands : StandsAt (link.frame payload) link.length payload :=
    ⟨link.headers.flatMap Header.encode, [], by rw [List.append_nil, LinkLayer.frame],
      link.length_encode⟩
  rw [LldpCursor.region, length_frame, Nat.add_sub_cancel_left]
  exact stands.readBytes_eq

/-- A call of the only Kind adds its rows to the only table. -/
theorem rowsAt_lldp (pkt : Bytes) (ruleId first last : Nat) :
    LldpPalette.rowsAt ⟨0, Nat.one_pos⟩ (pkt, ⟨0, pid, ruleId, first, last⟩) =
      lldpRows pid ruleId pkt first last :=
  rfl

theorem rowsAt_frame (frame : Frame) :
    (callsOf [untaggedRule, taggedRule] (.run (packetOf (pid, frame)))).flatMap
        (LldpPalette.rowsAt ⟨0, Nat.one_pos⟩) =
      frame.rows pid := by
  rw [callsOf, packetOf]
  cases frame with
  | lldp frame =>
      have inner : frame.link.ethertype ≠ 0x8100 ∧ frame.link.ethertype ≠ 0x88A8 := by
        rw [frame.ethertype]
        exact ⟨by decide, by decide⟩
      rw [Frame.bytes, calls_frame frame.link _ pid frame.short inner, if_pos frame.ethertype,
        List.map_singleton, List.flatMap_singleton, rowsAt_lldp, Frame.rows]
      exact lldpRows_of_region _ _ frame.legal frame.ended (region_frame frame.link _)
  | other frame =>
      have none := frame.ethertype
      rw [List.mem_cons, List.mem_cons, List.mem_singleton, not_or, not_or] at none
      rw [Frame.bytes, calls_frame frame.link frame.payload pid frame.short ⟨none.1, none.2.1⟩,
        if_neg none.2.2]
      rfl

theorem callsMade_traffic (frames : List (Nat × Frame)) :
    (callsMade LldpPalette buildL2l3Catalog [untaggedRule, taggedRule]
        (frames.map fun sent => .run (packetOf sent))).flatMap
          (LldpPalette.rowsAt ⟨0, Nat.one_pos⟩) =
      frames.flatMap fun sent => sent.2.rows sent.1 := by
  induction frames with
  | nil => rfl
  | cons sent frames inductionHypothesis =>
      rw [List.map_cons, callsMade, List.flatMap_append, List.flatMap_cons]
      exact congrArg₂ List.append (rowsAt_frame sent.1 sent.2) inductionHypothesis

/-- The tool lists the contents of all LLDP frames of the traffic, tagged or not,
and nothing else. -/
theorem lldpTable_eq (frames : List (Nat × Frame)) :
    ∃ engine, Engine.after LldpPalette buildL2l3Catalog
        (.loadRules exampleRules :: frames.map fun sent => .run (packetOf sent)) = some engine ∧
      LldpPalette.table engine.tables ⟨0, Nat.one_pos⟩ =
        frames.flatMap fun sent => sent.2.rows sent.1 := by
  obtain ⟨engine, reached, tables⟩ := exists_after lldpPalette_appends
    (.loadRules exampleRules :: frames.map fun sent => .run (packetOf sent))
  have loaded : rulesAfter LldpPalette buildL2l3Catalog [] (.loadRules exampleRules) =
      [untaggedRule, taggedRule] := by
    rw [rulesAfter, if_pos exampleRules_ok.1, exampleRules_ok.2]
  refine ⟨engine, reached, ?_⟩
  rw [tables, callsMade, loaded, callsOf, List.nil_append]
  exact callsMade_traffic frames

/-- A TTL behind VLAN tags. -/
def trunkFrame : LldpFrame where
  link := doubleTagged kLldpEtherType (by decide)
  infos := [.ttl 120]
  left := [0, 0]
  ethertype := rfl
  short := by decide
  legal := by decide
  ended := by decide

example : ((Frame.lldp trunkFrame).rows 9).map (fun row => (row.packetId, row.ruleId, row.ttlSeconds)) =
    [(9, 1, 120)] := by
  decide +kernel

end Traffic

end Nanotins.Lldp
