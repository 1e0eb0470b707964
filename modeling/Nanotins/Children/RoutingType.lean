import Nanotins.Children.Bulk

/-!
Contract: which rows come from Routing headers that are not segment routing
headers.

Owns: the rows of a packet without those of other routing types, and that the
serial and the bulk decoder leave them out exactly when every such header is too
short for a segment (`rowsFromSrv6Only_iff`).

Does not own: what the rows of a segment routing header are.
-/

namespace Nanotins.Children

open Nanotins.Library Nanotins.Wire Nanotins.SpecDag

/-! ### Rows of segment routing headers -/

section Srv6

variable {G : Graph Id} (nodeType : G.Node → Option L2L3Node) (packetId : Nat) (pkt : Bytes)

/-- A visited Routing header of another type than 4. -/
def OtherRouting (visit : G.Node × Nat) : Prop :=
  nodeType visit.1 = some .ipv6Routing ∧ readUint pkt visit.2 Ipv6SrhSpec.routingType ≠ 4

instance (visit : G.Node × Nat) : Decidable (OtherRouting nodeType pkt visit) :=
  inferInstanceAs (Decidable (_ ∧ _))

/-- The rows of the visits, those of other routing types left out. -/
def srv6VisitsRows : UInt8 → List (G.Node × Nat) → List (Row ipv6ChildSchema)
  | _, [] => []
  | order, visit :: visits =>
      (if OtherRouting nodeType pkt visit then []
        else ipv6VisitRows nodeType packetId pkt order visit) ++
        srv6VisitsRows (nextSrhOrder nodeType order visit.1) visits

/-- The child rows of a packet when only headers of routing type 4 have segments
and TLVs. -/
def srv6ChildRows (root : G.Node) : List (Row ipv6ChildSchema) :=
  srv6VisitsRows nodeType packetId pkt 0 (walk G root pkt).visits

/-- Neither decoder stores a row of a Routing header of another type: the serial
tables, the counts and the slot writes are those without such rows. -/
structure RowsFromSrv6Only (root : G.Node) : Prop where
  serial : ∀ (tabs : DagTables G) (kids : Ipv6ChildTables),
    (dagDecodePacketWithChildren nodeType packetId pkt tabs kids root).2 =
      kids.appendAll (srv6ChildRows nodeType packetId pkt root)
  counted : countPacketIpv6Children nodeType pkt root =
    countRows counterModulus (fun _ => 0) (srv6ChildRows nodeType packetId pkt root)
  scattered : ∀ base, scatterPacketIpv6Children nodeType packetId pkt root base =
    scatterRows counterModulus base (srv6ChildRows nodeType packetId pkt root)

/-- Every Routing header of another type has no room for a segment, as declared
or as captured. -/
def OthersTooShort (root : G.Node) : Prop :=
  ∀ visit ∈ (walk G root pkt).visits, OtherRouting nodeType pkt visit →
    readUint pkt visit.2 Ipv6SrhSpec.hdrExtLen < 2 ∨ pkt.length < visit.2 + 24

end Srv6

/-! ### Headers without rows -/

/-- A routing header has children exactly when its first segment fits. -/
theorem forEachSrhChild_eq_nil_iff {pkt : Bytes} {off : Nat} :
    forEachSrhChild pkt off = [] ↔
      readUint pkt off Ipv6SrhSpec.hdrExtLen < 2 ∨ pkt.length < off + 24 := by
  rw [forEachSrhChild_eq]
  generalize readUint pkt off Ipv6SrhSpec.hdrExtLen = declared
  generalize readUint pkt off Ipv6SrhSpec.lastEntry = lastEntry
  dsimp only
  have room : off + 24 ≤ clampEnd (off + (declared + 1) * 8) pkt.length ↔
      ¬ (declared < 2 ∨ pkt.length < off + 24) := by
    rw [clampEnd]
    split <;> omega
  by_cases fits : off + 24 ≤ clampEnd (off + (declared + 1) * 8) pkt.length
  · have first : repeatAt (off + 8) (lastEntry + 1) 16
        (clampEnd (off + (declared + 1) * 8) pkt.length) 0 = some (off + 8) := by
      rw [repeatAt, if_neg (by omega), if_pos (by omega), Nat.zero_mul, Nat.add_zero]
    have nonempty : srhSegments (off + 8) (lastEntry + 1)
        (clampEnd (off + (declared + 1) * 8) pkt.length) (lastEntry + 1) 0 ≠ [] := by
      rw [srhSegments, first]
      exact List.cons_ne_nil _ _
    rw [iff_false_right (room.mp fits)]
    split
    · exact List.append_ne_nil_of_left_ne_nil nonempty _
    · exact nonempty
  · have first : repeatAt (off + 8) (lastEntry + 1) 16
        (clampEnd (off + (declared + 1) * 8) pkt.length) 0 = none := by
      rw [repeatAt, if_neg (by omega), if_neg (by omega)]
    rw [if_neg (by omega), srhSegments, first]
    simp only [true_iff]
    by_contra wide
    exact fits (room.mpr wide)

section Srv6

variable {G : Graph Id} (nodeType : G.Node → Option L2L3Node) (packetId : Nat) (pkt : Bytes)

theorem ipv6VisitRows_eq_nil_iff {order : UInt8} {visit : G.Node × Nat}
    (other : OtherRouting nodeType pkt visit) :
    ipv6VisitRows nodeType packetId pkt order visit = [] ↔
      readUint pkt visit.2 Ipv6SrhSpec.hdrExtLen < 2 ∨ pkt.length < visit.2 + 24 := by
  rw [ipv6VisitRows, if_pos other.1, List.map_eq_nil_iff, forEachSrhChild_eq_nil_iff]

theorem sublist_srv6VisitsRows (order : UInt8) (visits : List (G.Node × Nat)) :
    (srv6VisitsRows nodeType packetId pkt order visits).Sublist
      (ipv6VisitsRows nodeType packetId pkt order visits) := by
  induction visits generalizing order with
  | nil => exact List.Sublist.refl _
  | cons visit visits inductionHypothesis =>
      rw [srv6VisitsRows, ipv6VisitsRows]
      refine List.Sublist.append ?_ (inductionHypothesis _)
      split
      · exact List.nil_sublist _
      · exact List.Sublist.refl _

/-- No row is left out exactly when the headers left out have none. -/
theorem srv6VisitsRows_eq_iff (order : UInt8) (visits : List (G.Node × Nat)) :
    ipv6VisitsRows nodeType packetId pkt order visits =
        srv6VisitsRows nodeType packetId pkt order visits ↔
      ∀ visit ∈ visits, OtherRouting nodeType pkt visit →
        readUint pkt visit.2 Ipv6SrhSpec.hdrExtLen < 2 ∨ pkt.length < visit.2 + 24 := by
  induction visits generalizing order with
  | nil => simp [ipv6VisitsRows, srv6VisitsRows]
  | cons visit visits inductionHypothesis =>
      rw [srv6VisitsRows, ipv6VisitsRows, List.forall_mem_cons,
        ← inductionHypothesis (nextSrhOrder nodeType order visit.1)]
      by_cases other : OtherRouting nodeType pkt visit
      · rw [if_pos other, List.nil_append]
        have empty : ipv6VisitRows nodeType packetId pkt order visit = [] ↔ _ :=
          ipv6VisitRows_eq_nil_iff nodeType packetId pkt other
        constructor
        · intro same
          have shorter := (sublist_srv6VisitsRows nodeType packetId pkt
            (nextSrhOrder nodeType order visit.1) visits).length_le
          have lengths := congrArg List.length same
          rw [List.length_append] at lengths
          have none : ipv6VisitRows nodeType packetId pkt order visit = [] :=
            List.eq_nil_of_length_eq_zero (by omega)
          rw [none, List.nil_append] at same
          exact ⟨fun _ => empty.mp none, same⟩
        · rintro ⟨short, same⟩
          rw [empty.mpr (short other), List.nil_append, same]
      · rw [if_neg other, List.append_cancel_left_eq]
        simp [other]

/-- Both decoders store rows of segment routing headers only exactly when every
other Routing header is too short for a segment. -/
theorem rowsFromSrv6Only_iff (root : G.Node) :
    RowsFromSrv6Only nodeType packetId pkt root ↔ OthersTooShort nodeType pkt root := by
  have kept := srv6VisitsRows_eq_iff nodeType packetId pkt 0 (walk G root pkt).visits
  constructor
  · intro only
    have serial := only.serial (fun _ => []) fun _ => []
    rw [dagDecodePacketWithChildren_eq] at serial
    exact kept.mp ((Store.appendAll_eq_iff (sublist_srv6VisitsRows _ _ _ 0 _) _).mp serial)
  · intro short
    have same : ipv6ChildRows nodeType packetId pkt root =
        srv6ChildRows nodeType packetId pkt root := kept.mpr short
    constructor
    · intro tabs kids
      rw [dagDecodePacketWithChildren_eq, same]
    · rw [countPacketIpv6Children_eq, same]
    · intro base
      rw [scatterPacketIpv6Children_eq, same]

end Srv6

/-- Ethernet, IPv6 and a Routing header of type 2, which carries one home address
behind four reserved bytes. -/
def homeAddressPacket : Bytes :=
  List.replicate 12 0 ++ [0x86, 0xDD] ++
    [0x60, 0, 0, 0, 0, 24, 43, 64] ++ List.replicate 32 0xAA ++
    [59, 2, 2, 1, 0, 0, 0, 0] ++ List.replicate 16 0x30

/-- The home address becomes a segment row. -/
theorem rowsFromSrv6Only_fails :
    ¬ RowsFromSrv6Only (G := L2L3Graph Id) some 7 homeAddressPacket kEthRoot ∧
      OtherRouting (G := L2L3Graph Id) some homeAddressPacket (.ipv6Routing, 54) ∧
      Store.height (dagDecodePacketWithChildren (G := L2L3Graph Id) some 7 homeAddressPacket
        (fun _ => []) (fun _ => []) kEthRoot).2 .srhSegment = 1 := by
  have stored : Store.height (dagDecodePacketWithChildren (G := L2L3Graph Id) some 7
      homeAddressPacket (fun _ => []) (fun _ => []) kEthRoot).2 .srhSegment = 1 := by
    decide +kernel
  have expected : srv6ChildRows (G := L2L3Graph Id) some 7 homeAddressPacket kEthRoot = [] := by
    rfl
  refine ⟨?_, by decide +kernel, stored⟩
  intro only
  rw [only.serial, expected] at stored
  exact absurd stored (by decide)

end Nanotins.Children
