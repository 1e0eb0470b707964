import Mathlib.Data.List.Chain
import Nanotins.SpecDag.L2L3Graph

/-!
Contract: where the headers visited by the L2/L3 walk lie in the packet.

Owns: which nodes advance past their own fixed header, exactly when the visited
headers are disjoint, and exactly when `consumed` stays inside the packet.

Does not own: the hand-written decoder.
-/

namespace Nanotins.SpecDag

open Nanotins.Library Nanotins.Wire

/-! ### The walk's end -/

section End

variable {G : Graph Id} {pkt : Bytes}

/-- A walk ends inside the packet exactly when every header it stands at does. -/
theorem consumed_walkFrom_le_iff {fuel origin : Nat} {start : G.Node} :
    (walkFrom G pkt fuel (some start) origin).consumed ≤ pkt.length ↔
      origin ≤ pkt.length ∧ ∀ k node off, k < fuel → HeaderAt G pkt start origin k node off →
        G.after pkt off node ≤ pkt.length := by
  induction fuel generalizing start origin with
  | zero => simp
  | succ fuel inductionHypothesis =>
      by_cases whole : G.Fits pkt origin start
      · rw [walkFrom_of_fits whole]
        have started : origin ≤ pkt.length := Nat.le_of_add_right_le whole
        cases edge : G.follow pkt origin start with
        | none =>
            simp only [walkFrom_none, started, true_and]
            constructor
            · intro ends k node off _ reached
              cases k with
              | zero => cases reached; exact ends
              | succ k =>
                  obtain ⟨target, further, -⟩ := reached.of_succ
                  rw [edge] at further
                  contradiction
            · intro all
              exact all 0 start origin (Nat.succ_pos fuel) (.first whole)
        | some target =>
            refine Iff.trans inductionHypothesis ?_
            constructor
            · rintro ⟨ends, all⟩
              refine ⟨started, fun k node off below reached => ?_⟩
              cases k with
              | zero => cases reached; exact ends
              | succ k =>
                  obtain ⟨first, further, chain⟩ := reached.of_succ
                  rw [edge] at further
                  cases further
                  exact all k node off (Nat.lt_of_succ_lt_succ below) chain
            · rintro ⟨-, all⟩
              refine ⟨all 0 start origin (Nat.succ_pos fuel) (.first whole), ?_⟩
              intro k node off below chain
              exact all (k + 1) node off (Nat.succ_lt_succ below) (chain.tail whole edge)
      · rw [walkFrom_of_not_fits whole]
        constructor
        · intro ends
          exact ⟨ends, fun k node off _ reached => absurd reached.start_fits whole⟩
        · exact And.left

end End

/-! ### Header lengths -/

section Lengths

variable {pkt : Bytes} {off : Nat}

abbrev l2l3 : Graph Id := L2L3Graph Id

/-- The header length that a header's own bytes declare; a node without a
length field has its fixed size. -/
def declaredLength (pkt : Bytes) (off : Nat) : L2L3Node → Nat
  | .ipv4 => readUint pkt off Ipv4Spec.ihl * 4
  | .tcp => readUint pkt off TcpSpec.dataOffset * 4
  | .ipv6HopByHop | .ipv6DestOpt => (readUint pkt off Ipv6ExtOptSpec.hdrExtLen + 1) * 8
  | .ipv6Routing => (readUint pkt off Ipv6SrhSpec.hdrExtLen + 1) * 8
  | .ipv6Ah => (readUint pkt off Ipv6AhSpec.payloadLen + 2) * 4
  | node => specSize node.spec

/-- IPv4 and TCP clamp the declared length from below; all other nodes advance
by it. -/
theorem after_eq (node : L2L3Node) :
    l2l3.after pkt off node = off +
      match node with
      | .ipv4 | .tcp => max 20 (declaredLength pkt off node)
      | _ => declaredLength pkt off node := by
  have clamp : ∀ hdr : Nat, (if 20 ≤ hdr then hdr else 20) = max 20 hdr := by
    intro hdr
    split <;> omega
  cases node with
  | ipv4 => exact congrArg (off + ·) (clamp _)
  | tcp => exact congrArg (off + ·) (clamp _)
  | eth | vlan | ipv6 | udp | gptp | ptpTimestampBody | ptpTsPortBody | ptpAnnounceBody
  | ptpSignalingBody | ipv6HopByHop | ipv6Routing | ipv6Fragment | ipv6DestOpt | ipv6Ah
  | someip => rfl

theorem specSize_ipv4 : specSize L2L3Node.ipv4.spec = 20 := by decide

theorem specSize_tcp : specSize L2L3Node.tcp.spec = 20 := by decide

/-- Only an AH of declared length eight ends before its fixed part does. -/
theorem specSize_le_after_iff (node : L2L3Node) :
    off + specSize node.spec ≤ l2l3.after pkt off node ↔
      (node = .ipv6Ah → readUint pkt off Ipv6AhSpec.payloadLen ≠ 0) := by
  have ah : specSize L2L3Node.ipv6Ah.spec = 12 := by decide
  have extOpt : specSize Ipv6ExtOptSpec.fields = 2 := by decide
  have srh : specSize Ipv6SrhSpec.fields = 8 := by decide
  have ipv4 := specSize_ipv4
  have tcp := specSize_tcp
  rw [after_eq]
  cases node with
  | ipv4 | tcp => simp only [reduceCtorEq, false_imp_iff, iff_true]; omega
  | ipv6Ah =>
      simp only [declaredLength, ah, true_imp_iff]
      omega
  | ipv6HopByHop | ipv6DestOpt | ipv6Routing =>
      simp only [declaredLength, L2L3Node.spec, reduceCtorEq, false_imp_iff, iff_true]
      omega
  | eth | vlan | ipv6 | udp | gptp | ptpTimestampBody | ptpTsPortBody | ptpAnnounceBody
  | ptpSignalingBody | ipv6Fragment | someip => simp [declaredLength]

/-- A whole header ends inside the packet exactly when its declared length
does: the clamps of IPv4 and TCP are covered by the fixed part. -/
theorem after_le_iff {node : L2L3Node} (fits : l2l3.Fits pkt off node) :
    l2l3.after pkt off node ≤ pkt.length ↔ off + declaredLength pkt off node ≤ pkt.length := by
  have ipv4 := specSize_ipv4
  have tcp := specSize_tcp
  change off + specSize node.spec ≤ pkt.length at fits
  rw [after_eq]
  cases node with
  | ipv4 | tcp =>
      dsimp only
      omega
  | eth | vlan | ipv6 | udp | gptp | ptpTimestampBody | ptpTsPortBody | ptpAnnounceBody
  | ptpSignalingBody | ipv6HopByHop | ipv6Routing | ipv6Fragment | ipv6DestOpt | ipv6Ah
  | someip => exact Iff.rfl

end Lengths

/-! ### Disjoint headers -/

/-- The fixed parts of the visited headers lie one behind the other. -/
structure HeadersDisjoint (visits : List (L2L3Node × Nat)) : Prop where
  consecutive : ∀ k first second, visits[k]? = some first → visits[k + 1]? = some second →
    first.2 + specSize first.1.spec ≤ second.2
  pairwise : visits.Pairwise fun first second => first.2 + specSize first.1.spec ≤ second.2

theorem pairwise_of_consecutive {visits : List (L2L3Node × Nat)}
    (consecutive : ∀ k first second, visits[k]? = some first → visits[k + 1]? = some second →
      first.2 + specSize first.1.spec ≤ second.2) :
    visits.Pairwise fun first second => first.2 + specSize first.1.spec ≤ second.2 := by
  have chain : visits.IsChain fun first second => first.2 + specSize first.1.spec ≤ second.2 := by
    rw [List.isChain_iff_getElem]
    intro k below
    exact consecutive k _ _ (List.getElem?_eq_getElem _) (List.getElem?_eq_getElem below)
  have transitive : Trans
      (fun first second : L2L3Node × Nat => first.2 + specSize first.1.spec ≤ second.2)
      (fun first second : L2L3Node × Nat => first.2 + specSize first.1.spec ≤ second.2)
      (fun first second : L2L3Node × Nat => first.2 + specSize first.1.spec ≤ second.2) :=
    ⟨fun before behind => by omega⟩
  exact chain.pairwise

/-- The header that the walk stands at is an AH that declares eight bytes. -/
def ShortAhAt (pkt : Bytes) (k off : Nat) : Prop :=
  HeaderAt l2l3 pkt kEthRoot 0 k .ipv6Ah off ∧ readUint pkt off Ipv6AhSpec.payloadLen = 0

/-- The visited headers are disjoint exactly when no AH with a zero length
field is followed by another visited header. -/
theorem headersDisjoint_iff (pkt : Bytes) :
    HeadersDisjoint (walk l2l3 kEthRoot pkt).visits ↔
      ∀ k off, k + 1 < kMaxWalkSteps → ShortAhAt pkt k off →
        ∀ node after, ¬ HeaderAt l2l3 pkt kEthRoot 0 (k + 1) node after := by
  constructor
  · rintro disjoint k off below ⟨ah, zero⟩ node after follower
    have here := getElem?_visits.mpr ⟨Nat.lt_of_succ_lt below, ah⟩
    have there := getElem?_visits.mpr ⟨below, follower⟩
    have apart := disjoint.consecutive k _ _ here there
    obtain ⟨before, place, reached, -, rfl⟩ := follower.pred
    obtain ⟨rfl, rfl⟩ := ah.unique reached
    exact (specSize_le_after_iff _).mp apart rfl zero
  · intro noShortAh
    have consecutive : ∀ k first second,
        (walk l2l3 kEthRoot pkt).visits[k]? = some first →
        (walk l2l3 kEthRoot pkt).visits[k + 1]? = some second →
          first.2 + specSize first.1.spec ≤ second.2 := by
      rintro k ⟨node, off⟩ ⟨target, after⟩ here there
      obtain ⟨-, reached⟩ := getElem?_visits.mp here
      obtain ⟨below, follower⟩ := getElem?_visits.mp there
      obtain ⟨before, place, again, -, rfl⟩ := follower.pred
      obtain ⟨rfl, rfl⟩ := reached.unique again
      apply (specSize_le_after_iff node).mpr
      rintro rfl zero
      exact noShortAh k off below ⟨reached, zero⟩ target _ follower
    exact ⟨consecutive, pairwise_of_consecutive consecutive⟩

/-- An AH header with a zero length field, directly followed by the bytes of a
UDP header from its ninth byte on. -/
def shortAhPacket : Bytes :=
  List.replicate 12 0 ++ [0x86, 0xDD] ++
    (List.replicate 6 0 ++ [51] ++ List.replicate 33 0) ++
    ([17] ++ List.replicate 15 0)

/-- The AH row spans [54, 66), the UDP row [62, 70). -/
theorem headersDisjoint_fails : ¬ HeadersDisjoint (walk l2l3 kEthRoot shortAhPacket).visits := by
  intro disjoint
  have ah : (walk l2l3 kEthRoot shortAhPacket).visits[2]? = some (.ipv6Ah, 54) := by
    decide +kernel
  have udp : (walk l2l3 kEthRoot shortAhPacket).visits[3]? = some (.udp, 62) := by
    decide +kernel
  exact absurd (disjoint.consecutive 2 _ _ ah udp) (by decide)

/-! ### The end of the walk -/

/-- `consumed` stays inside the packet exactly when every header the walk stands
at declares a length that does. -/
theorem consumed_le_iff (pkt : Bytes) :
    (walk l2l3 kEthRoot pkt).consumed ≤ pkt.length ↔
      ∀ k node off, k < kMaxWalkSteps → HeaderAt l2l3 pkt kEthRoot 0 k node off →
        off + declaredLength pkt off node ≤ pkt.length := by
  refine (consumed_walkFrom_le_iff (G := l2l3)).trans ?_
  constructor
  · rintro ⟨-, all⟩ k node off below reached
    exact (after_le_iff reached.fits).mp (all k node off below reached)
  · intro all
    refine ⟨Nat.zero_le _, fun k node off below reached => ?_⟩
    exact (after_le_iff reached.fits).mpr (all k node off below reached)

end Nanotins.SpecDag
