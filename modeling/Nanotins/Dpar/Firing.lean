import Nanotins.Dpar.Safety

/-!
Contract: what a compiled rule asks of a packet.

Owns: when a predicate holds, the bytes that a region stands for, the call that a
rule makes on a packet by itself, and that a well-formed rule makes it exactly when
its predicates hold and its region starts inside the packet (`callOf_eq_some_iff`).

Does not own: runs over packets, and the counters.
-/

namespace Nanotins.Dpar

open Nanotins.Library Nanotins.Wire Nanotins.SpecDag

/-! ### Predicates -/

instance (ref : FieldRef) (node : L2L3Node) (field : Field) : Decidable (RefersTo ref node field) :=
  match kind : field.kind with
  | .bytes _ => .isFalse (by simp [RefersTo, kind])
  | .bits storageSize bitOffset width order =>
      decidable_of_iff
        (field ∈ node.spec ∧ ref.nodeId = nodeId node ∧ ref.offset = field.offset ∧
          ref.isBitfield = true ∧ ref.byteWidth = storageSize ∧ ref.bitOffset = bitOffset ∧
            ref.bitWidth = width ∧ ref.bigEndian = (order == .big))
        (by simp [RefersTo, kind])
  | .scalar size _ order =>
      decidable_of_iff
        (field ∈ node.spec ∧ ref.nodeId = nodeId node ∧ ref.offset = field.offset ∧
          ref.isBitfield = false ∧ ref.byteWidth = size ∧ ref.bigEndian = (order == .big))
        (by simp [RefersTo, kind])

/-- The walk has visited the node of the predicate's field, and the unsigned value of
the field in the last such header compares as the predicate asks. -/
def Holds (pkt : Bytes) (pr : Predicate) : Prop :=
  ∃ node ∈ nodes, ∃ field ∈ node.spec, RefersTo pr.field node field ∧
    ∃ off ∈ lastOffset (walk l2l3 kEthRoot pkt).visits node,
      pr.op.holds (readUint pkt off field) pr.operand = true

instance (pkt : Bytes) (pr : Predicate) : Decidable (Holds pkt pr) :=
  inferInstanceAs (Decidable (∃ node ∈ nodes, ∃ field ∈ node.spec, _ ∧ ∃ off ∈ lastOffset _ _, _))

section Predicate

variable {pkt : Bytes} {pr : Predicate} {node : L2L3Node} {field : Field}

/-- A reference belongs to one node, and its fields there read alike. -/
theorem holds_iff_of_refersTo (refers : RefersTo pr.field node field) :
    Holds pkt pr ↔ ∃ off ∈ lastOffset (walk l2l3 kEthRoot pkt).visits node,
      pr.op.holds (readUint pkt off field) pr.operand = true := by
  constructor
  · rintro ⟨node', -, field', -, refers', off, last, compares⟩
    obtain rfl : node' = node := nodeId_inj (refers'.2.1.symm.trans refers.2.1)
    have same : readUint pkt off field' = readUint pkt off field :=
      (readFieldRuntime_eq refers').symm.trans (readFieldRuntime_eq refers)
    rw [same] at compares
    exact ⟨off, last, compares⟩
  · rintro ⟨off, last, compares⟩
    exact ⟨node, List.mem_of_getElem? (getElem?_nodes_nodeId node), field, refers.1, refers, off,
      last, compares⟩

/-- Evaluating a predicate on a catalogued field decides whether it holds. -/
theorem evalPredicate_eq_true_iff (refers : RefersTo pr.field node field) :
    evalPredicate (guardedByte pkt 0 pkt.length) (offsetsOf pkt) pr = some true ↔ Holds pkt pr := by
  rcases pr with ⟨ref, op, operand⟩
  rw [holds_iff_of_refersTo refers, evalPredicate_eq refers]
  cases lastOffset (walk l2l3 kEthRoot pkt).visits node with
  | none => simp
  | some off => simp [cmpApply_eq_holds]

theorem predicatesHold_iff {rd : Nat → Option UInt8} {table : NodeOffsets}
    {preds : List Predicate} :
    predicatesHold rd table preds = some true ↔
      ∀ pr ∈ preds, evalPredicate rd table pr = some true := by
  induction preds with
  | nil => simp [predicatesHold]
  | cons pr preds inductionHypothesis =>
      rw [predicatesHold, List.forall_mem_cons, ← inductionHypothesis]
      rcases evalPredicate rd table pr with _ | _ | _ <;> simp

end Predicate

/-! ### Regions -/

/-- A region starts behind the header it is measured from; only TCP headers have a
length of their own. -/
def RegionKind.start (pkt : Bytes) (off : Nat) : RegionKind → Nat
  | .tcpPayload => off + max 20 (readUint pkt off TcpSpec.dataOffset * 4)
  | kind => off + specSize kind.anchor.spec

/-- A region ends with the packet, or before it where the SOME/IP length says so. -/
def RegionKind.stop (pkt : Bytes) (off : Nat) : RegionKind → Nat
  | .someipPayload =>
      max (off + specSize L2L3Node.someip.spec)
        (min pkt.length (off + 8 + readUint pkt off SomeipSpec.length))
  | _ => pkt.length

section Bounds

variable (pkt : Bytes) (off : Nat)

theorem RegionKind.start_ethPayload : start pkt off .ethPayload = off + 14 := rfl

theorem RegionKind.stop_ethPayload : stop pkt off .ethPayload = pkt.length := rfl

theorem RegionKind.start_vlanPayload : start pkt off .vlanPayload = off + 4 := rfl

theorem RegionKind.stop_vlanPayload : stop pkt off .vlanPayload = pkt.length := rfl

end Bounds

/-- The walk has visited the region's anchor, and `region` are the offsets of the
bytes behind the last such header, which starts inside the packet. -/
def Resolves (pkt : Bytes) (rs : RegionSel) (region : Nat × Nat) : Prop :=
  ∃ off ∈ lastOffset (walk l2l3 kEthRoot pkt).visits rs.kind.anchor,
    rs.kind.start pkt off ≤ pkt.length ∧ region = (rs.kind.start pkt off, rs.kind.stop pkt off)

section Region

variable {pkt : Bytes}

/-- The bounds of a region whose anchor lies in the packet, before it is clamped. -/
theorem regionBounds_eq (kind : RegionKind) {off : Nat}
    (fits : off + specSize kind.anchor.spec ≤ pkt.length) :
    ∃ last, regionBounds (guardedByte pkt 0 pkt.length) pkt.length kind off =
        some (kind.start pkt off, last) ∧
      (kind.start pkt off ≤ pkt.length →
        (if last < kind.start pkt off then kind.start pkt off else last) = kind.stop pkt off) := by
  cases kind with
  | ethPayload | vlanPayload | udpPayload =>
      exact ⟨_, rfl, fun inside => if_neg (Nat.not_lt.mpr inside)⟩
  | tcpPayload =>
      have member : TcpSpec.dataOffset ∈ L2L3Node.tcp.spec := by decide
      rw [regionBounds, readUintM_guarded_of_mem member (Nat.zero_le off) fits]
      refine ⟨pkt.length, ?_, fun inside => if_neg (Nat.not_lt.mpr inside)⟩
      show some (off + (if 20 ≤ _ then _ else 20), pkt.length) = _
      rw [RegionKind.start, Nat.max_def]
  | someipPayload =>
      have member : SomeipSpec.length ∈ L2L3Node.someip.spec := by decide
      rw [regionBounds, readUintM_guarded_of_mem member (Nat.zero_le off) fits]
      refine ⟨_, rfl, fun inside => ?_⟩
      have starts : RegionKind.start pkt off .someipPayload =
          off + specSize L2L3Node.someip.spec := rfl
      rw [starts, RegionKind.stop]
      generalize off + specSize L2L3Node.someip.spec = first
      split <;> split <;> omega

/-- A region anchored at its own node is resolved to the bytes it stands for. -/
theorem resolveRegion_eq_some_iff {rs : RegionSel} {region : Nat × Nat}
    (anchored : nodes[rs.anchorNodeId]? = some rs.kind.anchor) :
    resolveRegion (guardedByte pkt 0 pkt.length) (offsetsOf pkt) pkt.length rs =
        some (some region) ↔
      Resolves pkt rs region := by
  rw [resolveRegion, eq_nodeId anchored, offsetsOf, getElem?_nodeOffsets, Resolves]
  cases last : lastOffset (walk l2l3 kEthRoot pkt).visits rs.kind.anchor with
  | none => simp
  | some off =>
      have fits : off + specSize rs.kind.anchor.spec ≤ pkt.length :=
        fits_of_mem_visits (lastOffset_mem _ last)
      obtain ⟨stop, bounded, clamped⟩ := regionBounds_eq rs.kind fits
      dsimp only [bind, Option.bind]
      rw [bounded]
      dsimp only
      split
      · next beyond => simp [beyond]
      · next within =>
        have inside := Nat.not_lt.mp within
        rw [clamped inside]
        simp [inside, eq_comm]

end Region

/-! ### Calls -/

/-- The call that the rule makes on the packet; no other rule or packet has a
part in it. -/
def callOf (pkt : DagPacket) (rule : Rule) : Option MatchCall :=
  (matchRule (guardedByte pkt.data 0 pkt.data.length) (offsetsOf pkt.data) pkt.data.length
    pkt.packetId rule).join

section Call

variable {pkt : DagPacket} {rule : Rule} {call : MatchCall}

theorem callOf_eq_some_iff_evaluated :
    callOf pkt rule = some call ↔
      (∀ pr ∈ rule.preds, evalPredicate (guardedByte pkt.data 0 pkt.data.length)
        (offsetsOf pkt.data) pr = some true) ∧
      ∃ region, resolveRegion (guardedByte pkt.data 0 pkt.data.length) (offsetsOf pkt.data)
          pkt.data.length rule.region = some (some region) ∧
        call = ⟨rule.parserKind, pkt.packetId, rule.ruleId, region.1, region.2⟩ := by
  rw [← predicatesHold_iff, callOf, matchRule]
  rcases predicatesHold _ _ rule.preds with _ | _ | _
  · simp
  · simp
  · show (resolveRegion _ _ _ _ >>= fun region => _).join = some call ↔ _
    simp only [true_and]
    rcases resolveRegion _ _ _ rule.region with _ | _ | region
    · simp
    · simp
    · show some _ = some call ↔ _
      simp [eq_comm]

/-- A well-formed rule calls its parser exactly when all its predicates hold and its
region resolves. -/
theorem callOf_eq_some_iff {palette : Nat} (wellFormed : rule.WellFormed palette) :
    callOf pkt rule = some call ↔
      (∀ pr ∈ rule.preds, Holds pkt.data pr) ∧ ∃ region, Resolves pkt.data rule.region region ∧
        call = ⟨rule.parserKind, pkt.packetId, rule.ruleId, region.1, region.2⟩ := by
  have holds : ∀ pr ∈ rule.preds, evalPredicate (guardedByte pkt.data 0 pkt.data.length)
      (offsetsOf pkt.data) pr = some true ↔ Holds pkt.data pr := by
    intro pr member
    obtain ⟨node, field, refers⟩ := (wellFormed.preds pr member).refers
    exact evalPredicate_eq_true_iff refers
  rw [callOf_eq_some_iff_evaluated, forall₂_congr holds]
  simp only [resolveRegion_eq_some_iff wellFormed.anchor]

/-- A call carries the numbers of its rule and of the packet. -/
theorem callOf_numbers (made : callOf pkt rule = some call) :
    call.parserKind = rule.parserKind ∧ call.packetId = pkt.packetId ∧
      call.ruleId = rule.ruleId := by
  rcases callOf_eq_some_iff_evaluated.mp made with ⟨-, region, -, rfl⟩
  exact ⟨rfl, rfl, rfl⟩

/-- A rule that well-formedness keeps from faulting is decided by its call. -/
theorem matchRule_eq {palette : Nat} (wellFormed : rule.WellFormed palette) (pkt : DagPacket) :
    matchRule (guardedByte pkt.data 0 pkt.data.length) (offsetsOf pkt.data) pkt.data.length
      pkt.packetId rule = some (callOf pkt rule) := by
  rcases matchRule_some pkt.data wellFormed pkt.packetId with ⟨fired, matched, -⟩
  rw [callOf, matched]
  rfl

end Call

end Nanotins.Dpar
