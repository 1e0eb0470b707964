import Nanotins.Dpar.Accepted
import Nanotins.Dpar.Predicates

/-!
Contract: compiled rules are safe to match.

Owns: that a well-formed rule faults on no packet and fires with a region inside
the packet, that the match loop keeps every invariant that its parsers keep on
such calls, and that the rules of an accepted text are matched so
(`compileRules_safe`).

Does not own: what a rule matches.
-/

namespace Nanotins.Dpar

open Nanotins.Library Nanotins.Wire Nanotins.SpecDag

/-! ### One rule -/

section Rule

variable (pkt : Bytes)

/-- A field inside its node's spec is read inside the packet. -/
theorem evalPredicate_some {pr : Predicate} (wellFormed : pr.WellFormed) :
    ∃ verdict, evalPredicate (guardedByte pkt 0 pkt.length) (offsetsOf pkt) pr = some verdict := by
  rcases wellFormed.field with ⟨node, found, inSpec⟩
  rw [evalPredicate, predicateValue_inSpec pkt found inSpec]
  cases lastOffset (walk l2l3 kEthRoot pkt).visits node with
  | none => exact ⟨false, rfl⟩
  | some off => exact ⟨_, rfl⟩

theorem predicatesHold_some {preds : List Predicate} (wellFormed : ∀ pr ∈ preds, pr.WellFormed) :
    ∃ verdict,
      predicatesHold (guardedByte pkt 0 pkt.length) (offsetsOf pkt) preds = some verdict := by
  induction preds with
  | nil => exact ⟨true, rfl⟩
  | cons pr preds inductionHypothesis =>
      rw [List.forall_mem_cons] at wellFormed
      rcases evalPredicate_some pkt wellFormed.1 with ⟨verdict, evaluated⟩
      rw [predicatesHold, evaluated]
      cases verdict with
      | false => exact ⟨false, rfl⟩
      | true => exact inductionHypothesis wellFormed.2

/-- The header of a region's anchor is read inside the packet, and the region
ends there at the latest. -/
theorem regionBounds_some (kind : RegionKind) {aoff : Nat}
    (fits : aoff + specSize kind.anchor.spec ≤ pkt.length) :
    ∃ bounds, regionBounds (guardedByte pkt 0 pkt.length) pkt.length kind aoff = some bounds ∧
      bounds.2 ≤ pkt.length := by
  cases kind with
  | ethPayload | vlanPayload | udpPayload => exact ⟨_, rfl, Nat.le_refl _⟩
  | tcpPayload =>
      have member : TcpSpec.dataOffset ∈ L2L3Node.tcp.spec := by decide
      rw [regionBounds, readUintM_guarded_of_mem member (Nat.zero_le aoff) fits]
      exact ⟨_, rfl, Nat.le_refl _⟩
  | someipPayload =>
      have member : SomeipSpec.length ∈ L2L3Node.someip.spec := by decide
      rw [regionBounds, readUintM_guarded_of_mem member (Nat.zero_le aoff) fits]
      refine ⟨_, rfl, ?_⟩
      dsimp only
      split
      · next shorter => exact Nat.le_of_lt shorter
      · exact Nat.le_refl _

/-- A region anchored at its own node is resolved inside the packet. -/
theorem resolveRegion_some {rs : RegionSel} (anchored : nodes[rs.anchorNodeId]? = some rs.kind.anchor) :
    ∃ region, resolveRegion (guardedByte pkt 0 pkt.length) (offsetsOf pkt) pkt.length rs =
        some region ∧
      ∀ rb re, region = some (rb, re) → rb ≤ re ∧ re ≤ pkt.length := by
  rw [resolveRegion, eq_nodeId anchored, offsetsOf, getElem?_nodeOffsets]
  cases last : lastOffset (walk l2l3 kEthRoot pkt).visits rs.kind.anchor with
  | none => exact ⟨none, rfl, fun rb re absent => by contradiction⟩
  | some aoff =>
      have fits : aoff + specSize rs.kind.anchor.spec ≤ pkt.length :=
        fits_of_mem_visits (lastOffset_mem _ last)
      rcases regionBounds_some pkt rs.kind fits with ⟨bounds, resolved, ends⟩
      dsimp only [bind, Option.bind]
      rw [resolved]
      dsimp only
      split
      · exact ⟨none, rfl, fun rb re absent => by contradiction⟩
      · next starts =>
        refine ⟨_, rfl, fun rb re same => ?_⟩
        cases same
        split <;> omega

/-- What a parser is called with: a palette index and a range of the packet. -/
structure MatchCall.Safe (palette size : Nat) (call : MatchCall) : Prop where
  parserKind_lt : call.parserKind < palette
  begin_le_end : call.regionBegin ≤ call.regionEnd
  end_le_size : call.regionEnd ≤ size

/-- A well-formed rule faults on no packet, and calls its parser safely. -/
theorem matchRule_some {rule : Rule} {palette : Nat} (wellFormed : rule.WellFormed palette)
    (pid : Nat) :
    ∃ fired, matchRule (guardedByte pkt 0 pkt.length) (offsetsOf pkt) pkt.length pid rule =
        some fired ∧
      ∀ call, fired = some call → call.ruleId = rule.ruleId ∧ call.Safe palette pkt.length := by
  rcases predicatesHold_some pkt wellFormed.preds with ⟨verdict, held⟩
  rw [matchRule, held]
  cases verdict with
  | false => exact ⟨none, rfl, fun call absent => by contradiction⟩
  | true =>
      rcases resolveRegion_some pkt wellFormed.anchor with ⟨region, resolved, inside⟩
      dsimp only [bind, Option.bind, Bool.not_true]
      rw [resolved]
      cases region with
      | none => exact ⟨none, rfl, fun call absent => by contradiction⟩
      | some region =>
          refine ⟨_, rfl, fun call same => ?_⟩
          cases same
          rcases inside region.1 region.2 rfl with ⟨order, ends⟩
          exact ⟨rfl, wellFormed.parserKind_lt, order, ends⟩

end Rule

/-! ### The match loop -/

section Loop

variable {pkt : Bytes} {palette : Nat} {rules : List Rule} {σ : Type}
  {onMatch : σ → MatchCall → Nat × σ} {Inv : σ → Prop}

/-- A call with an id in range is counted in place. -/
theorem recordMatch_some {stats : EngineStats} {call : MatchCall} (rows : Nat)
    (inRange : call.ruleId < stats.perRule.length) :
    ∃ counted, recordMatch stats call rows = some counted ∧
      counted.perRule.length = stats.perRule.length := by
  rw [recordMatch, List.getElem?_eq_getElem inRange]
  exact ⟨_, rfl, List.length_set⟩

/-- The rule loop faults on no packet, and keeps what the parsers keep. -/
theorem matchRules_some (wellFormed : ∀ rule ∈ rules, rule.WellFormed palette)
    (keeps : ∀ parser call, Inv parser → call.Safe palette pkt.length → Inv (onMatch parser call).2)
    (pid : Nat) {stats : EngineStats} {parser : σ} (any : Bool)
    (inRange : ∀ rule ∈ rules, rule.ruleId < stats.perRule.length) (start : Inv parser) :
    ∃ result, matchRules (guardedByte pkt 0 pkt.length) (offsetsOf pkt) pkt.length onMatch pid rules
        stats parser any = some result ∧ Inv result.2.1 := by
  induction rules generalizing stats parser any with
  | nil => exact ⟨_, rfl, start⟩
  | cons rule rules inductionHypothesis =>
      rw [List.forall_mem_cons] at wellFormed inRange
      rcases matchRule_some pkt wellFormed.1 pid with ⟨fired, matched, safe⟩
      rw [matchRules]
      dsimp only [bind, Option.bind]
      rw [matched]
      cases fired with
      | none => exact inductionHypothesis wellFormed.2 any inRange.2 start
      | some call =>
          rcases safe call rfl with ⟨ruleId, callSafe⟩
          generalize entered : ({ stats with
            rulesEvaluated := addCounter stats.rulesEvaluated 1 } : EngineStats) = evaluated
          have sameSize : evaluated.perRule.length = stats.perRule.length := by rw [← entered]
          have ownSlot : call.ruleId < evaluated.perRule.length := by
            rw [ruleId, sameSize]
            exact inRange.1
          rcases recordMatch_some (onMatch parser call).1 ownSlot with ⟨counted, recorded, size⟩
          dsimp only
          rw [recorded]
          refine inductionHypothesis wellFormed.2 true ?_ (keeps parser call start callSafe)
          rw [size, sameSize]
          exact inRange.2

/-- The statistics with which the rules of a packet are tried. -/
def EngineStats.entered (stats : EngineStats) (n : Nat) : EngineStats :=
  { stats with
    packetsSeen := addCounter stats.packetsSeen 1
    perRule := stats.perRule ++ List.replicate (n - stats.perRule.length) {} }

theorem EngineStats.le_length_entered (stats : EngineStats) (n : Nat) :
    n ≤ (stats.entered n).perRule.length := by
  rw [entered, List.length_append, List.length_replicate]
  omega

/-- A packet that some rule matched is counted behind the loop. -/
def countMatched (result : EngineStats × σ × Bool) : EngineStats × σ :=
  if result.2.2 then
    ({ result.1 with packetsMatchedAny := addCounter result.1.packetsMatchedAny 1 }, result.2.1)
  else (result.1, result.2.1)

/-- With rules loaded, a packet is matched by the rule loop, at the offsets of its walk. -/
theorem dparMatch_of_loaded (loaded : rules ≠ []) (pid : Nat) (stats : EngineStats) (parser : σ) :
    dparMatch rules pkt pid stats onMatch parser =
      (matchRules (guardedByte pkt 0 pkt.length) (offsetsOf pkt) pkt.length onMatch pid rules
        (stats.entered rules.length) parser false).map countMatched := by
  have walked : walkM (L2L3Graph Option) (guardedByte pkt 0 pkt.length) pkt.length kEthRoot =
      some (walk l2l3 kEthRoot pkt) := walkM_guarded pkt kEthRoot
  rw [dparMatch, dparMatchM, if_neg (by simpa using loaded)]
  dsimp only [bind, Option.bind]
  rw [walked]
  unfold offsetsOf EngineStats.entered
  dsimp only
  generalize matchRules _ _ _ _ _ _ _ _ _ = looped
  cases looped with
  | none => rfl
  | some result =>
      rw [Option.map_some, countMatched]
      dsimp only
      split <;> rfl

/-- Matching well-formed rules whose ids are in range faults on no packet, and
keeps what the parsers keep on safe calls. -/
theorem dparMatch_some (wellFormed : ∀ rule ∈ rules, rule.WellFormed palette)
    (inRange : ∀ rule ∈ rules, rule.ruleId < rules.length)
    (keeps : ∀ parser call, Inv parser → call.Safe palette pkt.length → Inv (onMatch parser call).2)
    (pid : Nat) (stats : EngineStats) {parser : σ} (start : Inv parser) :
    ∃ result, dparMatch rules pkt pid stats onMatch parser = some result ∧ Inv result.2 := by
  by_cases loaded : rules = []
  · rw [loaded]
    exact ⟨_, rfl, start⟩
  · obtain ⟨⟨counted, parser, any⟩, matched, kept⟩ := matchRules_some wellFormed keeps pid false
      (fun rule member => Nat.lt_of_lt_of_le (inRange rule member) (stats.le_length_entered _)) start
    rw [dparMatch_of_loaded loaded, matched, Option.map_some]
    refine ⟨_, rfl, ?_⟩
    cases any <;> exact kept

end Loop

/-! ### The calls of a run -/

section Calls

variable {σ : Type} {onMatch : σ → MatchCall → Nat × σ}

/-- The parsers, and the calls they have been handed. -/
def recording (onMatch : σ → MatchCall → Nat × σ) (state : σ × List MatchCall)
    (call : MatchCall) : Nat × (σ × List MatchCall) :=
  ((onMatch state.1 call).1, ((onMatch state.1 call).2, state.2 ++ [call]))

/-- Recording the calls does not change the loop. -/
theorem matchRules_recording (rd : Nat → Option UInt8) (table : NodeOffsets) (size : Nat)
    (onMatch : σ → MatchCall → Nat × σ) (pid : Nat) (rules : List Rule) (stats : EngineStats)
    (parser : σ) (calls : List MatchCall) (any : Bool) :
    (matchRules rd table size (recording onMatch) pid rules stats (parser, calls) any).map
        (fun result => (result.1, result.2.1.1, result.2.2)) =
      matchRules rd table size onMatch pid rules stats parser any := by
  induction rules generalizing stats parser calls any with
  | nil => rfl
  | cons rule rules inductionHypothesis =>
      rw [matchRules, matchRules]
      dsimp only [bind, Option.bind]
      cases matchRule rd table size pid rule with
      | none => rfl
      | some fired =>
          cases fired with
          | none => exact inductionHypothesis _ _ _ _
          | some call =>
              dsimp only [recording]
              cases recordMatch _ call (onMatch parser call).1 with
              | none => rfl
              | some counted => exact inductionHypothesis _ _ _ _

theorem dparMatch_recording (rules : List Rule) (pkt : Bytes) (pid : Nat) (stats : EngineStats)
    (parser : σ) :
    (dparMatch rules pkt pid stats (recording onMatch) (parser, [])).map
        (fun result => (result.1, result.2.1)) =
      dparMatch rules pkt pid stats onMatch parser := by
  by_cases loaded : rules = []
  · rw [loaded]
    rfl
  · rw [dparMatch_of_loaded loaded, dparMatch_of_loaded loaded,
      ← matchRules_recording _ _ _ onMatch _ _ _ _ [], Option.map_map, Option.map_map]
    congr 1
    funext result
    unfold countMatched
    dsimp only [Function.comp_apply]
    split <;> rfl

/-- Matching the packet, with any statistics and parsers, makes no access out of
bounds, and hands the parsers safe calls only. -/
def MatchesSafely (rules : List Rule) (palette : Nat) (pkt : Bytes) : Prop :=
  ∀ (σ : Type) (onMatch : σ → MatchCall → Nat × σ) (parser : σ) (pid : Nat) (stats : EngineStats),
    ∃ stats' parser' calls,
      dparMatch rules pkt pid stats onMatch parser = some (stats', parser') ∧
        dparMatch rules pkt pid stats (recording onMatch) (parser, []) =
          some (stats', parser', calls) ∧
        ∀ call ∈ calls, call.Safe palette pkt.length

theorem matchesSafely_of_wellFormed {rules : List Rule} {palette : Nat}
    (wellFormed : ∀ rule ∈ rules, rule.WellFormed palette)
    (inRange : ∀ rule ∈ rules, rule.ruleId < rules.length) (pkt : Bytes) :
    MatchesSafely rules palette pkt := by
  intro σ onMatch parser pid stats
  let AllSafe (state : σ × List MatchCall) : Prop := ∀ call ∈ state.2, call.Safe palette pkt.length
  have keeps : ∀ state call, AllSafe state → call.Safe palette pkt.length →
      AllSafe (recording onMatch state call).2 := by
    intro state call before safe
    exact List.forall_mem_append.mpr ⟨before, List.forall_mem_singleton.mpr safe⟩
  have start : AllSafe (parser, []) := List.forall_mem_nil _
  obtain ⟨⟨stats', parser', calls⟩, matched, safe⟩ :=
    dparMatch_some wellFormed inRange keeps pid stats start
  refine ⟨stats', parser', calls, ?_, matched, safe⟩
  rw [← dparMatch_recording, matched]
  rfl

end Calls

/-! ### Compiled rules -/

/-- An accepted text compiles to numbered well-formed rules that are matched
safely on every packet; any other compiles to errors and no rules. -/
theorem compileRules_safe {text : Text} (parserNames : List Text) (short : text.length < 2 ^ 32) :
    ((compileRules text buildL2l3Catalog parserNames).ok = true →
      (∀ i (rule : Rule), (compileRules text buildL2l3Catalog parserNames).rules[i]? = some rule →
        rule.ruleId = i ∧ rule.WellFormed parserNames.length) ∧
      ∀ pkt, MatchesSafely (compileRules text buildL2l3Catalog parserNames).rules
        parserNames.length pkt) ∧
      ((compileRules text buildL2l3Catalog parserNames).ok = false →
        (compileRules text buildL2l3Catalog parserNames).rules = [] ∧
          (compileRules text buildL2l3Catalog parserNames).errors ≠ []) := by
  rcases compileRules_spec parserNames short with ⟨accepted, rejected⟩
  refine ⟨fun ok => ⟨accepted ok, fun pkt => ?_⟩, rejected⟩
  apply matchesSafely_of_wellFormed
  · intro rule member
    rcases List.mem_iff_getElem?.mp member with ⟨i, found⟩
    exact (accepted ok i rule found).2
  · intro rule member
    rcases List.mem_iff_getElem?.mp member with ⟨i, found⟩
    rw [(accepted ok i rule found).1]
    exact (List.getElem?_eq_some_iff.mp found).1

/-- Two predicates and a label, on two lines. -/
def exampleRules : Text :=
  ("udp.src_port == 0 && udp.dst_port == 0x270F => someip_tlv udp_payload sd\n" ++
    "tcp.dst_port > 7 => someip_tlv tcp_payload").toList

theorem exampleRules_ok :
    (compileRules exampleRules buildL2l3Catalog ["someip_tlv".toList]).ok = true ∧
      (compileRules exampleRules buildL2l3Catalog ["someip_tlv".toList]).rules ≠ [] := by
  decide +kernel

theorem compileRules_safe_exampleRules :
    (compileRules exampleRules buildL2l3Catalog ["someip_tlv".toList]).ok = true ∧
      ∀ pkt, MatchesSafely
        (compileRules exampleRules buildL2l3Catalog ["someip_tlv".toList]).rules 1 pkt := by
  have short : exampleRules.length < 2 ^ 32 := by decide +kernel
  exact ⟨exampleRules_ok.1, ((compileRules_safe ["someip_tlv".toList] short).1 exampleRules_ok.1).2⟩

end Nanotins.Dpar
