import Nanotins.Dpar.Firing
import Nanotins.Library.Tally

/-!
Contract: what a run of `dpar_match` over packets calls and counts.

Owns: the answers of the parsers to the calls of a run, the account of these
answers in the statistics (`matchPackets_accounts`), and when a rule's `matched`
counts the packets on which its predicates hold (`matched_eq_holding_iff`).

Does not own: which rules a text compiles to, and when a rule makes a call.
-/

namespace Nanotins.Dpar

open Nanotins.Library Nanotins.Wire Nanotins.SpecDag

/-! ### The answers of the parsers -/

section Answer

variable {σ : Type}

/-- The rows that the parsers answer to calls in order, and their state after. -/
def answer (onMatch : σ → MatchCall → Nat × σ) :
    σ → List MatchCall → List (MatchCall × Nat) × σ
  | parser, [] => ([], parser)
  | parser, call :: calls =>
      let reply := onMatch parser call
      let rest := answer onMatch reply.2 calls
      ((call, reply.1) :: rest.1, rest.2)

theorem map_fst_answer (onMatch : σ → MatchCall → Nat × σ) (parser : σ) (calls : List MatchCall) :
    (answer onMatch parser calls).1.map Prod.fst = calls := by
  induction calls generalizing parser with
  | nil => rfl
  | cons call calls inductionHypothesis =>
      show call :: (answer onMatch _ calls).1.map Prod.fst = call :: calls
      rw [inductionHypothesis]

/-- Parsers whose row counts depend on the call alone answer each call by itself. -/
theorem answer_of_stateless {onMatch : σ → MatchCall → Nat × σ} {rows : MatchCall → Nat}
    (stateless : ∀ parser call, (onMatch parser call).1 = rows call) (parser : σ)
    (calls : List MatchCall) :
    (answer onMatch parser calls).1 = calls.map fun call => (call, rows call) := by
  induction calls generalizing parser with
  | nil => rfl
  | cons call calls inductionHypothesis =>
      show (call, (onMatch parser call).1) :: (answer onMatch _ calls).1 = _
      rw [inductionHypothesis, stateless]
      rfl

/-- The answers on packets in order; `onMatch` sees the packet that the offsets
of a call are in. -/
def answers (rules : List Rule) (onMatch : Bytes → σ → MatchCall → Nat × σ) :
    σ → List DagPacket → List (List (MatchCall × Nat)) × σ
  | parser, [] => ([], parser)
  | parser, pkt :: pkts =>
      let here := answer (onMatch pkt.data) parser (rules.filterMap (callOf pkt))
      let rest := answers rules onMatch here.2 pkts
      (here.1 :: rest.1, rest.2)

/-- Match packets one after the other. -/
def matchPackets (rules : List Rule) (onMatch : Bytes → σ → MatchCall → Nat × σ)
    (stats : EngineStats) (parser : σ) (pkts : List DagPacket) : Option (EngineStats × σ) :=
  pkts.foldlM
    (fun state pkt =>
      dparMatch rules pkt.data pkt.packetId state.1 (onMatch pkt.data) state.2)
    (stats, parser)

end Answer

/-! ### One packet -/

/-- Charge an answered call to its rule. -/
def EngineStats.charge (stats : EngineStats) (entry : MatchCall × Nat) : EngineStats :=
  { stats with
    rowsEmitted := addCounter stats.rowsEmitted entry.2
    perRule := stats.perRule.modify entry.1.ruleId fun rstat =>
      ⟨addCounter rstat.matched 1, addCounter rstat.rowsEmitted entry.2⟩ }

/-- The statistics after a packet with these answers, of `n` rules. -/
def EngineStats.visited (stats : EngineStats) (n : Nat) (log : List (MatchCall × Nat)) :
    EngineStats :=
  let entered : EngineStats :=
    { stats with
      packetsSeen := addCounter stats.packetsSeen 1
      rulesEvaluated := addCounter stats.rulesEvaluated n
      perRule := stats.perRule ++ List.replicate (n - stats.perRule.length) {} }
  let charged := log.foldl EngineStats.charge entered
  if log.isEmpty then charged
  else { charged with packetsMatchedAny := addCounter charged.packetsMatchedAny 1 }

section Packet

variable {σ : Type} {palette : Nat} {rules : List Rule} {stats : EngineStats}

theorem recordMatch_eq (stats : EngineStats) {call : MatchCall} (rows : Nat)
    (inRange : call.ruleId < stats.perRule.length) :
    recordMatch stats call rows = some (stats.charge (call, rows)) := by
  rw [recordMatch, List.getElem?_eq_getElem inRange, EngineStats.charge,
    List.modify_eq_set_getElem?]
  rw [List.getElem?_eq_getElem inRange]
  rfl

theorem addCounter_addCounter (counter first second : Nat) :
    addCounter (addCounter counter first) second = addCounter counter (first + second) := by
  rw [addCounter, addCounter, addCounter, Nat.mod_add_mod, Nat.add_assoc]

@[simp] theorem EngineStats.length_perRule_charge (entry : MatchCall × Nat) :
    (stats.charge entry).perRule.length = stats.perRule.length :=
  List.length_modify _ _ _

/-- The rule loop charges the answers to the calls of the rules, in order. -/
theorem matchRules_eq (wellFormed : ∀ rule ∈ rules, rule.WellFormed palette) (pkt : DagPacket)
    (onMatch : σ → MatchCall → Nat × σ) (parser : σ) (any : Bool)
    (bounded : stats.rulesEvaluated < 2 ^ 64)
    (inRange : ∀ rule ∈ rules, rule.ruleId < stats.perRule.length) :
    matchRules (guardedByte pkt.data 0 pkt.data.length) (offsetsOf pkt.data) pkt.data.length
        onMatch pkt.packetId rules stats parser any =
      let out := answer onMatch parser (rules.filterMap (callOf pkt))
      some (out.1.foldl EngineStats.charge
          { stats with rulesEvaluated := addCounter stats.rulesEvaluated rules.length },
        out.2, any || !out.1.isEmpty) := by
  induction rules generalizing stats parser any with
  | nil =>
      have same : addCounter stats.rulesEvaluated 0 = stats.rulesEvaluated := Nat.mod_eq_of_lt bounded
      show some (stats, parser, any) = some ({ stats with rulesEvaluated := _ }, parser, any || false)
      rw [List.length_nil, same, Bool.or_false]
  | cons rule rules inductionHypothesis =>
      rw [List.forall_mem_cons] at wellFormed inRange
      have stepped : addCounter stats.rulesEvaluated 1 < 2 ^ 64 := Nat.mod_lt _ (Nat.two_pow_pos 64)
      rw [matchRules, matchRule_eq wellFormed.1, List.length_cons, Nat.add_comm rules.length 1,
        ← addCounter_addCounter, List.filterMap_cons]
      dsimp only [bind, Option.bind]
      cases made : callOf pkt rule with
      | none => exact inductionHypothesis wellFormed.2 parser any stepped inRange.2
      | some call =>
          generalize entered : ({ stats with
            rulesEvaluated := addCounter stats.rulesEvaluated 1 } : EngineStats) = evaluated
          have sameSize : evaluated.perRule.length = stats.perRule.length := by rw [← entered]
          have own : call.ruleId < evaluated.perRule.length := by
            rw [(callOf_numbers made).2.2, sameSize]
            exact inRange.1
          have stepped : (evaluated.charge (call, (onMatch parser call).1)).rulesEvaluated < 2 ^ 64 := by
            rw [← entered]
            exact Nat.mod_lt _ (Nat.two_pow_pos 64)
          dsimp only
          rw [recordMatch_eq evaluated _ own]
          dsimp only
          rw [inductionHypothesis wellFormed.2 _ true stepped (by simpa [sameSize] using inRange.2),
            ← entered]
          simp [answer, EngineStats.charge]

/-- A packet is matched by charging the answers to its calls. -/
theorem dparMatch_eq (wellFormed : ∀ rule ∈ rules, rule.WellFormed palette)
    (inRange : ∀ rule ∈ rules, rule.ruleId < rules.length) (loaded : rules ≠ []) (pkt : DagPacket)
    (onMatch : σ → MatchCall → Nat × σ) (parser : σ) (bounded : stats.rulesEvaluated < 2 ^ 64) :
    dparMatch rules pkt.data pkt.packetId stats onMatch parser =
      let out := answer onMatch parser (rules.filterMap (callOf pkt))
      some (stats.visited rules.length out.1, out.2) := by
  have evaluated : (stats.entered rules.length).rulesEvaluated < 2 ^ 64 := bounded
  have matched := matchRules_eq wellFormed pkt onMatch parser false evaluated
    fun rule member => Nat.lt_of_lt_of_le (inRange rule member) (stats.le_length_entered _)
  rw [dparMatch_of_loaded loaded, matched]
  dsimp only [Option.map_some]
  rw [EngineStats.visited, Bool.false_or]
  cases (answer onMatch parser (rules.filterMap (callOf pkt))).1 <;> rfl

end Packet

/-! ### The account of a run -/

/-- A rule's own statistics; an entry that is missing counts nothing. -/
def EngineStats.ruleStat (stats : EngineStats) (r : Nat) : RuleStat := stats.perRule.getD r {}

/-- The rule that an answered call is charged to. -/
def entryRule (entry : MatchCall × Nat) : Nat := entry.1.ruleId

/-- The rows are those of the log, in total and rule by rule. -/
structure Charged (log : List (MatchCall × Nat)) (stats : EngineStats) : Prop where
  rowsEmitted : stats.rowsEmitted = (log.map Prod.snd).sum % 2 ^ 64
  matched : ∀ r, (stats.ruleStat r).matched = charged entryRule log r % 2 ^ 64
  emitted : ∀ r, (stats.ruleStat r).rowsEmitted = credited entryRule Prod.snd log r % 2 ^ 64

/-- The statistics of `n` rules account for packets with these answers. -/
structure Accounts (n : Nat) (visits : List (List (MatchCall × Nat))) (stats : EngineStats) :
    Prop where
  packetsSeen : stats.packetsSeen = visits.length % 2 ^ 64
  packetsMatchedAny : stats.packetsMatchedAny = visits.countP (!·.isEmpty) % 2 ^ 64
  rulesEvaluated : stats.rulesEvaluated = visits.length * n % 2 ^ 64
  length_perRule : stats.perRule.length = if visits = [] then 0 else n
  charged : Charged visits.flatten stats

section Account

variable {stats : EngineStats} {log : List (MatchCall × Nat)}

theorem addCounter_mod (counter amount : Nat) :
    addCounter (counter % 2 ^ 64) amount = (counter + amount) % 2 ^ 64 :=
  Nat.mod_add_mod _ _ _

theorem ruleStat_charge (entry : MatchCall × Nat) (r : Nat)
    (inRange : entry.1.ruleId < stats.perRule.length) :
    (stats.charge entry).ruleStat r =
      if entryRule entry = r then
        ⟨addCounter (stats.ruleStat r).matched 1, addCounter (stats.ruleStat r).rowsEmitted entry.2⟩
      else stats.ruleStat r := by
  rw [EngineStats.ruleStat, EngineStats.ruleStat, EngineStats.charge, List.getD_eq_getElem?_getD,
    List.getD_eq_getElem?_getD, List.getElem?_modify]
  by_cases own : entry.1.ruleId = r
  · rw [← own, List.getElem?_eq_getElem inRange]
    simp [entryRule]
  · simp [entryRule, own]

/-- Charging an answered call appends it to the log that is accounted for. -/
theorem Charged.charge (holds : Charged log stats) {entry : MatchCall × Nat}
    (inRange : entry.1.ruleId < stats.perRule.length) :
    Charged (log ++ [entry]) (stats.charge entry) := by
  constructor
  · show addCounter stats.rowsEmitted entry.2 = _
    rw [holds.rowsEmitted, addCounter_mod, List.map_append, List.sum_append, List.map_singleton,
      List.sum_singleton]
  · intro r
    rw [ruleStat_charge entry r inRange, charged_append, charged_cons, charged_nil, Nat.add_zero]
    split
    · show addCounter (stats.ruleStat r).matched 1 = _
      rw [holds.matched, addCounter_mod]
    · exact holds.matched r
  · intro r
    rw [ruleStat_charge entry r inRange, credited_append, credited_cons, credited_nil,
      Nat.add_zero]
    split
    · show addCounter (stats.ruleStat r).rowsEmitted entry.2 = _
      rw [holds.emitted, addCounter_mod]
    · exact holds.emitted r

theorem Charged.foldl (holds : Charged log stats) (later : List (MatchCall × Nat))
    (inRange : ∀ entry ∈ later, entry.1.ruleId < stats.perRule.length) :
    Charged (log ++ later) (later.foldl EngineStats.charge stats) := by
  induction later generalizing log stats with
  | nil => rwa [List.append_nil]
  | cons entry later inductionHypothesis =>
      rw [List.forall_mem_cons] at inRange
      rw [List.append_cons]
      apply inductionHypothesis (holds.charge inRange.1)
      rw [EngineStats.length_perRule_charge]
      exact inRange.2

/-- Charging changes the row counts only. -/
theorem foldl_charge (later : List (MatchCall × Nat)) (stats : EngineStats) :
    (later.foldl EngineStats.charge stats).packetsSeen = stats.packetsSeen ∧
      (later.foldl EngineStats.charge stats).packetsMatchedAny = stats.packetsMatchedAny ∧
      (later.foldl EngineStats.charge stats).rulesEvaluated = stats.rulesEvaluated ∧
      (later.foldl EngineStats.charge stats).perRule.length = stats.perRule.length := by
  induction later generalizing stats with
  | nil => exact ⟨rfl, rfl, rfl, rfl⟩
  | cons entry later inductionHypothesis =>
      have rest := inductionHypothesis (stats.charge entry)
      rwa [EngineStats.length_perRule_charge] at rest

/-- Fresh statistics account for no packet. -/
theorem accounts_nil (n : Nat) : Accounts n [] {} := by
  refine ⟨rfl, rfl, ?_, rfl, rfl, fun r => ?_, fun r => ?_⟩
  · rw [List.length_nil, Nat.zero_mul]
    rfl
  · simp [EngineStats.ruleStat]
  · simp [EngineStats.ruleStat]

/-- Rows are charged to rules and in total, whatever the packets' counters are. -/
theorem Charged.congr {stats' : EngineStats} (holds : Charged log stats)
    (rows : stats'.rowsEmitted = stats.rowsEmitted)
    (ruleStat : ∀ r, stats'.ruleStat r = stats.ruleStat r) : Charged log stats' := by
  refine ⟨by rw [rows, holds.rowsEmitted], fun r => ?_, fun r => ?_⟩
  · rw [ruleStat r, holds.matched r]
  · rw [ruleStat r, holds.emitted r]

/-- The packet counters behind a packet. -/
theorem visited_counters (stats : EngineStats) (n : Nat) (log : List (MatchCall × Nat)) :
    (stats.visited n log).packetsSeen = addCounter stats.packetsSeen 1 ∧
      (stats.visited n log).rulesEvaluated = addCounter stats.rulesEvaluated n ∧
      (stats.visited n log).packetsMatchedAny =
        if log.isEmpty then stats.packetsMatchedAny else addCounter stats.packetsMatchedAny 1 := by
  obtain ⟨seen, matchedAny, evaluated, -⟩ := foldl_charge log
    { stats with
      packetsSeen := addCounter stats.packetsSeen 1
      rulesEvaluated := addCounter stats.rulesEvaluated n
      perRule := stats.perRule ++ List.replicate (n - stats.perRule.length) {} }
  rw [EngineStats.visited]
  split
  · exact ⟨seen, evaluated, matchedAny⟩
  · exact ⟨seen, evaluated, congrArg (addCounter · 1) matchedAny⟩

/-- A packet charges its answers to statistics that have an entry for each rule. -/
theorem Charged.visited {n : Nat} (holds : Charged log stats) {here : List (MatchCall × Nat)}
    (inRange : ∀ entry ∈ here, entry.1.ruleId < n) :
    Charged (log ++ here) (stats.visited n here) ∧
      (stats.visited n here).perRule.length = stats.perRule.length + (n - stats.perRule.length) := by
  rw [EngineStats.visited]
  generalize enters : EngineStats.mk _ _ _ _ _ = entered
  have width : entered.perRule.length = stats.perRule.length + (n - stats.perRule.length) := by
    rw [← enters, List.length_append, List.length_replicate]
  have enteredRows : Charged log entered := by
    apply holds.congr
    · rw [← enters]
    · intro r
      rw [← enters]
      exact getD_append_replicate stats.perRule _ r {}
  have after : Charged (log ++ here) (here.foldl EngineStats.charge entered) := by
    apply enteredRows.foldl
    intro entry member
    rw [width]
    have inside := inRange entry member
    omega
  obtain ⟨-, -, -, size⟩ := foldl_charge here entered
  split
  · exact ⟨after, size.trans width⟩
  · exact ⟨after.congr rfl fun _ => rfl, size.trans width⟩

/-- A packet's answers are appended to what the statistics account for. -/
theorem Accounts.visited {n : Nat} {visits : List (List (MatchCall × Nat))}
    (holds : Accounts n visits stats) (inRange : ∀ entry ∈ log, entry.1.ruleId < n) :
    Accounts n (visits ++ [log]) (stats.visited n log) := by
  obtain ⟨seen, evaluated, matchedAny⟩ := visited_counters stats n log
  obtain ⟨rows, size⟩ := holds.charged.visited inRange
  have nonempty : visits ++ [log] ≠ [] := by simp
  constructor
  · rw [seen, holds.packetsSeen, addCounter_mod, List.length_append, List.length_singleton]
  · rw [matchedAny, holds.packetsMatchedAny, addCounter_mod, List.countP_append]
    cases log <;> simp
  · rw [evaluated, holds.rulesEvaluated, addCounter_mod, List.length_append,
      List.length_singleton, Nat.add_mul, Nat.one_mul]
  · rw [size, holds.length_perRule, if_neg nonempty]
    split <;> omega
  · rwa [List.flatten_append, List.flatten_singleton]

theorem RuleStat.eq_of_fields {first second : RuleStat} (matched : first.matched = second.matched)
    (emitted : first.rowsEmitted = second.rowsEmitted) : first = second := by
  cases first
  cases second
  exact congr (congrArg RuleStat.mk matched) emitted

/-- Statistics that account for the same packets in another order are the same. -/
theorem Accounts.eq_of_perm {n : Nat} {visits other : List (List (MatchCall × Nat))}
    {stats' : EngineStats} (first : Accounts n visits stats) (second : Accounts n other stats')
    (same : visits.Perm other) : stats = stats' := by
  have flat := same.flatten
  have size : stats.perRule.length = stats'.perRule.length := by
    rw [first.length_perRule, second.length_perRule]
    have empty : visits = [] ↔ other = [] := by
      rw [← List.length_eq_zero_iff, ← List.length_eq_zero_iff, same.length_eq]
    simp only [empty]
  have ruleStat : ∀ r, stats.ruleStat r = stats'.ruleStat r := by
    intro r
    have matched : (stats.ruleStat r).matched = (stats'.ruleStat r).matched := by
      rw [first.charged.matched, second.charged.matched, charged_perm entryRule flat]
    have emitted : (stats.ruleStat r).rowsEmitted = (stats'.ruleStat r).rowsEmitted := by
      rw [first.charged.emitted, second.charged.emitted, credited_perm entryRule Prod.snd flat]
    exact RuleStat.eq_of_fields matched emitted
  have perRule : stats.perRule = stats'.perRule := by
    apply List.ext_getElem size
    intro r below below'
    have same := ruleStat r
    rwa [EngineStats.ruleStat, EngineStats.ruleStat, List.getD_eq_getElem?_getD,
      List.getD_eq_getElem?_getD, List.getElem?_eq_getElem below,
      List.getElem?_eq_getElem below'] at same
  have seen : stats.packetsSeen = stats'.packetsSeen := by
    rw [first.packetsSeen, second.packetsSeen, same.length_eq]
  have matchedAny : stats.packetsMatchedAny = stats'.packetsMatchedAny := by
    rw [first.packetsMatchedAny, second.packetsMatchedAny, same.countP_eq]
  have evaluated : stats.rulesEvaluated = stats'.rulesEvaluated := by
    rw [first.rulesEvaluated, second.rulesEvaluated, same.length_eq]
  have rows : stats.rowsEmitted = stats'.rowsEmitted := by
    rw [first.charged.rowsEmitted, second.charged.rowsEmitted, (flat.map Prod.snd).sum_eq]
  rcases stats with ⟨_, _, _, _, _⟩
  rcases stats' with ⟨_, _, _, _, _⟩
  exact congr (congr (congr (congr (congrArg _ seen) matchedAny) evaluated) rows) perRule

/-- The total is the sum of what the rules emitted. -/
theorem Accounts.sum_perRule {n : Nat} {visits : List (List (MatchCall × Nat))}
    (holds : Accounts n visits stats) (inRange : ∀ entry ∈ visits.flatten, entryRule entry < n) :
    (stats.perRule.map RuleStat.rowsEmitted).sum % 2 ^ 64 = stats.rowsEmitted := by
  have entries : stats.perRule.map RuleStat.rowsEmitted =
      (List.range stats.perRule.length).map fun r => (stats.ruleStat r).rowsEmitted := by
    apply List.ext_getElem
    · simp
    · intro r below below'
      have inside : r < stats.perRule.length := by simpa using below
      simp [EngineStats.ruleStat, List.getD_eq_getElem?_getD, List.getElem?_eq_getElem inside]
  rw [entries, holds.charged.rowsEmitted, holds.length_perRule]
  simp only [holds.charged.emitted]
  split
  · next none =>
    rw [none]
    rfl
  · have modulo := List.sum_nat_mod
      ((List.range n).map (credited entryRule Prod.snd visits.flatten)) (2 ^ 64)
    rw [List.map_map] at modulo
    rw [← sum_credited entryRule Prod.snd inRange, modulo]
    rfl

end Account

/-! ### Runs -/

section Run

variable {σ : Type} {palette : Nat} {rules : List Rule}

theorem ruleId_of_mem_answer {n : Nat} (inRange : ∀ rule ∈ rules, rule.ruleId < n)
    (pkt : DagPacket) (onMatch : σ → MatchCall → Nat × σ) (parser : σ) :
    ∀ entry ∈ (answer onMatch parser (rules.filterMap (callOf pkt))).1, entryRule entry < n := by
  intro entry member
  have called : entry.1 ∈ rules.filterMap (callOf pkt) := by
    rw [← map_fst_answer onMatch parser (rules.filterMap (callOf pkt))]
    exact List.mem_map_of_mem member
  rcases List.mem_filterMap.mp called with ⟨rule, own, made⟩
  rw [entryRule, (callOf_numbers made).2.2]
  exact inRange rule own

theorem ruleId_of_mem_answers {n : Nat} (inRange : ∀ rule ∈ rules, rule.ruleId < n)
    (onMatch : Bytes → σ → MatchCall → Nat × σ) (parser : σ) (pkts : List DagPacket) :
    ∀ entry ∈ (answers rules onMatch parser pkts).1.flatten, entryRule entry < n := by
  induction pkts generalizing parser with
  | nil => exact List.forall_mem_nil _
  | cons pkt pkts inductionHypothesis =>
      show ∀ entry ∈ (_ :: (answers rules onMatch _ pkts).1).flatten, _
      rw [List.flatten_cons, List.forall_mem_append]
      exact ⟨ruleId_of_mem_answer inRange pkt _ parser, inductionHypothesis _⟩

/-- A run answers the calls of each packet, and its statistics account for them. -/
theorem matchPackets_eq (wellFormed : ∀ rule ∈ rules, rule.WellFormed palette)
    (inRange : ∀ rule ∈ rules, rule.ruleId < rules.length) (loaded : rules ≠ [])
    (onMatch : Bytes → σ → MatchCall → Nat × σ) (parser : σ) (pkts : List DagPacket)
    {stats : EngineStats} {visits : List (List (MatchCall × Nat))}
    (holds : Accounts rules.length visits stats) :
    ∃ after, matchPackets rules onMatch stats parser pkts =
        some (after, (answers rules onMatch parser pkts).2) ∧
      Accounts rules.length (visits ++ (answers rules onMatch parser pkts).1) after := by
  induction pkts generalizing stats parser visits with
  | nil =>
      refine ⟨stats, rfl, ?_⟩
      show Accounts rules.length (visits ++ []) stats
      rwa [List.append_nil]
  | cons pkt pkts inductionHypothesis =>
      have bounded : stats.rulesEvaluated < 2 ^ 64 := by
        rw [holds.rulesEvaluated]
        exact Nat.mod_lt _ (Nat.two_pow_pos 64)
      have step := dparMatch_eq wellFormed inRange loaded pkt (onMatch pkt.data) parser bounded
      have next := holds.visited (ruleId_of_mem_answer inRange pkt (onMatch pkt.data) parser)
      rcases inductionHypothesis _ next with ⟨after, ran, accounted⟩
      refine ⟨after, ?_, ?_⟩
      · rw [matchPackets, List.foldlM_cons, step]
        exact ran
      · rw [List.append_assoc] at accounted
        exact accounted

/-- The calls of a run are those of each packet and rule by itself. -/
theorem map_fst_answers (onMatch : Bytes → σ → MatchCall → Nat × σ) (parser : σ)
    (pkts : List DagPacket) :
    (answers rules onMatch parser pkts).1.map (List.map Prod.fst) =
      pkts.map fun pkt => rules.filterMap (callOf pkt) := by
  induction pkts generalizing parser with
  | nil => rfl
  | cons pkt pkts inductionHypothesis =>
      show (answer _ parser _).1.map Prod.fst :: (answers rules onMatch _ pkts).1.map _ = _
      rw [map_fst_answer, inductionHypothesis]
      rfl

/-- The bytes of the packet that a call hands over. -/
def regionBytes (pkt : Bytes) (call : MatchCall) : Bytes :=
  (pkt.drop call.regionBegin).take (call.regionEnd - call.regionBegin)

/-- Parsers whose row counts depend on their arguments and the region alone
answer each packet by itself. -/
theorem answers_of_stateless {onMatch : Bytes → σ → MatchCall → Nat × σ}
    {rows : MatchCall → Bytes → Nat}
    (stateless : ∀ pkt parser call, (onMatch pkt parser call).1 = rows call (regionBytes pkt call))
    (parser : σ) (pkts : List DagPacket) :
    (answers rules onMatch parser pkts).1 = pkts.map fun pkt =>
      (rules.filterMap (callOf pkt)).map fun call => (call, rows call (regionBytes pkt.data call)) := by
  induction pkts generalizing parser with
  | nil => rfl
  | cons pkt pkts inductionHypothesis =>
      show (answer _ parser _).1 :: (answers rules onMatch _ pkts).1 = _
      rw [answer_of_stateless (stateless pkt.data), inductionHypothesis]
      rfl

end Run

/-! ### Compiled rules -/

section Compiled

variable {text : Text} {parserNames : List Text}

/-- Compiled rules are well formed, and their ids are in range. -/
theorem wellFormed_of_compiled
    (ok : (compileRules text buildL2l3Catalog parserNames).ok = true) :
    (∀ rule ∈ (compileRules text buildL2l3Catalog parserNames).rules,
      rule.WellFormed parserNames.length) ∧
    (∀ rule ∈ (compileRules text buildL2l3Catalog parserNames).rules,
      rule.ruleId < (compileRules text buildL2l3Catalog parserNames).rules.length) ∧
    ∀ i (rule : Rule), (compileRules text buildL2l3Catalog parserNames).rules[i]? = some rule →
      rule.ruleId = i % 2 ^ 32 := by
  obtain ⟨⟨rules, -, -⟩, same⟩ := compileRules_numbered ok
  rw [← same] at rules
  refine ⟨fun rule member => ?_, fun rule member => ?_, fun i rule found => (rules i rule found).2⟩
  · rcases List.mem_iff_getElem?.mp member with ⟨i, found⟩
    exact (rules i rule found).1
  · rcases List.mem_iff_getElem?.mp member with ⟨i, found⟩
    rw [(rules i rule found).2]
    exact Nat.lt_of_le_of_lt (Nat.mod_le _ _) (List.getElem?_eq_some_iff.mp found).1

/-- A run of compiled rules over packets, from fresh statistics: the calls on
each packet are those of each rule by itself, in rule order; the statistics
account for the answers to them; and if these depend on the call and its region
alone, the order of the packets does not matter. -/
theorem matchPackets_accounts (ok : (compileRules text buildL2l3Catalog parserNames).ok = true)
    (loaded : (compileRules text buildL2l3Catalog parserNames).rules ≠ []) {σ : Type}
    (onMatch : Bytes → σ → MatchCall → Nat × σ) (parser : σ) (pkts : List DagPacket) :
    let rules := (compileRules text buildL2l3Catalog parserNames).rules
    let run := answers rules onMatch parser pkts
    ∃ stats, matchPackets rules onMatch {} parser pkts = some (stats, run.2) ∧
      (run.1.map (List.map Prod.fst) = pkts.map fun pkt => rules.filterMap (callOf pkt)) ∧
      (∀ pkt, ∀ rule ∈ rules, ∀ call, callOf pkt rule = some call ↔
        (∀ pr ∈ rule.preds, Holds pkt.data pr) ∧ ∃ region, Resolves pkt.data rule.region region ∧
          call = ⟨rule.parserKind, pkt.packetId, rule.ruleId, region.1, region.2⟩) ∧
      (∀ i (rule : Rule), rules[i]? = some rule → rule.ruleId = i % 2 ^ 32) ∧
      Accounts rules.length run.1 stats ∧
      (stats.perRule.map RuleStat.rowsEmitted).sum % 2 ^ 64 = stats.rowsEmitted ∧
      ∀ rows : MatchCall → Bytes → Nat,
        (∀ pkt parser call, (onMatch pkt parser call).1 = rows call (regionBytes pkt call)) →
          ∀ reordered, pkts.Perm reordered →
            ∃ parser', matchPackets rules onMatch {} parser reordered = some (stats, parser') := by
  intro rules run
  obtain ⟨wellFormed, inRange, numbered⟩ := wellFormed_of_compiled ok
  rcases matchPackets_eq wellFormed inRange loaded onMatch parser pkts (accounts_nil _)
    with ⟨stats, ran, accounted⟩
  rw [List.nil_append] at accounted
  refine ⟨stats, ran, map_fst_answers onMatch parser pkts,
    fun pkt rule member call => callOf_eq_some_iff (wellFormed rule member), numbered,
    accounted, accounted.sum_perRule (ruleId_of_mem_answers inRange onMatch parser pkts), ?_⟩
  intro rows stateless reordered same
  rcases matchPackets_eq wellFormed inRange loaded onMatch parser reordered (accounts_nil _)
    with ⟨stats', ran', accounted'⟩
  rw [List.nil_append, answers_of_stateless stateless] at accounted'
  rw [answers_of_stateless stateless] at accounted
  rw [accounted.eq_of_perm accounted' (same.map _)]
  exact ⟨_, ran'⟩

/-- A UDP packet of the first example rule, with three bytes of payload. -/
def exampleUdp : Bytes :=
  List.replicate 12 0 ++ [8, 0] ++ [0x45] ++ List.replicate 8 0 ++ [17] ++ List.replicate 10 0 ++
    [0, 0, 0x27, 0x0F, 0, 11, 0, 0] ++ [1, 2, 3]

/-- A TCP packet of the second one, with four bytes of options and one of payload. -/
def exampleTcp : Bytes :=
  List.replicate 12 0 ++ [8, 0] ++ [0x45] ++ List.replicate 8 0 ++ [6] ++ List.replicate 10 0 ++
    [0, 0, 0, 80] ++ List.replicate 8 0 ++ [0x60] ++ List.replicate 7 0 ++ [1, 1, 1, 0] ++ [9]

theorem matchPackets_accounts_exampleRules :
    let rules := (compileRules exampleRules buildL2l3Catalog ["someip_tlv".toList]).rules
    let onMatch : Bytes → Nat → MatchCall → Nat × Nat := fun _ calls call =>
      (call.regionEnd - call.regionBegin, calls + 1)
    let pkts : List DagPacket := [⟨exampleUdp, 0⟩, ⟨[], 1⟩, ⟨exampleTcp, 2⟩, ⟨exampleUdp, 3⟩]
    ∃ stats, matchPackets rules onMatch {} 0 pkts = some (stats, 3) ∧
      (pkts.map fun pkt => rules.filterMap (callOf pkt)) =
        [[⟨0, 0, 0, 42, 45⟩], [], [⟨0, 2, 1, 58, 59⟩], [⟨0, 3, 0, 42, 45⟩]] ∧
      stats.packetsSeen = 4 ∧ stats.packetsMatchedAny = 3 ∧ stats.rulesEvaluated = 8 := by
  intro rules onMatch pkts
  obtain ⟨stats, ran, -, -, -, accounted, -⟩ :=
    matchPackets_accounts exampleRules_ok.1 exampleRules_ok.2 onMatch 0 pkts
  have parsers : (answers rules onMatch 0 pkts).2 = 3 := by decide +kernel
  refine ⟨stats, by rw [← parsers]; exact ran, by decide +kernel, ?_, ?_, ?_⟩
  · exact accounted.packetsSeen.trans (by decide +kernel)
  · exact accounted.packetsMatchedAny.trans (by decide +kernel)
  · exact accounted.rulesEvaluated.trans (by decide +kernel)

end Compiled

/-! ### What `matched` counts -/

/-- The walk has seen the region's anchor, and a TCP header that the region
starts behind ends inside the packet. -/
def RegionInside (pkt : Bytes) (kind : RegionKind) : Prop :=
  ∃ off, lastOffset (walk l2l3 kEthRoot pkt).visits kind.anchor = some off ∧
    (kind = .tcpPayload → off + readUint pkt off TcpSpec.dataOffset * 4 ≤ pkt.length)

instance (pkt : Bytes) (kind : RegionKind) : Decidable (RegionInside pkt kind) :=
  match seen : lastOffset (walk l2l3 kEthRoot pkt).visits kind.anchor with
  | none => .isFalse (by simp [RegionInside, seen])
  | some off =>
      decidable_of_iff
        (kind = .tcpPayload → off + readUint pkt off TcpSpec.dataOffset * 4 ≤ pkt.length)
        (by simp [RegionInside, seen])

/-- The packets on which all predicates of the rule hold. -/
def holdingPackets (rule : Rule) (pkts : List DagPacket) : Nat :=
  pkts.countP fun pkt => decide (∀ pr ∈ rule.preds, Holds pkt.data pr)

/-- Those of them on which entry `r` is not charged: the region does not start
inside the packet, or the index has wrapped in `rule_id`. -/
def missedPackets (rule : Rule) (r : Nat) (pkts : List DagPacket) : Nat :=
  pkts.countP fun pkt =>
    decide (∀ pr ∈ rule.preds, Holds pkt.data pr) &&
      !(decide (rule.ruleId = r) && decide (RegionInside pkt.data rule.region.kind))

/-- The calls that entry `r` is charged for although another rule makes them. -/
def sharedCalls (rules : List Rule) (r : Nat) (pkts : List DagPacket) : Nat :=
  (pkts.map fun pkt =>
    (rules.eraseIdx r).countP fun other =>
      decide (other.ruleId = r) &&
        (decide (∀ pr ∈ other.preds, Holds pkt.data pr) &&
          decide (RegionInside pkt.data other.region.kind))).sum

section Matched

variable {pkt : Bytes}

/-- A region resolves exactly when it starts inside the packet. -/
theorem exists_resolves_iff (rs : RegionSel) :
    (∃ region, Resolves pkt rs region) ↔ RegionInside pkt rs.kind := by
  have starts : ∀ off, lastOffset (walk l2l3 kEthRoot pkt).visits rs.kind.anchor = some off →
      (rs.kind.start pkt off ≤ pkt.length ↔ (rs.kind = .tcpPayload →
        off + readUint pkt off TcpSpec.dataOffset * 4 ≤ pkt.length)) := by
    intro off last
    have fits : off + specSize rs.kind.anchor.spec ≤ pkt.length :=
      fits_of_mem_visits (lastOffset_mem _ last)
    cases kind : rs.kind with
    | ethPayload | vlanPayload | udpPayload | someipPayload =>
        rw [kind] at fits
        exact iff_of_true fits nofun
    | tcpPayload =>
        rw [kind] at fits
        have fixed : off + 20 ≤ pkt.length := fits
        rw [RegionKind.start]
        simp only [true_implies]
        omega
  constructor
  · rintro ⟨region, off, last, inside, -⟩
    exact ⟨off, last, (starts off last).mp inside⟩
  · rintro ⟨off, last, inside⟩
    exact ⟨_, off, last, (starts off last).mpr inside, rfl⟩

/-- A rule calls its parser exactly when its predicates hold and its region
starts inside the packet. -/
theorem isSome_callOf_iff {pkt : DagPacket} {rule : Rule} {palette : Nat}
    (wellFormed : rule.WellFormed palette) :
    (callOf pkt rule).isSome = true ↔
      (∀ pr ∈ rule.preds, Holds pkt.data pr) ∧ RegionInside pkt.data rule.region.kind := by
  rw [← exists_resolves_iff, Option.isSome_iff_exists]
  simp only [callOf_eq_some_iff wellFormed]
  constructor
  · rintro ⟨call, held, region, resolved, -⟩
    exact ⟨held, region, resolved⟩
  · rintro ⟨held, region, resolved⟩
    exact ⟨_, held, region, resolved, rfl⟩

/-- An entry is charged for the calls of the rules with its id. -/
theorem charged_answer {σ : Type} {palette : Nat} {rules : List Rule}
    (wellFormed : ∀ rule ∈ rules, rule.WellFormed palette) (r : Nat) (pkt : DagPacket)
    (onMatch : σ → MatchCall → Nat × σ) (parser : σ) :
    charged entryRule (answer onMatch parser (rules.filterMap (callOf pkt))).1 r =
      rules.countP fun rule =>
        decide (rule.ruleId = r) &&
          (decide (∀ pr ∈ rule.preds, Holds pkt.data pr) &&
            decide (RegionInside pkt.data rule.region.kind)) := by
  have calls := map_fst_answer onMatch parser (rules.filterMap (callOf pkt))
  have counted := congrArg (List.countP fun call : MatchCall => decide (call.ruleId = r)) calls
  rw [List.countP_map, List.countP_filterMap] at counted
  refine counted.trans (List.countP_congr fun rule member => ?_)
  have called : (callOf pkt rule).isSome = true ↔ _ := isSome_callOf_iff (wellFormed rule member)
  rw [Bool.and_eq_true, Bool.and_eq_true, decide_eq_true_eq, decide_eq_true_eq,
    decide_eq_true_eq, ← called]
  cases made : callOf pkt rule with
  | none => simp
  | some call =>
      rw [Option.map_some, (callOf_numbers made).2.2]
      simp

/-- What an entry is charged and misses is what the rule is due and what other
rules share with it. -/
theorem charged_add_missed {σ : Type} {palette : Nat} {rules : List Rule} {r : Nat} {rule : Rule}
    (wellFormed : ∀ rule ∈ rules, rule.WellFormed palette) (found : rules[r]? = some rule)
    (onMatch : Bytes → σ → MatchCall → Nat × σ) (parser : σ) (pkts : List DagPacket) :
    charged entryRule (answers rules onMatch parser pkts).1.flatten r + missedPackets rule r pkts =
      holdingPackets rule pkts + sharedCalls rules r pkts := by
  induction pkts generalizing parser with
  | nil => rfl
  | cons pkt pkts inductionHypothesis =>
      have later := inductionHypothesis
        (answer (onMatch pkt.data) parser (rules.filterMap (callOf pkt))).2
      show charged entryRule ((answer _ parser _).1 :: (answers rules onMatch _ pkts).1).flatten r
        + _ = _
      rw [List.flatten_cons, charged_append, charged_answer wellFormed, countP_eq_eraseIdx _ found]
      rw [missedPackets, holdingPackets, sharedCalls] at later ⊢
      rw [List.countP_cons, List.countP_cons, List.map_cons, List.sum_cons]
      have own : ∀ holds inside same : Bool,
          (if same && (holds && inside) then 1 else 0) +
            (if holds && !(same && inside) then 1 else 0) = if holds then 1 else 0 := by
        decide
      have here := own (decide (∀ pr ∈ rule.preds, Holds pkt.data pr))
        (decide (RegionInside pkt.data rule.region.kind)) (decide (rule.ruleId = r))
      omega

/-- As long as no two rules share an id, no call is shared. -/
theorem sharedCalls_eq_zero {rules : List Rule}
    (numbered : ∀ i (rule : Rule), rules[i]? = some rule → rule.ruleId = i) (r : Nat)
    (pkts : List DagPacket) : sharedCalls rules r pkts = 0 := by
  apply List.sum_eq_zero
  intro calls member
  rcases List.mem_map.mp member with ⟨pkt, -, rfl⟩
  rw [List.countP_eq_zero]
  intro other rest
  simp [account_ne_of_mem_eraseIdx Rule.ruleId numbered other rest]

theorem missedPackets_le (rule : Rule) (r : Nat) (pkts : List DagPacket) :
    missedPackets rule r pkts ≤ holdingPackets rule pkts := by
  apply List.countP_mono_left
  intro pkt _ missed
  exact (Bool.and_eq_true_iff.mp missed).1

theorem missedPackets_eq_zero_iff {rule : Rule} {r : Nat} (own : rule.ruleId = r)
    (pkts : List DagPacket) :
    missedPackets rule r pkts = 0 ↔ ∀ pkt ∈ pkts,
      (∀ pr ∈ rule.preds, Holds pkt.data pr) → RegionInside pkt.data rule.region.kind := by
  rw [missedPackets, List.countP_eq_zero]
  refine forall₂_congr fun pkt _ => ?_
  rw [Bool.and_eq_true, decide_eq_true_eq, decide_eq_true own, Bool.true_and, Bool.not_eq_true',
    decide_eq_false_iff_not, not_and_not_right]

end Matched

section Compiled

variable {text : Text} {parserNames : List Text}

/-- After a run from fresh statistics `matched` counts the packets on which the
rule's predicates hold exactly when it does not overflow and the entry's missed
packets and shared calls balance.  As long as no two rules share an id, that is
when the rule's region starts inside every such packet. -/
theorem matched_eq_holding_iff (ok : (compileRules text buildL2l3Catalog parserNames).ok = true)
    {r : Nat} {rule : Rule}
    (found : (compileRules text buildL2l3Catalog parserNames).rules[r]? = some rule)
    {σ : Type} (onMatch : Bytes → σ → MatchCall → Nat × σ) (parser : σ) (pkts : List DagPacket) :
    let rules := (compileRules text buildL2l3Catalog parserNames).rules
    ∃ stats parser', matchPackets rules onMatch {} parser pkts = some (stats, parser') ∧
      ((stats.ruleStat r).matched = holdingPackets rule pkts ↔
        holdingPackets rule pkts < 2 ^ 64 ∧
          missedPackets rule r pkts ≡ sharedCalls rules r pkts [MOD 2 ^ 64]) ∧
      (rules.length ≤ 2 ^ 32 →
        ((stats.ruleStat r).matched = holdingPackets rule pkts ↔
          holdingPackets rule pkts < 2 ^ 64 ∧ ∀ pkt ∈ pkts,
            (∀ pr ∈ rule.preds, Holds pkt.data pr) → RegionInside pkt.data rule.region.kind)) := by
  intro rules
  obtain ⟨wellFormed, inRange, ids⟩ := wellFormed_of_compiled ok
  have loaded : rules ≠ [] := by
    intro empty
    change rules[r]? = some rule at found
    rw [empty] at found
    contradiction
  rcases matchPackets_eq wellFormed inRange loaded onMatch parser pkts (accounts_nil _)
    with ⟨stats, ran, accounted⟩
  rw [List.nil_append] at accounted
  have counted : (stats.ruleStat r).matched = holdingPackets rule pkts ↔
      holdingPackets rule pkts < 2 ^ 64 ∧
        missedPackets rule r pkts ≡ sharedCalls rules r pkts [MOD 2 ^ 64] := by
    rw [accounted.charged.matched]
    exact mod_eq_due_iff (Nat.two_pow_pos 64)
      (charged_add_missed wellFormed found onMatch parser pkts)
  refine ⟨stats, _, ran, counted, fun few => ?_⟩
  have numbered : ∀ i (rule : Rule), rules[i]? = some rule → rule.ruleId = i := by
    intro i rule at_i
    have below := (List.getElem?_eq_some_iff.mp at_i).1
    rw [ids i rule at_i, Nat.mod_eq_of_lt (Nat.lt_of_lt_of_le below few)]
  rw [counted, sharedCalls_eq_zero numbered, ← missedPackets_eq_zero_iff (numbered r rule found)]
  refine and_congr_right fun small => ?_
  have fewer := Nat.lt_of_le_of_lt (missedPackets_le rule r pkts) small
  rw [Nat.modEq_zero_iff_dvd]
  constructor
  · intro divides
    exact Nat.eq_zero_of_dvd_of_lt divides fewer
  · intro none
    rw [none]
    exact dvd_zero _

/-- A predicate on the Ethernet header, and a region behind a UDP header. -/
def ethernetRule : Text := "eth.ethertype == 0x0800 => raw_tlv udp_payload".toList

theorem ethernetRule_ok :
    (compileRules ethernetRule buildL2l3Catalog ["raw_tlv".toList]).ok = true ∧
      (compileRules ethernetRule buildL2l3Catalog ["raw_tlv".toList]).rules =
        [{ preds := [⟨⟨0, 12, 2, true, false, 0, 0⟩, .eq, 0x0800⟩]
           region := ⟨.udpPayload, 5⟩ }] := by
  decide +kernel

theorem matched_eq_holding_iff_ethernetRule :
    let rules := (compileRules ethernetRule buildL2l3Catalog ["raw_tlv".toList]).rules
    let rule : Rule :=
      { preds := [⟨⟨0, 12, 2, true, false, 0, 0⟩, .eq, 0x0800⟩], region := ⟨.udpPayload, 5⟩ }
    let pkts : List DagPacket := [⟨List.replicate 60 0, 0⟩]
    ∃ stats parser',
      matchPackets rules (fun _ calls _ => (1, calls + 1)) {} 0 pkts = some (stats, parser') ∧
      ((stats.ruleStat 0).matched = holdingPackets rule pkts ↔
        holdingPackets rule pkts < 2 ^ 64 ∧
          missedPackets rule 0 pkts ≡ sharedCalls rules 0 pkts [MOD 2 ^ 64]) ∧
      (rules.length ≤ 2 ^ 32 →
        ((stats.ruleStat 0).matched = holdingPackets rule pkts ↔
          holdingPackets rule pkts < 2 ^ 64 ∧ ∀ pkt ∈ pkts,
            (∀ pr ∈ rule.preds, Holds pkt.data pr) → RegionInside pkt.data rule.region.kind)) := by
  intro rules rule pkts
  have found : rules[0]? = some rule := by
    show (compileRules ethernetRule buildL2l3Catalog ["raw_tlv".toList]).rules[0]? = _
    rw [ethernetRule_ok.2]
    rfl
  exact matched_eq_holding_iff ethernetRule_ok.1 found _ 0 pkts

/-- An IPv4 frame that ends behind its Ethernet header. -/
def ethernetPacket : Bytes := List.replicate 12 0 ++ [0x08, 0x00]

/-- The rule's predicate holds on the packet, and `matched` does not count it. -/
theorem matched_eq_holding_fails :
    (compileRules ethernetRule buildL2l3Catalog ["raw_tlv".toList]).ok = true ∧
      ∃ rule stats parser',
        (compileRules ethernetRule buildL2l3Catalog ["raw_tlv".toList]).rules[0]? = some rule ∧
        matchPackets (compileRules ethernetRule buildL2l3Catalog ["raw_tlv".toList]).rules
          (fun _ calls _ => (1, calls + 1)) {} 0 [⟨ethernetPacket, 0⟩] = some (stats, parser') ∧
        holdingPackets rule [⟨ethernetPacket, 0⟩] = 1 ∧ (stats.ruleStat 0).matched = 0 := by
  rw [ethernetRule_ok.2]
  refine ⟨ethernetRule_ok.1, _, ⟨1, 0, 1, 0, [{}]⟩, 0, rfl, ?_, ?_, rfl⟩
  · decide +kernel
  · decide +kernel

end Compiled

end Nanotins.Dpar
