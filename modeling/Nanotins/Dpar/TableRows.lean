import Nanotins.Dpar.Engine

/-!
Contract: what the tables of a matching engine hold.

Owns: Kinds that only append, the calls that a sequence of loads and runs makes,
and that every such sequence leaves in each Kind's table the rows of the calls that
select the Kind, in order (`tables_of_after`).

Does not own: what a Kind makes of a region.
-/

namespace Nanotins.Dpar

open Nanotins.Library Nanotins.SpecDag

/-! ### Kinds that append -/

namespace Kind

/-- The rows that a call of the Kind pushes. -/
def rows (kind : Kind) (pkt : Bytes) (call : MatchCall) : List kind.Row :=
  (kind.emit call.packetId call.ruleId pkt call.regionBegin call.regionEnd []).2

/-- The Kind only pushes rows, whatever is in its table, and returns their number. -/
def Appends (kind : Kind) : Prop :=
  ∀ pid ruleId pkt p stop out, kind.emit pid ruleId pkt p stop out =
    ((kind.emit pid ruleId pkt p stop []).2.length, out ++ (kind.emit pid ruleId pkt p stop []).2)

end Kind

theorem someipTlvKind_appends : SomeipTlvKind.Appends := by
  intro pid ruleId pkt p stop out
  exact congrArg (fun n => (n, List.append out (someipTlvRows pid ruleId pkt p stop)))
    (length_someipTlvRows pid ruleId pkt p stop).symm

theorem rawTlvKind_appends : RawTlvKind.Appends := by
  intro pid ruleId pkt p stop out
  exact congrArg (fun n => (n, List.append out (rawTlvRows pid ruleId pkt p stop)))
    (length_rawTlvRows pid ruleId pkt p stop).symm

theorem defaultPalette_appends : ∀ kind ∈ DefaultPalette, kind.Appends := by
  simp [DefaultPalette, someipTlvKind_appends, rawTlvKind_appends]

/-! ### Tables by index -/

namespace Palette

/-- `std::get<i>(tables)`. -/
def table : (palette : Palette) → Tables palette → (i : Fin palette.length) →
    List (palette.get i).Row
  | _ :: _, (table, _), ⟨0, _⟩ => table
  | _ :: kinds, (_, tables), ⟨i + 1, inside⟩ =>
      table kinds tables ⟨i, Nat.lt_of_succ_lt_succ inside⟩

/-- What a call adds to the table of index `i`. -/
def rowsAt (palette : Palette) (i : Fin palette.length) (made : Bytes × MatchCall) :
    List (palette.get i).Row :=
  if made.2.parserKind = i then (palette.get i).rows made.1 made.2 else []

section Table

variable {palette : Palette} {i : Fin palette.length}

theorem table_emptyTables : palette.table palette.emptyTables i = [] := by
  induction palette with
  | nil => exact i.elim0
  | cons kind kinds inductionHypothesis =>
      rcases i with ⟨_ | i, inside⟩
      · rfl
      · exact inductionHypothesis

theorem table_emitAt (appends : ∀ kind ∈ palette, kind.Appends) (pkt : Bytes) (call : MatchCall)
    (first : Nat) (tables : palette.Tables) :
    palette.table (emitAt call pkt first palette tables).2 i =
      palette.table tables i ++
        if call.parserKind = first + i then (palette.get i).rows pkt call else [] := by
  induction palette generalizing first with
  | nil => exact i.elim0
  | cons kind kinds inductionHypothesis =>
      rcases tables with ⟨table, tables⟩
      rw [List.forall_mem_cons] at appends
      rcases i with ⟨_ | i, inside⟩
      · change _ = table ++ if call.parserKind = first then kind.rows pkt call else []
        rw [emitAt]
        by_cases own : call.parserKind = first
        · rw [if_pos own, if_pos own]
          exact congrArg Prod.snd (appends.1 _ _ _ _ _ table)
        · rw [if_neg own, if_neg own, List.append_nil]
          rfl
      · have later := inductionHypothesis appends.2 (i := ⟨i, Nat.lt_of_succ_lt_succ inside⟩)
          (first + 1) tables
        have index : first + 1 + i = first + (i + 1) := by omega
        dsimp only at later ⊢
        rw [index] at later
        rw [emitAt]
        by_cases own : call.parserKind = first
        · rw [if_pos own, if_neg (by omega), List.append_nil]
          rfl
        · rw [if_neg own]
          exact later

theorem table_emit (appends : ∀ kind ∈ palette, kind.Appends) (pkt : Bytes)
    (tables : palette.Tables) (call : MatchCall) :
    palette.table (palette.emit pkt tables call).2 i =
      palette.table tables i ++ palette.rowsAt i (pkt, call) := by
  have added := table_emitAt (i := i) appends pkt call 0 tables
  rwa [Nat.zero_add] at added

theorem table_answer (appends : ∀ kind ∈ palette, kind.Appends) (pkt : Bytes)
    (tables : palette.Tables) (calls : List MatchCall) :
    palette.table (answer (palette.emit pkt) tables calls).2 i =
      palette.table tables i ++ (calls.map (pkt, ·)).flatMap (palette.rowsAt i) := by
  induction calls generalizing tables with
  | nil => exact (List.append_nil _).symm
  | cons call calls inductionHypothesis =>
      rw [answer]
      dsimp only
      rw [inductionHypothesis, table_emit appends, List.map_cons, List.flatMap_cons,
        List.append_assoc]

end Table

end Palette

/-! ### Calls of a sequence -/

section Calls

variable (palette : Palette) (catalog : List CatalogEntry)

/-- The rules behind a call. -/
def rulesAfter (rules : List Rule) : EngineCall → List Rule
  | .loadRules text =>
      if (compileRules text catalog palette.names).ok then
        (compileRules text catalog palette.names).rules
      else rules
  | .run _ => rules

/-- The parser calls that an engine call makes under the rules, with the packet
that their regions are in. -/
def callsOf (rules : List Rule) : EngineCall → List (Bytes × MatchCall)
  | .loadRules _ => []
  | .run pkt => (rules.filterMap (callOf pkt)).map (pkt.data, ·)

/-- The parser calls of a sequence that starts with the given rules. -/
def callsMade : List Rule → List EngineCall → List (Bytes × MatchCall)
  | _, [] => []
  | rules, call :: calls => callsOf rules call ++ callsMade (rulesAfter palette catalog rules call) calls

end Calls

section Runs

variable {palette : Palette} {engine behind : Engine palette} {call : EngineCall}

theorem rules_of_step (stepped : engine.step call = some behind) :
    behind.rules = rulesAfter palette engine.catalog engine.rules call := by
  cases call with
  | loadRules text =>
      obtain rfl : (engine.loadRules text).2 = behind := Option.some.inj stepped
      rw [Engine.loadRules, rulesAfter]
      dsimp only
      split <;> rfl
  | run pkt =>
      obtain ⟨result, -, rest⟩ := Option.bind_eq_some_iff.mp stepped
      cases rest
      rfl

/-- An engine whose runs do not fault, with its counter of rules in range. -/
structure Engine.Counting (engine : Engine palette) : Prop extends engine.Runnable where
  evaluated : engine.stats.rulesEvaluated < 2 ^ 64

theorem visited_rulesEvaluated_lt (stats : EngineStats) (n : Nat) (log : List (MatchCall × Nat)) :
    (stats.visited n log).rulesEvaluated < 2 ^ 64 := by
  rw [(visited_counters stats n log).2.1]
  exact Nat.mod_lt _ (Nat.two_pow_pos 64)

/-- A run answers the calls of the rules, and appends to the tables in this order. -/
theorem Engine.Counting.run (counting : engine.Counting) (pkt : DagPacket) :
    ∃ stats, engine.run pkt = some { engine with
        stats := stats
        tables := (answer (palette.emit pkt.data) engine.tables
          (engine.rules.filterMap (callOf pkt))).2 } ∧
      stats.rulesEvaluated < 2 ^ 64 := by
  by_cases none : engine.rules = []
  · refine ⟨engine.stats, ?_, counting.evaluated⟩
    rw [run_of_no_rules none, none, List.filterMap_nil, answer, ← none]
  · have matched := dparMatch_eq counting.wellFormed counting.inRange none pkt
      (palette.emit pkt.data) engine.tables counting.evaluated
    refine ⟨engine.stats.visited engine.rules.length (answer (palette.emit pkt.data) engine.tables
      (engine.rules.filterMap (callOf pkt))).1, ?_, visited_rulesEvaluated_lt _ _ _⟩
    rw [Engine.run, matched]
    rfl

/-- The parser calls of a run are safe. -/
theorem safe_of_mem_callsOf (counting : engine.Counting) {made : Bytes × MatchCall}
    (member : made ∈ callsOf engine.rules call) : made.2.Safe palette.length made.1.length := by
  cases call with
  | loadRules text => contradiction
  | run pkt =>
      obtain ⟨fired, listed, rfl⟩ := List.mem_map.mp member
      obtain ⟨rule, loaded, made⟩ := List.mem_filterMap.mp listed
      have wellFormed := counting.wellFormed rule loaded
      obtain ⟨result, matched, safe⟩ := matchRule_some pkt.data wellFormed pkt.packetId
      rw [matchRule_eq wellFormed, made] at matched
      have inside := (safe fired (Option.some.inj matched).symm).2
      rwa [Palette.names, List.length_map] at inside

/-- One engine call appends to each table the rows of the parser calls it makes. -/
theorem Engine.Counting.step (appends : ∀ kind ∈ palette, kind.Appends)
    (counting : engine.Counting) (call : EngineCall) :
    ∃ behind, engine.step call = some behind ∧ behind.Counting ∧
      ∀ i, palette.table behind.tables i =
        palette.table engine.tables i ++
          (callsOf engine.rules call).flatMap (palette.rowsAt i) := by
  obtain ⟨behind, stepped, runnable⟩ := counting.toRunnable.step call
  refine ⟨behind, stepped, ?_⟩
  cases call with
  | loadRules text =>
      obtain rfl : (engine.loadRules text).2 = behind := Option.some.inj stepped
      have kept : (engine.loadRules text).2.tables = engine.tables ∧
          (engine.loadRules text).2.stats.rulesEvaluated = engine.stats.rulesEvaluated := by
        rw [Engine.loadRules]
        dsimp only
        split <;> exact ⟨rfl, rfl⟩
      refine ⟨⟨runnable, by rw [kept.2]; exact counting.evaluated⟩, fun i => ?_⟩
      rw [kept.1]
      exact (List.append_nil _).symm
  | run pkt =>
      obtain ⟨stats, ran, bounded⟩ := counting.run pkt
      rw [Engine.step, ran] at stepped
      cases stepped
      exact ⟨⟨runnable, bounded⟩, fun i => Palette.table_answer appends pkt.data _ _⟩

theorem Engine.Counting.runSteps (appends : ∀ kind ∈ palette, kind.Appends)
    (counting : engine.Counting) (calls : List EngineCall) :
    ∃ last, runSteps Engine.step engine calls = some last ∧
      (∀ made ∈ callsMade palette engine.catalog engine.rules calls,
        made.2.Safe palette.length made.1.length) ∧
      ∀ i, palette.table last.tables i =
        palette.table engine.tables i ++
          (callsMade palette engine.catalog engine.rules calls).flatMap (palette.rowsAt i) := by
  induction calls generalizing engine with
  | nil => exact ⟨engine, rfl, List.forall_mem_nil _, fun i => (List.append_nil _).symm⟩
  | cons call calls inductionHypothesis =>
      obtain ⟨behind, stepped, still, added⟩ := counting.step appends call
      obtain ⟨last, ran, safe, later⟩ := inductionHypothesis still
      rw [Engine.catalog_of_step stepped, rules_of_step stepped] at safe later
      rw [runSteps_cons, stepped, callsMade]
      refine ⟨last, ran, ?_, fun i => ?_⟩
      · exact List.forall_mem_append.mpr ⟨fun made => safe_of_mem_callsOf counting, safe⟩
      · rw [later, added, List.flatMap_append, List.append_assoc]

theorem counting_start (palette : Palette) :
    (Engine.start palette buildL2l3Catalog).Counting :=
  ⟨⟨rfl, List.forall_mem_nil _, List.forall_mem_nil _⟩, Nat.two_pow_pos 64⟩

/-- The tables of a fresh engine behind a sequence hold the rows of its calls. -/
theorem exists_after (appends : ∀ kind ∈ palette, kind.Appends) (calls : List EngineCall) :
    ∃ engine, Engine.after palette buildL2l3Catalog calls = some engine ∧
      ∀ i, palette.table engine.tables i =
        (callsMade palette buildL2l3Catalog [] calls).flatMap (palette.rowsAt i) := by
  obtain ⟨engine, reached, -, tables⟩ := (counting_start palette).runSteps appends calls
  have fresh : ∀ i, palette.table (Engine.start palette buildL2l3Catalog).tables i = [] :=
    fun i => Palette.table_emptyTables
  refine ⟨engine, reached, fun i => ?_⟩
  rw [tables i, fresh i, List.nil_append]
  rfl

/-- The calls of a sequence carry the ids of its packets, and ids of 32 bits of rules. -/
theorem ids_of_mem_callsMade {rules : List Rule} (numbered : ∀ rule ∈ rules, rule.ruleId < 2 ^ 32)
    (calls : List EngineCall) :
    ∀ made ∈ callsMade palette buildL2l3Catalog rules calls,
      made.2.ruleId < 2 ^ 32 ∧
        ∃ pkt, EngineCall.run pkt ∈ calls ∧ made = (pkt.data, made.2) ∧
          made.2.packetId = pkt.packetId := by
  induction calls generalizing rules with
  | nil => exact List.forall_mem_nil _
  | cons call calls inductionHypothesis =>
      have after : ∀ rule ∈ rulesAfter palette buildL2l3Catalog rules call, rule.ruleId < 2 ^ 32 := by
        intro rule member
        cases call with
        | run pkt => exact numbered rule member
        | loadRules text =>
            rw [rulesAfter] at member
            split at member
            · next ok =>
              obtain ⟨i, found⟩ := List.getElem?_of_mem member
              rw [(wellFormed_of_compiled ok).2.2 i rule found]
              exact Nat.mod_lt _ (Nat.two_pow_pos 32)
            · exact numbered rule member
      rw [callsMade, List.forall_mem_append]
      refine ⟨?_, fun made member => ?_⟩
      · cases call with
        | loadRules text => exact List.forall_mem_nil _
        | run pkt =>
            intro made member
            obtain ⟨fired, listed, rfl⟩ := List.mem_map.mp member
            obtain ⟨rule, loaded, fires⟩ := List.mem_filterMap.mp listed
            obtain ⟨-, packet, own⟩ := callOf_numbers fires
            exact ⟨own ▸ numbered rule loaded, pkt, List.mem_cons_self, rfl, packet⟩
      · obtain ⟨bounded, pkt, inside, rest⟩ := inductionHypothesis after made member
        exact ⟨bounded, pkt, List.mem_cons_of_mem _ inside, rest⟩

/-- Any sequence of loads and runs on a fresh engine leaves in each Kind's table
the rows that the Kind makes of the calls which select it, in the order of the
packets and, within a packet, of the rules; every region lies in its packet. -/
theorem tables_of_after (appends : ∀ kind ∈ palette, kind.Appends) (calls : List EngineCall) :
    ∃ engine, Engine.after palette buildL2l3Catalog calls = some engine ∧
      (∀ made ∈ callsMade palette buildL2l3Catalog [] calls,
        made.2.Safe palette.length made.1.length) ∧
      ∀ i, palette.table engine.tables i =
        (callsMade palette buildL2l3Catalog [] calls).flatMap (palette.rowsAt i) := by
  obtain ⟨engine, reached, safe, tables⟩ := (counting_start palette).runSteps appends calls
  refine ⟨engine, reached, safe, fun i => ?_⟩
  rw [tables i]
  change palette.table palette.emptyTables i ++ _ = _
  rw [Palette.table_emptyTables, List.nil_append]
  rfl

end Runs

theorem tables_of_after_ipv4Rule :
    let calls := [.loadRules ipv4Rule, .run ⟨recordPacket, 0⟩, .loadRules "=>".toList,
      .run ⟨recordPacket, 1⟩]
    ∃ engine, Engine.after DefaultPalette buildL2l3Catalog calls = some engine ∧
      (∀ made ∈ callsMade DefaultPalette buildL2l3Catalog [] calls,
        made.2.Safe DefaultPalette.length made.1.length) ∧
      ∀ i, DefaultPalette.table engine.tables i =
        (callsMade DefaultPalette buildL2l3Catalog [] calls).flatMap (DefaultPalette.rowsAt i) :=
  tables_of_after defaultPalette_appends _

end Nanotins.Dpar
