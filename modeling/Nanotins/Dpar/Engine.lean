import Nanotins.Dpar.Accounting
import Nanotins.Dpar.Palette
import Nanotins.Library.PartialRun

/-!
Contract: the matching engine of `dpar_palette.hpp` over sequences of calls.

Owns: loading rules and running packets in any order, what every such sequence
keeps of the row totals (`totals_agree`), and when a failed load leaves the
engine without rules (`failedLoad_closed_iff`).

Does not own: what a packet matches.
-/

namespace Nanotins.Dpar

open Nanotins.Library Nanotins.SpecDag

/-! ### The engine -/

/-- `catalog` and `rules` are private members of the source. -/
structure Engine (palette : Palette) where
  catalog : List CatalogEntry
  rules : List Rule
  stats : EngineStats
  tables : palette.Tables

inductive EngineCall where
  | loadRules (text : Text)
  | run (pkt : DagPacket)

namespace Engine

variable {palette : Palette}

def start (palette : Palette) (catalog : List CatalogEntry) : Engine palette :=
  ⟨catalog, [], {}, palette.emptyTables⟩

def ruleCount (engine : Engine palette) : Nat := engine.rules.length

/-- A text that compiles replaces the rules and sizes the statistics of the
rules; any other only reports its errors. -/
def loadRules (engine : Engine palette) (text : Text) : CompileResult × Engine palette :=
  let r := compileRules text engine.catalog palette.names
  if r.ok then
    (r, { engine with
      rules := r.rules
      stats := { engine.stats with perRule := List.replicate r.rules.length {} } })
  else (r, engine)

/-- Match and emit for one packet; `none` is an access out of bounds. -/
def run (engine : Engine palette) (pkt : DagPacket) : Option (Engine palette) := do
  let (stats, tables) ← dparMatch engine.rules pkt.data pkt.packetId engine.stats
    (palette.emit pkt.data) engine.tables
  return { engine with stats := stats, tables := tables }

def step (engine : Engine palette) : EngineCall → Option (Engine palette)
  | .loadRules text => some (engine.loadRules text).2
  | .run pkt => engine.run pkt

/-- The sum of the rules' own row counts. -/
def ruleRows (engine : Engine palette) : Nat :=
  (engine.stats.perRule.map RuleStat.rowsEmitted).sum

end Engine

/-- The call loads rules. -/
def EngineCall.Loads (palette : Palette) (catalog : List CatalogEntry) : EngineCall → Prop
  | .loadRules text => (compileRules text catalog palette.names).ok = true
  | .run _ => False

namespace Engine

variable {palette : Palette} {engine behind : Engine palette} {text : Text} {call : EngineCall}

/-- A fresh engine after a sequence of calls. -/
def after (palette : Palette) (catalog : List CatalogEntry) (calls : List EngineCall) :
    Option (Engine palette) :=
  runSteps step (start palette catalog) calls

theorem loadRules_of_loads
    (loads : (compileRules text engine.catalog palette.names).ok = true) :
    (engine.loadRules text).2 =
      { engine with
        rules := (compileRules text engine.catalog palette.names).rules
        stats := { engine.stats with
          perRule := List.replicate
            (compileRules text engine.catalog palette.names).rules.length {} } } :=
  congrArg Prod.snd (if_pos loads)

/-- A text that does not compile leaves the engine as it is. -/
theorem loadRules_of_failed
    (failed : ¬ (compileRules text engine.catalog palette.names).ok = true) :
    (engine.loadRules text).2 = engine :=
  congrArg Prod.snd (if_neg failed)

/-- No call changes the catalog. -/
theorem catalog_of_step (stepped : engine.step call = some behind) :
    behind.catalog = engine.catalog := by
  cases call with
  | loadRules text =>
      obtain rfl : (engine.loadRules text).2 = behind := Option.some.inj stepped
      rw [loadRules]
      dsimp only
      split <;> rfl
  | run pkt =>
      rcases Option.bind_eq_some_iff.mp stepped with ⟨result, -, rest⟩
      cases rest
      rfl

theorem catalog_of_after {catalog : List CatalogEntry} {calls : List EngineCall}
    (reached : after palette catalog calls = some engine) : engine.catalog = catalog := by
  apply runSteps_preserves (fun engine : Engine palette => engine.catalog = catalog) _ rfl reached
  intro engine call behind _ same stepped
  rw [catalog_of_step stepped, same]

end Engine

/-! ### What matching keeps -/

section Preserves

variable {σ : Type} {onMatch : σ → MatchCall → Nat × σ} (Invariant : EngineStats → σ → Prop)

/-- What counting and answered calls keep, the rule loop keeps. -/
theorem matchRules_preserves {rd : Nat → Option UInt8} {table : NodeOffsets} {size pid : Nat}
    (counts : ∀ {stats parser} counter,
      Invariant stats parser → Invariant { stats with rulesEvaluated := counter } parser)
    (records : ∀ {stats parser call counted}, Invariant stats parser →
      recordMatch stats call (onMatch parser call).1 = some counted →
        Invariant counted (onMatch parser call).2)
    {rules : List Rule} {stats stats' : EngineStats} {parser parser' : σ} {any any' : Bool}
    (holds : Invariant stats parser)
    (ran : matchRules rd table size onMatch pid rules stats parser any =
      some (stats', parser', any')) :
    Invariant stats' parser' := by
  induction rules generalizing stats parser any with
  | nil =>
      cases ran
      exact holds
  | cons rule rules inductionHypothesis =>
      rw [matchRules] at ran
      rcases Option.bind_eq_some_iff.mp ran with ⟨fired, -, rest⟩
      have counted := counts (addCounter stats.rulesEvaluated 1) holds
      cases fired with
      | none => exact inductionHypothesis counted rest
      | some call =>
          rcases Option.bind_eq_some_iff.mp rest with ⟨after, recorded, rest⟩
          exact inductionHypothesis (records counted recorded) rest

/-- What counting, resizing and answered calls keep, matching a packet keeps. -/
theorem dparMatch_preserves
    (counts : ∀ {stats parser} seen matchedAny evaluated, Invariant stats parser →
      Invariant { stats with
        packetsSeen := seen, packetsMatchedAny := matchedAny, rulesEvaluated := evaluated } parser)
    (resizes : ∀ {stats parser} n, Invariant stats parser →
      Invariant { stats with perRule := stats.perRule ++ List.replicate n {} } parser)
    (records : ∀ {stats parser call counted}, Invariant stats parser →
      recordMatch stats call (onMatch parser call).1 = some counted →
        Invariant counted (onMatch parser call).2)
    {rules : List Rule} {pkt : Bytes} {pid : Nat} {stats stats' : EngineStats} {parser parser' : σ}
    (holds : Invariant stats parser)
    (ran : dparMatch rules pkt pid stats onMatch parser = some (stats', parser')) :
    Invariant stats' parser' := by
  by_cases loaded : rules = []
  · rw [loaded] at ran
    cases ran
    exact holds
  · rw [dparMatch_of_loaded loaded] at ran
    obtain ⟨⟨after, parser, any⟩, matched, counted⟩ := Option.map_eq_some_iff.mp ran
    have entered := resizes (rules.length - stats.perRule.length) holds
    have kept := matchRules_preserves Invariant (fun counter => counts _ _ counter) records
      (counts (addCounter stats.packetsSeen 1) _ _ entered) matched
    cases any with
    | true =>
        cases counted
        exact counts _ _ _ kept
    | false =>
        cases counted
        exact kept

end Preserves

/-! ### Row totals -/

/-- Where `rows` rows were held when the rules were loaded, the total is these
and what the rules have emitted, and it is the number of rows in the tables. -/
structure Totals (palette : Palette) (rows : Nat) (stats : EngineStats) (tables : palette.Tables) :
    Prop where
  perRule : stats.rowsEmitted = (rows + (stats.perRule.map RuleStat.rowsEmitted).sum) % 2 ^ 64
  tables : stats.rowsEmitted = palette.rowCount tables % 2 ^ 64

section Totals

variable {palette : Palette} {rows : Nat} {stats : EngineStats} {tables : palette.Tables}

/-- An answered call adds its rows to the total, to its rule and to the tables. -/
theorem Totals.record (countsRows : ∀ kind ∈ palette, kind.CountsRows) {pkt : Bytes}
    {call : MatchCall} {counted : EngineStats} (holds : Totals palette rows stats tables)
    (recorded : recordMatch stats call (palette.emit pkt tables call).1 = some counted) :
    Totals palette rows counted (palette.emit pkt tables call).2 := by
  rcases Option.bind_eq_some_iff.mp recorded with ⟨rstat, found, rest⟩
  cases rest
  have grown := Palette.rowCount_emit countsRows pkt tables call
  have own : (stats.perRule.map RuleStat.rowsEmitted)[call.ruleId]? = some rstat.rowsEmitted := by
    rw [List.getElem?_map, found]
    rfl
  have exchanged := sum_set own
    (addCounter rstat.rowsEmitted (palette.emit pkt tables call).1)
  constructor
  · have before := holds.perRule
    show addCounter stats.rowsEmitted _ = (rows + ((stats.perRule.set _ _).map _).sum) % 2 ^ 64
    rw [List.map_set]
    simp only [addCounter] at exchanged ⊢
    omega
  · have before := holds.tables
    show addCounter stats.rowsEmitted _ = _
    rw [grown, addCounter, before, Nat.mod_add_mod]

theorem Totals.run (countsRows : ∀ kind ∈ palette, kind.CountsRows) {engine after : Engine palette}
    {pkt : DagPacket} (holds : Totals palette rows engine.stats engine.tables)
    (ran : engine.run pkt = some after) : Totals palette rows after.stats after.tables := by
  rcases Option.bind_eq_some_iff.mp ran with ⟨⟨stats, tables⟩, matched, rest⟩
  cases rest
  refine dparMatch_preserves (Totals palette rows) ?_ ?_ ?_ holds matched
  · intro stats tables seen matchedAny evaluated holds
    exact ⟨holds.perRule, holds.tables⟩
  · intro stats tables n holds
    refine ⟨?_, holds.tables⟩
    have zeros : ((List.replicate n ({} : RuleStat)).map RuleStat.rowsEmitted).sum = 0 := by simp
    show stats.rowsEmitted = _
    rw [List.map_append, List.sum_append, zeros, Nat.add_zero]
    exact holds.perRule
  · intro stats tables call counted holds recorded
    exact holds.record countsRows recorded

/-- A call that loads no rules keeps the totals. -/
theorem Totals.step (countsRows : ∀ kind ∈ palette, kind.CountsRows)
    {engine behind : Engine palette} {call : EngineCall}
    (keeps : ¬ call.Loads palette engine.catalog)
    (holds : Totals palette rows engine.stats engine.tables)
    (stepped : engine.step call = some behind) : Totals palette rows behind.stats behind.tables := by
  cases call with
  | loadRules text =>
      obtain rfl : (engine.loadRules text).2 = behind := Option.some.inj stepped
      rwa [Engine.loadRules_of_failed keeps]
  | run pkt => exact holds.run countsRows stepped

/-- A call that loads rules starts over from the rows in the tables. -/
theorem Totals.load {engine behind : Engine palette} {call : EngineCall}
    (loads : call.Loads palette engine.catalog)
    (holds : Totals palette rows engine.stats engine.tables)
    (stepped : engine.step call = some behind) :
    Totals palette (palette.rowCount engine.tables) behind.stats behind.tables := by
  cases call with
  | loadRules text =>
      obtain rfl : (engine.loadRules text).2 = behind := Option.some.inj stepped
      rw [Engine.loadRules_of_loads loads]
      constructor
      · have zeros : ∀ n, ((List.replicate n ({} : RuleStat)).map RuleStat.rowsEmitted).sum = 0 := by
          simp
        show engine.stats.rowsEmitted = (_ + ((List.replicate _ _).map _).sum) % 2 ^ 64
        rw [zeros, Nat.add_zero]
        exact holds.tables
      · exact holds.tables
  | run pkt => exact absurd loads id

/-- Calls that load no rules keep the totals. -/
theorem Totals.runSteps (countsRows : ∀ kind ∈ palette, kind.CountsRows)
    {engine last : Engine palette} {calls : List EngineCall}
    (keeps : ∀ call ∈ calls, ¬ call.Loads palette engine.catalog)
    (holds : Totals palette rows engine.stats engine.tables)
    (ran : runSteps Engine.step engine calls = some last) :
    Totals palette rows last.stats last.tables := by
  have kept := runSteps_preserves
    (fun state : Engine palette => state.catalog = engine.catalog ∧
      Totals palette rows state.stats state.tables) ?_ ⟨rfl, holds⟩ ran
  · exact kept.2
  · intro state call behind member before stepped
    refine ⟨(Engine.catalog_of_step stepped).trans before.1, ?_⟩
    apply before.2.step countsRows _ stepped
    rw [before.1]
    exact keeps call member

theorem totals_start (catalog : List CatalogEntry) :
    Totals palette 0 (Engine.start palette catalog).stats (Engine.start palette catalog).tables := by
  constructor
  · rfl
  · show 0 = palette.rowCount palette.emptyTables % 2 ^ 64
    rw [Palette.rowCount_emptyTables]
    rfl

/-- Every call sequence keeps the totals for some number of rows. -/
theorem totals_of_after (countsRows : ∀ kind ∈ palette, kind.CountsRows)
    {catalog : List CatalogEntry} {calls : List EngineCall} {engine : Engine palette}
    (reached : Engine.after palette catalog calls = some engine) :
    ∃ rows, Totals palette rows engine.stats engine.tables := by
  apply runSteps_preserves
    (fun state : Engine palette => ∃ rows, Totals palette rows state.stats state.tables) _
    ⟨0, totals_start catalog⟩ reached
  rintro state call behind - ⟨rows, holds⟩ stepped
  by_cases loads : call.Loads palette state.catalog
  · exact ⟨_, holds.load loads stepped⟩
  · exact ⟨rows, holds.step countsRows loads stepped⟩

end Totals

/-! ### Runs that do not fault -/

/-- The rules are well formed, and their ids are in range. -/
structure Engine.Runnable {palette : Palette} (engine : Engine palette) : Prop where
  catalog : engine.catalog = buildL2l3Catalog
  wellFormed : ∀ rule ∈ engine.rules, rule.WellFormed palette.names.length
  inRange : ∀ rule ∈ engine.rules, rule.ruleId < engine.rules.length

theorem Engine.Runnable.step {palette : Palette} {engine : Engine palette} (call : EngineCall)
    (runnable : engine.Runnable) : ∃ behind, engine.step call = some behind ∧ behind.Runnable := by
  cases call with
  | loadRules text =>
      refine ⟨_, rfl, ?_⟩
      by_cases loads : (compileRules text engine.catalog palette.names).ok = true
      · rw [loadRules_of_loads loads]
        rw [runnable.catalog] at loads
        rcases wellFormed_of_compiled loads with ⟨wellFormed, inRange, -⟩
        rw [runnable.catalog]
        exact ⟨rfl, wellFormed, inRange⟩
      · rwa [loadRules_of_failed loads]
  | run pkt =>
      rcases matchesSafely_of_wellFormed runnable.wellFormed runnable.inRange pkt.data _
        (palette.emit pkt.data) engine.tables pkt.packetId engine.stats
        with ⟨stats, tables, -, matched, -⟩
      refine ⟨{ engine with stats := stats, tables := tables }, ?_,
        runnable.catalog, runnable.wellFormed, runnable.inRange⟩
      rw [Engine.step, Engine.run, matched]
      rfl

theorem Engine.after_some (palette : Palette) (calls : List EngineCall) :
    ∃ engine, Engine.after palette buildL2l3Catalog calls = some engine ∧ engine.Runnable :=
  runSteps_some Engine.Runnable (fun _ => Engine.Runnable.step _)
    ⟨rfl, List.forall_mem_nil _, List.forall_mem_nil _⟩

/-! ### Totals over call sequences -/

/-- After every call sequence of a fresh engine `rows_emitted` is the number of
rows in the tables; it is also the sum of the rules' row counts, counted from the
rows that were in the tables at the last successful load. -/
theorem totals_agree {palette : Palette} (countsRows : ∀ kind ∈ palette, kind.CountsRows)
    (catalog : List CatalogEntry) (calls : List EngineCall) :
    (catalog = buildL2l3Catalog → ∃ engine, Engine.after palette catalog calls = some engine) ∧
    ∀ engine, Engine.after palette catalog calls = some engine →
      engine.stats.rowsEmitted = palette.rowCount engine.tables % 2 ^ 64 ∧
      ((∀ call ∈ calls, ¬ call.Loads palette catalog) →
        engine.stats.rowsEmitted = engine.ruleRows % 2 ^ 64) ∧
      ∀ before call later loaded, calls = before ++ call :: later → call.Loads palette catalog →
        (∀ call ∈ later, ¬ call.Loads palette catalog) →
          Engine.after palette catalog before = some loaded →
            engine.stats.rowsEmitted =
              (palette.rowCount loaded.tables + engine.ruleRows) % 2 ^ 64 := by
  constructor
  · rintro rfl
    rcases Engine.after_some palette calls with ⟨engine, reached, -⟩
    exact ⟨engine, reached⟩
  intro engine reached
  refine ⟨?_, ?_, ?_⟩
  · rcases totals_of_after countsRows reached with ⟨rows, holds⟩
    exact holds.tables
  · intro keeps
    have catalogStart : (Engine.start palette catalog).catalog = catalog := rfl
    rw [← catalogStart] at keeps
    have holds := Totals.runSteps countsRows keeps (totals_start catalog) reached
    rw [holds.perRule, Nat.zero_add]
    rfl
  · rintro before call later loaded rfl loads keeps reachedLoaded
    rcases totals_of_after countsRows reachedLoaded with ⟨rows, holds⟩
    rw [Engine.after, runSteps_append, ← Engine.after, reachedLoaded, Option.bind_some,
      runSteps_cons] at reached
    rcases Option.bind_eq_some_iff.mp reached with ⟨behind, stepped, rest⟩
    have sameCatalog := Engine.catalog_of_after reachedLoaded
    rw [← sameCatalog] at loads keeps
    rw [← Engine.catalog_of_step stepped] at keeps
    exact ((holds.load loads stepped).runSteps countsRows keeps rest).perRule

/-- A rule that emits the records of every IPv4 frame. -/
def ipv4Rule : Text := "eth.ethertype == 0x0800 => raw_tlv eth_payload".toList

/-- An IPv4 frame whose payload is one record. -/
def recordPacket : Bytes := List.replicate 12 0 ++ [0x08, 0x00, 7, 0]

theorem ipv4Rule_loads :
    EngineCall.Loads DefaultPalette buildL2l3Catalog (.loadRules ipv4Rule) := by
  show (compileRules ipv4Rule buildL2l3Catalog DefaultPalette.names).ok = true
  decide +kernel

theorem totals_agree_defaultPalette :
    (∃ engine, Engine.after DefaultPalette buildL2l3Catalog
      [.loadRules ipv4Rule, .run ⟨recordPacket, 0⟩] = some engine) ∧
    ∀ engine, Engine.after DefaultPalette buildL2l3Catalog
      [.loadRules ipv4Rule, .run ⟨recordPacket, 0⟩] = some engine →
        engine.stats.rowsEmitted = DefaultPalette.rowCount engine.tables % 2 ^ 64 ∧
          engine.stats.rowsEmitted =
            (DefaultPalette.rowCount DefaultPalette.emptyTables + engine.ruleRows) % 2 ^ 64 := by
  rcases totals_agree defaultPalette_countsRows buildL2l3Catalog
    [.loadRules ipv4Rule, .run ⟨recordPacket, 0⟩] with ⟨ran, agree⟩
  refine ⟨ran rfl, fun engine reached => ?_⟩
  rcases agree engine reached with ⟨held, -, sinceLoad⟩
  refine ⟨held, sinceLoad [] _ _ (Engine.start DefaultPalette buildL2l3Catalog) rfl ipv4Rule_loads
    ?_ rfl⟩
  exact List.forall_mem_singleton.mpr id

/-- The rows that were emitted before a reload are in the total, and not in the
rules' counts. -/
theorem totals_agree_fails :
    ∃ engine, Engine.after DefaultPalette buildL2l3Catalog
        [.loadRules ipv4Rule, .run ⟨recordPacket, 0⟩, .loadRules ipv4Rule] = some engine ∧
      engine.stats.rowsEmitted = 1 ∧ engine.ruleRows = 0 := by
  have reached : (Engine.after DefaultPalette buildL2l3Catalog
      [.loadRules ipv4Rule, .run ⟨recordPacket, 0⟩, .loadRules ipv4Rule]).map
        (fun engine => (engine.stats.rowsEmitted, engine.ruleRows)) = some (1, 0) := by
    decide +kernel
  rcases Option.map_eq_some_iff.mp reached with ⟨engine, ran, same⟩
  exact ⟨engine, ran, congrArg Prod.fst same, congrArg Prod.snd same⟩

/-! ### Failed loads -/

/-- The rules of the last call that loaded any. -/
def loadedRules (palette : Palette) (catalog : List CatalogEntry) (calls : List EngineCall) :
    List Rule :=
  calls.foldl
    (fun rules call =>
      match call with
      | .loadRules text =>
          if (compileRules text catalog palette.names).ok then
            (compileRules text catalog palette.names).rules
          else rules
      | .run _ => rules)
    []

/-- No rule is left, and until rules are loaded nothing is counted or emitted. -/
def Engine.Closed {palette : Palette} (engine : Engine palette) : Prop :=
  engine.ruleCount = 0 ∧
    ∀ later : List EngineCall, (∀ call ∈ later, ¬ call.Loads palette engine.catalog) →
      ∃ last, runSteps Engine.step engine later = some last ∧
        last.stats = engine.stats ∧ last.tables = engine.tables

section FailedLoad

variable {palette : Palette} {catalog : List CatalogEntry} {engine : Engine palette}

/-- The engine holds the rules of the last successful load. -/
theorem rules_of_after {calls : List EngineCall}
    (reached : Engine.after palette catalog calls = some engine) :
    engine.rules = loadedRules palette catalog calls := by
  induction calls using List.reverseRecOn generalizing engine with
  | nil =>
      obtain rfl : Engine.start palette catalog = engine := Option.some.inj reached
      rfl
  | append_singleton calls call inductionHypothesis =>
      rw [Engine.after, runSteps_append] at reached
      rcases Option.bind_eq_some_iff.mp reached with ⟨before, ran, rest⟩
      rcases Option.bind_eq_some_iff.mp rest with ⟨behind, stepped, same⟩
      obtain rfl : behind = engine := Option.some.inj same
      have kept := inductionHypothesis ran
      have sameCatalog := Engine.catalog_of_after ran
      rw [loadedRules, List.foldl_append, ← loadedRules, ← kept]
      cases call with
      | loadRules text =>
          obtain rfl : (before.loadRules text).2 = behind := Option.some.inj stepped
          rw [Engine.loadRules, sameCatalog]
          show Engine.rules (Prod.snd _) = if _ then _ else _
          split <;> rfl
      | run pkt =>
          rcases Option.bind_eq_some_iff.mp stepped with ⟨result, -, done⟩
          cases done
          rfl

/-- Without rules a packet is not even counted. -/
theorem run_of_no_rules (none : engine.rules = []) (pkt : DagPacket) :
    engine.run pkt = some engine := by
  rw [Engine.run, dparMatch, dparMatchM, none]
  show some { engine with rules := [], stats := engine.stats, tables := engine.tables } = some engine
  rw [← none]

theorem closed_of_no_rules (none : engine.rules = []) : engine.Closed := by
  refine ⟨List.length_eq_zero_iff.mpr none, fun later keeps => ⟨engine, ?_, rfl, rfl⟩⟩
  induction later with
  | nil => rfl
  | cons call later inductionHypothesis =>
      rw [List.forall_mem_cons] at keeps
      have idle : engine.step call = some engine := by
        cases call with
        | loadRules text => exact congrArg some (Engine.loadRules_of_failed keeps.1)
        | run pkt => exact run_of_no_rules none pkt
      rw [runSteps_cons, idle]
      exact inductionHypothesis keeps.2

/-- After any call sequence of a fresh engine, a failed load leaves it without
rules, and idle until the next load, exactly when it had no rules before. -/
theorem failedLoad_closed_iff {calls : List EngineCall} {text : Text}
    (reached : Engine.after palette catalog calls = some engine)
    (failed : (engine.loadRules text).1.ok = false) :
    (engine.loadRules text).2.Closed ↔ loadedRules palette catalog calls = [] := by
  have rejected : ¬ (compileRules text engine.catalog palette.names).ok = true := by
    intro loads
    rw [Engine.loadRules, if_pos loads, loads] at failed
    contradiction
  rw [Engine.loadRules_of_failed rejected, ← rules_of_after reached]
  constructor
  · rintro ⟨empty, -⟩
    exact List.length_eq_zero_iff.mp empty
  · exact closed_of_no_rules

end FailedLoad

/-- A rule, a packet of it, a text that does not compile and another packet. -/
def exampleCalls : List EngineCall :=
  [.loadRules ipv4Rule, .run ⟨recordPacket, 0⟩, .loadRules "ip".toList, .run ⟨recordPacket, 1⟩]

/-- With the rule loaded a failed load leaves the engine matching; after a text
without rules it leaves it idle. -/
theorem failedLoad_closed_iff_exampleCalls :
    (∃ engine, Engine.after DefaultPalette buildL2l3Catalog exampleCalls = some engine ∧
      engine.stats.rowsEmitted = 2 ∧ ¬ (engine.loadRules "=>".toList).2.Closed) ∧
      ∃ engine, Engine.after DefaultPalette buildL2l3Catalog
          (exampleCalls ++ [.loadRules "# none".toList]) = some engine ∧
        engine.stats.rowsEmitted = 2 ∧ (engine.loadRules "=>".toList).2.Closed := by
  have ran : ∀ calls ∈ [exampleCalls, exampleCalls ++ [.loadRules "# none".toList]],
      (Engine.after DefaultPalette buildL2l3Catalog calls).map (fun engine =>
        (engine.stats.rowsEmitted, (engine.loadRules "=>".toList).1.ok)) = some (2, false) := by
    decide +kernel
  have reached := fun calls member => Option.map_eq_some_iff.mp (ran calls member)
  obtain ⟨engine, first, same⟩ := reached _ List.mem_cons_self
  obtain ⟨engine', second, same'⟩ := reached _ (List.mem_cons_of_mem _ List.mem_cons_self)
  obtain ⟨rows, failed⟩ := Prod.mk.inj same
  obtain ⟨rows', failed'⟩ := Prod.mk.inj same'
  refine ⟨⟨engine, first, rows, ?_⟩, engine', second, rows', ?_⟩
  · rw [failedLoad_closed_iff first failed]
    decide +kernel
  · rw [failedLoad_closed_iff second failed']
    decide +kernel

/-- After a good text and a bad one the engine still has the rule of the first,
and the next packet is matched by it. -/
theorem failedLoad_fails :
    ∃ engine, Engine.after DefaultPalette buildL2l3Catalog [.loadRules ipv4Rule] = some engine ∧
      (engine.loadRules "=>".toList).1.ok = false ∧
      (engine.loadRules "=>".toList).2.ruleCount = 1 ∧
      ∃ last, (engine.loadRules "=>".toList).2.run ⟨recordPacket, 0⟩ = some last ∧
        last.stats.rowsEmitted = 1 := by
  have reached : ∃ engine,
      Engine.after DefaultPalette buildL2l3Catalog [.loadRules ipv4Rule] = some engine ∧
      (engine.loadRules "=>".toList).1.ok = false ∧
      (engine.loadRules "=>".toList).2.ruleCount = 1 ∧
      ((engine.loadRules "=>".toList).2.run ⟨recordPacket, 0⟩).map
        (fun last => last.stats.rowsEmitted) = some 1 := by
    refine ⟨((Engine.start DefaultPalette buildL2l3Catalog).loadRules ipv4Rule).2, rfl, ?_, ?_, ?_⟩
    · decide +kernel
    · decide +kernel
    · decide +kernel
  rcases reached with ⟨engine, ran, failed, count, emitted⟩
  rcases Option.map_eq_some_iff.mp emitted with ⟨last, matched, rows⟩
  exact ⟨engine, ran, failed, count, last, matched, rows⟩

end Nanotins.Dpar
