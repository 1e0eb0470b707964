import Nanotins.Dpar.Catalog

/-!
Contract: applying compiled rules to a packet, as `dpar_match` in `dpar.hpp`
does.

Owns: rules, statistics, the table of last node offsets, predicates, regions and
the match loop.  Every access outside the packet, the node table or the
statistics is a fault.

Does not own: which rules are safe to apply.
-/

namespace Nanotins.Dpar

open Nanotins.Library Nanotins.Wire Nanotins.SpecDag

/-! ### Rules -/

inductive CmpOp where
  | eq | lt | gt | le | ge
deriving DecidableEq, Repr

inductive RegionKind where
  | ethPayload | vlanPayload | udpPayload | tcpPayload | someipPayload
deriving DecidableEq, Repr

structure Predicate where
  field : FieldRef
  op : CmpOp
  operand : Nat
deriving DecidableEq, Repr

structure RegionSel where
  kind : RegionKind := .udpPayload
  anchorNodeId : Nat := 0
deriving DecidableEq, Repr

def kMaxPredicates : Nat := 6
def kRuleNameLen : Nat := 32

/-- `preds` holds the predicates in use; its length is `n_preds`. -/
structure Rule where
  preds : List Predicate := []
  parserKind : Nat := 0
  region : RegionSel := {}
  ruleId : Nat := 0
  priority : Nat := 0
  name : Text := []
deriving DecidableEq, Repr

/-! ### Statistics -/

structure RuleStat where
  matched : Nat := 0
  rowsEmitted : Nat := 0
deriving DecidableEq, Repr

structure EngineStats where
  packetsSeen : Nat := 0
  packetsMatchedAny : Nat := 0
  rulesEvaluated : Nat := 0
  rowsEmitted : Nat := 0
  perRule : List RuleStat := []
deriving DecidableEq, Repr

/-- Counters are `uint64_t`. -/
def addCounter (counter amount : Nat) : Nat := (counter + amount) % 2 ^ 64

/-! ### Predicates -/

def cmpApply (v : Nat) (op : CmpOp) (o : Nat) : Bool :=
  match op with
  | .eq => v == o
  | .lt => v < o
  | .gt => o < v
  | .le => v ≤ o
  | .ge => o ≤ v

/-- `off_by_node` and `present` in one: the last offset of each node, by id. -/
abbrev NodeOffsets := List (Option Nat)

def nodeOffsets (visits : List (L2L3Node × Nat)) : NodeOffsets :=
  visits.foldl (fun table visit => table.set (nodeId visit.1) (some visit.2))
    (List.replicate nodes.length none)

section Match

variable (rd : Nat → Option UInt8) (table : NodeOffsets) (size : Nat)

/-- The value a predicate on the field compares, if the node was visited. -/
def predicateValue (field : FieldRef) : Option (Option Nat) := do
  let visited ← table[field.nodeId]?
  match visited with
  | none => return none
  | some off =>
      let v ← readFieldRuntimeM rd off field
      return some v

/-- A missing layer makes the predicate false. -/
def evalPredicate (pr : Predicate) : Option Bool := do
  let value ← predicateValue rd table pr.field
  match value with
  | none => return false
  | some v => return cmpApply v pr.op pr.operand

/-- The predicate loop, which stops at the first that is false. -/
def predicatesHold : List Predicate → Option Bool
  | [] => some true
  | pr :: preds => do
      let ok ← evalPredicate rd table pr
      if !ok then
        return false
      else
        predicatesHold preds

/-! ### Regions -/

/-- The first and the last offset of a region before clamping, and the size. -/
def regionBounds (kind : RegionKind) (aoff : Nat) : Option (Nat × Nat) :=
  match kind with
  | .ethPayload => some (aoff + 14, size)
  | .vlanPayload => some (aoff + 4, size)
  | .udpPayload => some (aoff + 8, size)
  | .tcpPayload => do
      let hdr := (← readUintM rd aoff TcpSpec.dataOffset) * 4
      return (aoff + (if 20 ≤ hdr then hdr else 20), size)
  | .someipPayload => do
      let total := aoff + 8 + (← readUintM rd aoff SomeipSpec.length)
      return (aoff + kSomeipHeaderLen, if total < size then total else size)

/-- The offsets `[begin, end)` of a rule's region; nothing if its anchor was not
seen or it starts behind the captured bytes. -/
def resolveRegion (rs : RegionSel) : Option (Option (Nat × Nat)) := do
  let visited ← table[rs.anchorNodeId]?
  match visited with
  | none => return none
  | some aoff =>
      let bounds ← regionBounds rd size rs.kind aoff
      if size < bounds.1 then
        return none
      else
        return some (bounds.1, if bounds.2 < bounds.1 then bounds.1 else bounds.2)

/-! ### The match loop -/

/-- The arguments of `on_match`; the region is given by offsets. -/
structure MatchCall where
  parserKind : Nat
  packetId : Nat
  ruleId : Nat
  regionBegin : Nat
  regionEnd : Nat
deriving DecidableEq, Repr

/-- What a rule makes of the packet: the call of its parser, if it fires. -/
def matchRule (pid : Nat) (rule : Rule) : Option (Option MatchCall) := do
  let ok ← predicatesHold rd table rule.preds
  if !ok then
    return none
  else
    let region ← resolveRegion rd table size rule.region
    match region with
    | none => return none
    | some (rb, re) => return some ⟨rule.parserKind, pid, rule.ruleId, rb, re⟩

/-- Count a call that emitted `rows` rows. -/
def recordMatch (stats : EngineStats) (call : MatchCall) (rows : Nat) : Option EngineStats := do
  let rstat ← stats.perRule[call.ruleId]?
  let counted : RuleStat := ⟨addCounter rstat.matched 1, addCounter rstat.rowsEmitted rows⟩
  return { stats with
    rowsEmitted := addCounter stats.rowsEmitted rows
    perRule := stats.perRule.set call.ruleId counted }

variable {σ : Type} (onMatch : σ → MatchCall → Nat × σ)

/-- The rule loop; `any` tells whether a rule has fired. -/
def matchRules (pid : Nat) : List Rule → EngineStats → σ → Bool → Option (EngineStats × σ × Bool)
  | [], stats, parser, any => some (stats, parser, any)
  | rule :: rules, stats, parser, any => do
      let stats := { stats with rulesEvaluated := addCounter stats.rulesEvaluated 1 }
      let fired ← matchRule rd table size pid rule
      match fired with
      | none => matchRules pid rules stats parser any
      | some call =>
          let (rows, parser) := onMatch parser call
          let stats ← recordMatch stats call rows
          matchRules pid rules stats parser true

end Match

/-- `on_match` is a function of its arguments and of a state of the parsers'
own; it gives the rows it emitted. -/
def dparMatchM {σ : Type} (rd : Nat → Option UInt8) (size : Nat) (rules : List Rule) (pid : Nat)
    (stats : EngineStats) (onMatch : σ → MatchCall → Nat × σ) (parser : σ) :
    Option (EngineStats × σ) := do
  if rules.isEmpty then
    return (stats, parser)
  else
    let missing : List RuleStat := List.replicate (rules.length - stats.perRule.length) {}
    let stats := { stats with perRule := stats.perRule ++ missing }
    let walked ← walkM (L2L3Graph Option) rd size kEthRoot
    let table := nodeOffsets walked.visits
    let stats := { stats with packetsSeen := addCounter stats.packetsSeen 1 }
    let (stats, parser, any) ← matchRules rd table size onMatch pid rules stats parser false
    if any then
      return ({ stats with packetsMatchedAny := addCounter stats.packetsMatchedAny 1 }, parser)
    else
      return (stats, parser)

/-- Match a packet; `none` is an access out of bounds. -/
def dparMatch {σ : Type} (rules : List Rule) (pkt : Bytes) (pid : Nat) (stats : EngineStats)
    (onMatch : σ → MatchCall → Nat × σ) (parser : σ) : Option (EngineStats × σ) :=
  dparMatchM (guardedByte pkt 0 pkt.length) pkt.length rules pid stats onMatch parser

end Nanotins.Dpar
