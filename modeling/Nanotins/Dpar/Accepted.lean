import Nanotins.Dpar.Compile

/-!
Contract: what a rule that compiles without error guarantees.

Owns: that a line is rejected exactly when it reports an error, what each part
of an accepted line has checked, and that the rules of an accepted text are
well formed.

Does not own: matching.
-/

namespace Nanotins.Dpar

open Nanotins.Library Nanotins.Wire Nanotins.SpecDag

/-! ### Errors and rejection -/

namespace LineState

variable {st : LineState} {lineNo : Nat} {cond : Bool} {m : Text}

/-- The line is still accepted exactly when it has reported nothing. -/
def Consistent (st : LineState) : Prop := st.ruleOk = st.errors.isEmpty

theorem consistent_err : (st.err lineNo m).Consistent := by
  simp [Consistent, err]

theorem Consistent.require (consistent : st.Consistent) :
    (st.require lineNo cond m).Consistent := by
  rw [LineState.require]
  split
  · exact consistent
  · exact consistent_err

theorem require_of_ok (ok : (st.require lineNo cond m).ruleOk = true) :
    cond = true ∧ st.require lineNo cond m = st := by
  rw [require] at ok ⊢
  split at ok
  · next holds => exact ⟨holds, if_pos holds⟩
  · contradiction

end LineState

section Line

variable {catalog : List CatalogEntry} {parserNames : List Text} {lineNo : Nat} {st : LineState}

theorem addPredicate_consistent {lhs vals : Text} {ce : CatalogEntry} {op : CmpOp} {operand : Nat}
    (consistent : st.Consistent) :
    (addPredicate lineNo lhs vals ce op operand st).Consistent := by
  rw [addPredicate]
  dsimp only
  split
  · exact LineState.consistent_err
  · exact consistent.require

theorem compilePredicate_consistent {lhs ops vals : Text} (consistent : st.Consistent) :
    (compilePredicate catalog lineNo lhs ops vals st).Consistent := by
  have checked : (checkTokens lineNo lhs ops vals st).Consistent :=
    consistent.require.require.require
  rw [compilePredicate]
  split
  · exact checked
  · split
    · exact LineState.consistent_err
    · exact addPredicate_consistent checked

theorem predicateLoop_more {lhs ops vals : Text} {rest : List Text} :
    predicateLoop catalog lineNo (lhs :: ops :: vals :: "&&".toList :: rest) st =
      predicateLoop catalog lineNo rest (compilePredicate catalog lineNo lhs ops vals st) := by
  rw [predicateLoop]
  exact if_pos rfl

theorem predicateLoop_last {lhs ops vals next : Text} {rest : List Text}
    (other : ¬ next = "&&".toList) :
    predicateLoop catalog lineNo (lhs :: ops :: vals :: next :: rest) st =
      (next :: rest, compilePredicate catalog lineNo lhs ops vals st) := by
  rw [predicateLoop]
  exact if_neg other

theorem predicateLoop_short {tok : List Text}
    (short : ∀ lhs ops vals rest, tok = lhs :: ops :: vals :: rest → False) :
    predicateLoop catalog lineNo tok st =
      (tok, st.err lineNo "expected '<node>.<field> <op> <value>'".toList) := by
  match tok, short with
  | [], _ => rfl
  | [_], _ => rfl
  | [_, _], _ => rfl
  | lhs :: ops :: vals :: rest, short => exact (short lhs ops vals rest rfl).elim

theorem predicateLoop_consistent {tok : List Text} (consistent : st.Consistent) :
    (predicateLoop catalog lineNo tok st).2.Consistent := by
  induction tok, st using predicateLoop.induct catalog lineNo with
  | case1 lhs ops vals st => exact compilePredicate_consistent consistent
  | case2 lhs ops vals st _ rest inductionHypothesis =>
      rw [predicateLoop_more]
      exact inductionHypothesis (compilePredicate_consistent consistent)
  | case3 lhs ops vals st next rest other =>
      rw [predicateLoop_last other]
      exact compilePredicate_consistent consistent
  | case4 tok st short =>
      rw [predicateLoop_short short]
      exact LineState.consistent_err

theorem compileLabel_consistent {tok : List Text} (consistent : st.Consistent) :
    (compileLabel tok st).Consistent := by
  cases tok <;> exact consistent

theorem compileRegion_consistent {tok : List Text} (consistent : st.Consistent) :
    (compileRegion catalog lineNo tok st).Consistent := by
  cases tok with
  | nil => exact LineState.consistent_err
  | cons region rest =>
      apply compileLabel_consistent
      split
      · exact LineState.consistent_err
      · split
        · exact LineState.consistent_err
        · exact consistent

theorem compileParser_consistent {tok : List Text} (consistent : st.Consistent) :
    (compileParser catalog parserNames lineNo tok st).Consistent := by
  cases tok with
  | nil => exact compileRegion_consistent LineState.consistent_err
  | cons parser rest => exact compileRegion_consistent consistent.require

theorem compileAction_consistent {tok : List Text} (consistent : st.Consistent) :
    (compileAction catalog parserNames lineNo tok st).Consistent := by
  cases tok with
  | nil => exact LineState.consistent_err
  | cons arrow rest =>
      rw [compileAction]
      split
      · exact compileParser_consistent consistent
      · exact LineState.consistent_err

/-- A line is rejected exactly when it reports an error. -/
theorem compileLine_consistent (catalog : List CatalogEntry) (parserNames : List Text)
    (lineNo ordinal : Nat) (tok : List Text) :
    (compileLine catalog parserNames lineNo ordinal tok).Consistent :=
  compileAction_consistent (predicateLoop_consistent rfl)

/-! ### What an accepted part has checked -/

/-- The predicate that an accepted `<node>.<field> <op> <value>` stands for. -/
structure AcceptedPredicate (catalog : List CatalogEntry) (lhs ops vals : Text)
    (pr : Predicate) : Prop where
  field : ∃ node field e, splitDot lhs = some (node, field) ∧
    findField catalog node field = some e ∧ pr.field = e.ref
  op : parseOp ops = some pr.op
  operand : parseU64 vals = (true, pr.operand)
  fits : pr.field.bits < 64 → pr.operand < 2 ^ pr.field.bits

/-- The line with one predicate more. -/
def LineState.push (st : LineState) (pr : Predicate) : LineState :=
  { st with rule := { st.rule with preds := st.rule.preds ++ [pr] } }

theorem addPredicate_of_ok {lhs vals : Text} {ce : CatalogEntry} {op : CmpOp} {operand : Nat}
    (ok : (addPredicate lineNo lhs vals ce op operand st).ruleOk = true) :
    st.ruleOk = true ∧ (ce.ref.bits < 64 → operand < 2 ^ ce.ref.bits) ∧
      st.rule.preds.length < kMaxPredicates ∧
        addPredicate lineNo lhs vals ce op operand st = st.push ⟨ce.ref, op, operand⟩ := by
  rw [addPredicate] at ok ⊢
  dsimp only at ok ⊢
  split at ok
  · contradiction
  · next room =>
    rcases LineState.require_of_ok ok with ⟨fits, same⟩
    rw [same] at ok room ⊢
    refine ⟨ok, ?_, Nat.not_le.mp room, if_neg room⟩
    intro narrow
    simpa [narrow] using fits

theorem checkTokens_of_ok {lhs ops vals : Text}
    (ok : (checkTokens lineNo lhs ops vals st).ruleOk = true) :
    (splitDot lhs).isSome = true ∧ (parseOp ops).isSome = true ∧ (parseU64 vals).1 = true ∧
      checkTokens lineNo lhs ops vals st = st := by
  rcases LineState.require_of_ok ok with ⟨integer, third⟩
  rw [checkTokens, third] at ok
  rcases LineState.require_of_ok ok with ⟨comparator, second⟩
  rw [second] at ok
  rcases LineState.require_of_ok ok with ⟨dotted, first⟩
  exact ⟨dotted, comparator, integer, third.trans (second.trans first)⟩

/-- An accepted round appends the predicate of its three tokens. -/
theorem compilePredicate_of_ok {lhs ops vals : Text}
    (ok : (compilePredicate catalog lineNo lhs ops vals st).ruleOk = true) :
    st.ruleOk = true ∧ st.rule.preds.length < kMaxPredicates ∧
      ∃ pr, AcceptedPredicate catalog lhs ops vals pr ∧
        compilePredicate catalog lineNo lhs ops vals st = st.push pr := by
  rw [compilePredicate] at ok ⊢
  cases dot : splitDot lhs with
  | none =>
      rw [dot] at ok
      have dotted := (checkTokens_of_ok ok).1
      rw [dot] at dotted
      contradiction
  | some named =>
      simp only [dot] at ok ⊢
      cases found : findField catalog named.1 named.2 with
      | none =>
          rw [found] at ok
          contradiction
      | some e =>
          simp only [found] at ok ⊢
          rcases addPredicate_of_ok ok with ⟨checked, fits, room, pushed⟩
          rcases checkTokens_of_ok checked with ⟨-, comparator, integer, same⟩
          rcases Option.isSome_iff_exists.mp comparator with ⟨op, parsed⟩
          rw [same] at checked room
          rw [pushed, same]
          refine ⟨checked, room, _, ⟨⟨_, _, e, dot, found, rfl⟩, ?_, ?_, fits⟩, rfl⟩
          · rw [parsed]
            rfl
          · rw [← integer]

theorem LineState.require_of_holds {cond : Bool} {m : Text} (holds : cond = true) :
    st.require lineNo cond m = st :=
  if_pos holds

/-- An accepted predicate is appended while there is room. -/
theorem AcceptedPredicate.compilePredicate {lhs ops vals : Text} {pr : Predicate}
    (accepted : AcceptedPredicate catalog lhs ops vals pr)
    (room : st.rule.preds.length < kMaxPredicates) :
    compilePredicate catalog lineNo lhs ops vals st = st.push pr := by
  rcases accepted with ⟨⟨node, field, e, dot, found, same⟩, op, operand, fits⟩
  have checked : checkTokens lineNo lhs ops vals st = st := by
    rw [checkTokens, dot, op, operand]
    rfl
  have narrow : (!(decide (pr.field.bits < 64) && decide (2 ^ pr.field.bits ≤ pr.operand))) = true := by
    rcases Nat.lt_or_ge pr.field.bits 64 with small | large
    · simp [fits small]
    · simp [large]
  rw [Dpar.compilePredicate, checked, dot]
  dsimp only
  rw [found, op, operand]
  dsimp only
  rw [addPredicate, ← same]
  dsimp only
  rw [LineState.require_of_holds narrow, if_neg (Nat.not_le.mpr room)]
  rfl

/-- The predicates of an accepted line, from its tokens on. -/
inductive AcceptedPredicates (catalog : List CatalogEntry) :
    List Text → List Text → List Predicate → Prop where
  | last {lhs ops vals : Text} {rest : List Text} {pr : Predicate}
      (accepted : AcceptedPredicate catalog lhs ops vals pr)
      (ends : rest.head? ≠ some "&&".toList) :
      AcceptedPredicates catalog (lhs :: ops :: vals :: rest) rest [pr]
  | more {lhs ops vals : Text} {tok rest : List Text} {pr : Predicate} {preds : List Predicate}
      (accepted : AcceptedPredicate catalog lhs ops vals pr)
      (further : AcceptedPredicates catalog tok rest preds) :
      AcceptedPredicates catalog (lhs :: ops :: vals :: "&&".toList :: tok) rest (pr :: preds)

theorem AcceptedPredicates.ne_nil {tok rest : List Text} {preds : List Predicate}
    (accepted : AcceptedPredicates catalog tok rest preds) : preds ≠ [] := by
  cases accepted <;> exact List.cons_ne_nil _ _

/-- An accepted predicate loop appends the predicates of its tokens. -/
theorem predicateLoop_of_ok {tok : List Text}
    (ok : (predicateLoop catalog lineNo tok st).2.ruleOk = true) :
    st.ruleOk = true ∧ ∃ preds,
      AcceptedPredicates catalog tok (predicateLoop catalog lineNo tok st).1 preds ∧
        st.rule.preds.length + preds.length ≤ kMaxPredicates ∧
          (predicateLoop catalog lineNo tok st).2 =
            { st with rule := { st.rule with preds := st.rule.preds ++ preds } } := by
  induction tok, st using predicateLoop.induct catalog lineNo with
  | case1 lhs ops vals st =>
      rcases compilePredicate_of_ok ok with ⟨before, room, pr, accepted, pushed⟩
      exact ⟨before, [pr], .last accepted (by simp), room, pushed⟩
  | case2 lhs ops vals st after rest inductionHypothesis =>
      rw [predicateLoop_more] at ok ⊢
      rcases inductionHypothesis ok with ⟨between, preds, further, room, same⟩
      rcases compilePredicate_of_ok between with ⟨before, -, pr, accepted, pushed⟩
      change after = st.push pr at pushed
      refine ⟨before, pr :: preds, .more accepted further, ?_, ?_⟩
      · rw [pushed, LineState.push, List.length_append, List.length_singleton, Nat.add_assoc,
          Nat.add_comm 1] at room
        exact room
      · rw [same, pushed, List.append_cons st.rule.preds]
        rfl
  | case3 lhs ops vals st next rest other =>
      rw [predicateLoop_last other] at ok ⊢
      rcases compilePredicate_of_ok ok with ⟨before, room, pr, accepted, pushed⟩
      exact ⟨before, [pr], .last accepted (by simpa using other), room, pushed⟩
  | case4 tok st short =>
      rw [predicateLoop_short short] at ok
      contradiction

/-- An accepted region is one of the five, and its anchor is in the catalog. -/
theorem compileRegion_of_ok {tok : List Text}
    (ok : (compileRegion catalog lineNo tok st).ruleOk = true) :
    ∃ region rest rk anchor aid, tok = region :: rest ∧ parseRegion region = some (rk, anchor) ∧
      anchorNodeId catalog anchor = some aid ∧ st.ruleOk = true ∧
        compileRegion catalog lineNo tok st =
          compileLabel rest { st with rule := { st.rule with region := ⟨rk, aid % 2 ^ 16⟩ } } := by
  have label : ∀ (rest : List Text) (st : LineState), (compileLabel rest st).ruleOk = st.ruleOk := by
    intro rest st
    cases rest <;> rfl
  cases tok with
  | nil => contradiction
  | cons region rest =>
      rw [compileRegion] at ok ⊢
      rw [label] at ok
      cases parsed : parseRegion region with
      | none =>
          rw [parsed] at ok
          contradiction
      | some named =>
          simp only [parsed] at ok ⊢
          cases found : anchorNodeId catalog named.2 with
          | none =>
              rw [found] at ok
              contradiction
          | some aid =>
              rw [found] at ok
              exact ⟨region, rest, named.1, named.2, aid, rfl, parsed, found, ok, rfl⟩

/-- An accepted action names a parser of the palette and a region. -/
theorem compileAction_of_ok {tok : List Text}
    (ok : (compileAction catalog parserNames lineNo tok st).ruleOk = true) :
    ∃ parser region rest kind rk anchor aid,
      tok = "=>".toList :: parser :: region :: rest ∧
        parserNames.findIdx? (· == parser) = some kind ∧ parseRegion region = some (rk, anchor) ∧
          anchorNodeId catalog anchor = some aid ∧ st.ruleOk = true ∧
            compileAction catalog parserNames lineNo tok st =
              compileLabel rest { st with
                rule := { st.rule with
                  parserKind := kind % 2 ^ 16
                  region := ⟨rk, aid % 2 ^ 16⟩ } } := by
  cases tok with
  | nil => contradiction
  | cons arrow tok =>
      rw [compileAction] at ok ⊢
      split at ok
      · next isArrow =>
        rw [if_pos isArrow]
        cases tok with
        | nil => contradiction
        | cons parser tok =>
            rw [compileParser] at ok ⊢
            obtain ⟨region, rest, rk, anchor, aid, rfl, parsed, found, known, same⟩ :=
              compileRegion_of_ok ok
            rcases LineState.require_of_ok known with ⟨palette, unchanged⟩
            rcases Option.isSome_iff_exists.mp palette with ⟨kind, index⟩
            dsimp only at known unchanged
            rw [unchanged] at known
            refine ⟨parser, region, rest, kind, rk, anchor, aid, by rw [isArrow], index, parsed,
              found, known, ?_⟩
            rw [same, unchanged, index]
            rfl
      · contradiction

end Line

/-! ### Well-formed rules -/

/-- The field is one of its node's spec, its bytes lie inside the spec and its bits
inside these bytes, and the operand fits it. -/
structure Predicate.WellFormed (pr : Predicate) : Prop where
  refers : ∃ node field, RefersTo pr.field node field
  field : ∃ node, nodes[pr.field.nodeId]? = some node ∧
    pr.field.offset + pr.field.byteWidth ≤ specSize node.spec
  bits : pr.field.isBitfield = true →
    pr.field.bitOffset + pr.field.bitWidth ≤ pr.field.byteWidth * 8
  operand_lt : pr.operand < 2 ^ pr.field.bits

/-- The node that a region of this kind is measured from. -/
def RegionKind.anchor : RegionKind → L2L3Node
  | .ethPayload => .eth
  | .vlanPayload => .vlan
  | .udpPayload => .udp
  | .tcpPayload => .tcp
  | .someipPayload => .someip

structure Rule.WellFormed (rule : Rule) (palette : Nat) : Prop where
  preds_pos : 1 ≤ rule.preds.length
  preds_le : rule.preds.length ≤ kMaxPredicates
  preds : ∀ pr ∈ rule.preds, pr.WellFormed
  parserKind_lt : rule.parserKind < palette
  anchor : nodes[rule.region.anchorNodeId]? = some rule.region.kind.anchor

section Catalog

variable {parserNames : List Text} {lineNo : Nat}

theorem AcceptedPredicate.wellFormed {lhs ops vals : Text} {pr : Predicate}
    (accepted : AcceptedPredicate buildL2l3Catalog lhs ops vals pr) : pr.WellFormed := by
  rcases accepted.field with ⟨nodeName, fieldName, e, -, found, same⟩
  rcases refersTo_of_mem_catalog (List.mem_of_find?_eq_some found) with ⟨node, field, refers⟩
  rw [← same] at refers
  constructor
  · exact ⟨node, field, refers⟩
  · refine ⟨node, ?_, refers.endOffset_le⟩
    rw [refers.2.1, getElem?_nodes_nodeId]
  · exact refers.bits_le
  · by_cases narrow : pr.field.bits < 64
    · exact accepted.fits narrow
    · have bound : (parseU64 vals).2 < 2 ^ 64 := by
        rw [parseU64]
        split
        · exact Nat.two_pow_pos 64
        · exact strtoull_lt _
      rw [accepted.operand] at bound
      exact Nat.lt_of_lt_of_le bound (Nat.pow_le_pow_right (by decide) (Nat.not_lt.mp narrow))

theorem AcceptedPredicates.wellFormed {tok rest : List Text} {preds : List Predicate}
    (accepted : AcceptedPredicates buildL2l3Catalog tok rest preds) :
    ∀ pr ∈ preds, pr.WellFormed := by
  induction accepted with
  | last accepted _ => simpa using accepted.wellFormed
  | more accepted _ inductionHypothesis =>
      exact List.forall_mem_cons.mpr ⟨accepted.wellFormed, inductionHypothesis⟩

/-- The catalog knows the anchors of all regions. -/
theorem anchor_of_parseRegion {region : Text} {rk : RegionKind} {anchor : String} {aid : Nat}
    (parsed : parseRegion region = some (rk, anchor))
    (found : anchorNodeId buildL2l3Catalog anchor = some aid) :
    nodes[aid % 2 ^ 16]? = some rk.anchor := by
  have known : anchorNodeId buildL2l3Catalog anchor = some (nodeId rk.anchor) := by
    rw [parseRegion] at parsed
    split_ifs at parsed <;> cases parsed <;> decide +kernel
  rw [known] at found
  obtain rfl := Option.some.inj found
  rw [Nat.mod_eq_of_lt (Nat.lt_trans (nodeId_lt _) (by decide)), getElem?_nodes_nodeId]

/-- A label changes nothing but the rule's name. -/
theorem compileLabel_rule (tok : List Text) (st : LineState) :
    (compileLabel tok st).rule = { st.rule with name := (compileLabel tok st).rule.name } := by
  cases tok <;> rfl

/-- An accepted line is a well-formed rule with the line's ordinal. -/
theorem compileLine_of_ok {ordinal : Nat} {tok : List Text}
    (ok : (compileLine buildL2l3Catalog parserNames lineNo ordinal tok).ruleOk = true) :
    (compileLine buildL2l3Catalog parserNames lineNo ordinal tok).rule.WellFormed
        parserNames.length ∧
      (compileLine buildL2l3Catalog parserNames lineNo ordinal tok).rule.ruleId = ordinal := by
  rw [compileLine] at ok ⊢
  obtain ⟨parser, region, rest, kind, rk, anchor, aid, -, index, parsed, found, loop, action⟩ :=
    compileAction_of_ok ok
  rcases predicateLoop_of_ok loop with ⟨-, preds, accepted, room, appended⟩
  rw [action, compileLabel_rule, appended]
  have inPalette := (List.findIdx?_eq_some_iff_findIdx_eq.mp index).1
  refine ⟨⟨List.length_pos_iff.mpr accepted.ne_nil, ?_, accepted.wellFormed, ?_,
    anchor_of_parseRegion parsed found⟩, rfl⟩
  · rwa [List.length_nil, Nat.zero_add] at room
  · exact Nat.lt_of_le_of_lt (Nat.mod_le _ _) inPalette

end Catalog

/-! ### The rules of a text -/

/-- The rules so far are well formed and numbered in order. -/
structure Numbered (palette lines : Nat) (state : CompileState) : Prop where
  rules : ∀ i rule, state.rules[i]? = some rule → rule.WellFormed palette ∧ rule.ruleId = i % 2 ^ 32
  ordinal : state.ordinal = state.rules.length % 2 ^ 32
  few : state.rules.length ≤ lines

section Text

variable {parserNames : List Text}

/-- A line without error keeps the rules numbered. -/
theorem compileStep_numbered {lines : Nat} {state : CompileState} {line : Text}
    (numbered : state.errors = [] → Numbered parserNames.length lines state)
    (clean : (compileStep buildL2l3Catalog parserNames state line).errors = []) :
    Numbered parserNames.length (lines + 1)
      (compileStep buildL2l3Catalog parserNames state line) := by
  rw [compileStep] at clean ⊢
  split at clean
  · next skipped =>
    rw [if_pos skipped]
    rcases numbered clean with ⟨rules, ordinal, few⟩
    exact ⟨rules, ordinal, Nat.le_succ_of_le few⟩
  · next kept =>
    rw [if_neg kept]
    rcases List.append_eq_nil_iff.mp clean with ⟨before, own⟩
    rcases numbered before with ⟨rules, ordinal, few⟩
    have consistent := compileLine_consistent buildL2l3Catalog parserNames
      ((state.lineNo + 1) % 2 ^ 32) state.ordinal (tokenize line)
    have ok := consistent.trans (List.isEmpty_iff.mpr own)
    rcases compileLine_of_ok ok with ⟨wellFormed, ruleId⟩
    simp only [ok, if_true]
    refine ⟨?_, ?_, ?_⟩
    · intro i rule found
      rw [List.getElem?_append] at found
      split at found
      · exact rules i rule found
      · next last =>
        rw [List.getElem?_singleton] at found
        split at found
        · cases found
          obtain rfl : i = state.rules.length := by omega
          exact ⟨wellFormed, ruleId.trans ordinal⟩
        · contradiction
    · rw [ordinal, List.length_append, List.length_singleton, Nat.mod_add_mod]
    · rw [List.length_append, List.length_singleton]
      exact Nat.succ_le_succ few

theorem foldl_compileStep_numbered (text : List Text) {lines : Nat} {state : CompileState}
    (numbered : state.errors = [] → Numbered parserNames.length lines state)
    (clean : (text.foldl (compileStep buildL2l3Catalog parserNames) state).errors = []) :
    Numbered parserNames.length (lines + text.length)
      (text.foldl (compileStep buildL2l3Catalog parserNames) state) := by
  induction text generalizing lines state with
  | nil => exact numbered clean
  | cons line text inductionHypothesis =>
      rw [List.length_cons, Nat.add_comm text.length, ← Nat.add_assoc]
      exact inductionHypothesis (compileStep_numbered numbered) clean

/-- The rules of an accepted text are well formed, and numbered in order. -/
theorem compileRules_numbered {text : Text}
    (ok : (compileRules text buildL2l3Catalog parserNames).ok = true) :
    Numbered parserNames.length (text.splitOn '\n').length
      ((text.splitOn '\n').foldl (compileStep buildL2l3Catalog parserNames) ⟨0, 0, [], []⟩) ∧
      (compileRules text buildL2l3Catalog parserNames).rules =
        ((text.splitOn '\n').foldl (compileStep buildL2l3Catalog parserNames) ⟨0, 0, [], []⟩).rules := by
  have start : Numbered parserNames.length 0 ⟨0, 0, [], []⟩ :=
    ⟨fun i rule found => by simp at found, rfl, Nat.le_refl 0⟩
  have run := foldl_compileStep_numbered (text.splitOn '\n') fun _ => start
  rw [Nat.zero_add] at run
  rw [compileRules] at ok ⊢
  split at ok
  · next clean =>
    rw [if_pos clean]
    exact ⟨run (List.isEmpty_iff.mp clean), rfl⟩
  · contradiction

/-- What a compilation returns: numbered well-formed rules, or errors. -/
theorem compileRules_spec {text : Text} (parserNames : List Text) (short : text.length < 2 ^ 32) :
    ((compileRules text buildL2l3Catalog parserNames).ok = true →
      ∀ i (rule : Rule), (compileRules text buildL2l3Catalog parserNames).rules[i]? = some rule →
        rule.ruleId = i ∧ rule.WellFormed parserNames.length) ∧
      ((compileRules text buildL2l3Catalog parserNames).ok = false →
        (compileRules text buildL2l3Catalog parserNames).rules = [] ∧
          (compileRules text buildL2l3Catalog parserNames).errors ≠ []) := by
  constructor
  · intro ok i rule found
    obtain ⟨⟨rules, -, few⟩, same⟩ := compileRules_numbered ok
    have lines := length_splitOn_le '\n' text
    rw [same] at found
    obtain ⟨below, -⟩ := List.getElem?_eq_some_iff.mp found
    obtain ⟨wellFormed, ruleId⟩ := rules i rule found
    exact ⟨ruleId.trans (Nat.mod_eq_of_lt (by omega)), wellFormed⟩
  · intro failed
    rw [compileRules] at failed ⊢
    split at failed
    · contradiction
    · next errors =>
      rw [if_neg errors]
      exact ⟨rfl, fun none => errors (List.isEmpty_iff.mpr none)⟩

end Text

end Nanotins.Dpar
