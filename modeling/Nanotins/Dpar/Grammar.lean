import Nanotins.Dpar.Accepted

/-!
Contract: the texts that `compile_rules` accepts, and the rules they compile to.

Owns: the text of a catalogued field, the tokens that a line may have and the rule
they stand for, the lines that a text may have, and that a text compiles to rules
exactly when its lines are such (`compileRules_eq_iff`).

Does not own: whether these are the documented texts.
-/

namespace Nanotins.Dpar

open Nanotins.Library

/-! ### Fields -/

/-- `<node>.<field>` of a catalogued field. -/
def fieldText (e : CatalogEntry) : Text := e.node.toList ++ '.' :: e.field.toList

section Field

variable {e : CatalogEntry}

theorem mem_fieldText (catalogued : e ∈ buildL2l3Catalog) :
    ∀ c ∈ fieldText e, nameChar c = true ∨ c = '.' := by
  rcases nameChar_of_mem_catalog catalogued with ⟨node, field⟩
  intro c member
  rcases List.mem_append.mp member with inNode | later
  · exact .inl (node c inNode)
  · rcases List.mem_cons.mp later with dot | inField
    · exact .inr dot
    · exact .inl (field c inField)

/-- The text of a catalogued field is split into its names. -/
theorem splitDot_fieldText (catalogued : e ∈ buildL2l3Catalog) :
    splitDot (fieldText e) = some (e.node.toList, e.field.toList) := by
  rcases nameChar_of_mem_catalog catalogued with ⟨node, -⟩
  have undotted : ∀ c ∈ e.node.toList, decide (c ≠ '.') = true := by
    intro c member
    have char := node c member
    by_contra dot
    obtain rfl : c = '.' := by simpa using dot
    contradiction
  rw [splitDot, if_pos (by simp [fieldText]), fieldText, List.takeWhile_append_of_pos undotted,
    List.dropWhile_append_of_pos undotted, List.takeWhile_cons_of_neg (by simp),
    List.dropWhile_cons_of_neg (by simp), List.append_nil]
  rfl

end Field

/-! ### Lines -/

/-- The name that the tokens behind the region give. -/
def labelName : List Text → Text
  | [] => []
  | label :: _ => (cStr (stripQuotes label)).take (kRuleNameLen - 1)

/-- The rule that the tokens of a line stand for. -/
inductive AcceptedLine (catalog : List CatalogEntry) (parserNames : List Text) (ordinal : Nat) :
    List Text → Rule → Prop where
  | rule {tok : List Text} {preds : List Predicate} {parser region : Text} {rest : List Text}
      {kind aid : Nat} {rk : RegionKind} {anchor : String}
      (predicates : AcceptedPredicates catalog tok ("=>".toList :: parser :: region :: rest) preds)
      (few : preds.length ≤ kMaxPredicates)
      (inPalette : parserNames.findIdx? (· == parser) = some kind)
      (named : parseRegion region = some (rk, anchor))
      (anchored : anchorNodeId catalog anchor = some aid) :
      AcceptedLine catalog parserNames ordinal tok
        { preds := preds
          parserKind := kind % 2 ^ 16
          region := ⟨rk, aid % 2 ^ 16⟩
          ruleId := ordinal
          priority := ordinal % 2 ^ 16
          name := labelName rest }

section Line

variable {catalog : List CatalogEntry} {parserNames : List Text} {lineNo ordinal : Nat}
  {tok rest : List Text} {st : LineState} {preds : List Predicate} {rule : Rule}

/-- Accepted predicates are appended while there is room. -/
theorem predicateLoop_of_accepted (accepted : AcceptedPredicates catalog tok rest preds)
    (room : st.rule.preds.length + preds.length ≤ kMaxPredicates) :
    predicateLoop catalog lineNo tok st =
      (rest, { st with rule := { st.rule with preds := st.rule.preds ++ preds } }) := by
  induction accepted generalizing st with
  | @last lhs ops vals rest pr accepted ends =>
      have pushed : compilePredicate catalog lineNo lhs ops vals st = st.push pr :=
        accepted.compilePredicate room
      cases rest with
      | nil =>
          rw [predicateLoop, pushed]
          rfl
      | cons next rest =>
          rw [predicateLoop_last (by simpa using ends), pushed]
          rfl
  | @more lhs ops vals tok rest pr preds accepted _ inductionHypothesis =>
      rw [List.length_cons] at room
      have pushed : compilePredicate catalog lineNo lhs ops vals st = st.push pr :=
        accepted.compilePredicate (by omega)
      have longer : (st.push pr).rule.preds.length = st.rule.preds.length + 1 :=
        List.length_append
      rw [predicateLoop_more, pushed, inductionHypothesis (by omega)]
      show (rest, { st with rule := { st.rule with preds := st.rule.preds ++ [pr] ++ preds } }) = _
      rw [List.append_assoc]
      rfl

theorem compileLabel_eq (tok : List Text) (st : LineState) (unnamed : st.rule.name = []) :
    compileLabel tok st = { st with rule := { st.rule with name := labelName tok } } := by
  cases tok with
  | nil =>
      show st = { st with rule := { st.rule with name := [] } }
      rw [← unnamed]
  | cons label rest => rfl

/-- An action that names a parser of the palette and a region is taken. -/
theorem compileAction_of_known {parser region : Text} {kind aid : Nat} {rk : RegionKind}
    {anchor : String} (inPalette : parserNames.findIdx? (· == parser) = some kind)
    (named : parseRegion region = some (rk, anchor))
    (anchored : anchorNodeId catalog anchor = some aid) (st : LineState) :
    compileAction catalog parserNames lineNo ("=>".toList :: parser :: region :: rest) st =
      compileLabel rest { st with
        rule := { st.rule with
          parserKind := kind % 2 ^ 16
          region := ⟨rk, aid % 2 ^ 16⟩ } } := by
  rw [compileAction, if_pos rfl, compileParser, inPalette]
  show compileRegion catalog lineNo (region :: rest)
    { st with rule := { st.rule with parserKind := kind % 2 ^ 16 } } = _
  rw [compileRegion, named]
  dsimp only
  rw [anchored]

/-- A line is accepted exactly when its tokens stand for a rule. -/
theorem compileLine_iff :
    ((compileLine catalog parserNames lineNo ordinal tok).ruleOk = true ∧
      (compileLine catalog parserNames lineNo ordinal tok).rule = rule) ↔
      AcceptedLine catalog parserNames ordinal tok rule := by
  constructor
  · rintro ⟨ok, rfl⟩
    rw [compileLine] at ok ⊢
    obtain ⟨parser, region, rest, kind, rk, anchor, aid, tokens, index, parsed, found, loop, action⟩ :=
      compileAction_of_ok ok
    rcases predicateLoop_of_ok loop with ⟨-, preds, accepted, room, appended⟩
    rw [action, appended, compileLabel_eq _ _ rfl]
    rw [tokens] at accepted
    rw [List.length_nil, Nat.zero_add] at room
    exact .rule accepted room index parsed found
  · rintro ⟨predicates, few, inPalette, named, anchored⟩
    have room : ([] : List Predicate).length + _ ≤ kMaxPredicates := (Nat.zero_add _).trans_le few
    rw [compileLine, predicateLoop_of_accepted predicates room]
    dsimp only
    rw [compileAction_of_known inPalette named anchored, compileLabel_eq _ _ rfl]
    exact ⟨rfl, rfl⟩

end Line

/-! ### Texts -/

/-- The lines that are neither blank nor comments. -/
def ruleLinesOf (lines : List Text) : List Text :=
  lines.filter fun line => !isSkipped (tokenize line)

/-- The rules that the lines of a text stand for, from an ordinal on. -/
inductive AcceptedLines (catalog : List CatalogEntry) (parserNames : List Text) :
    Nat → List Text → List Rule → Prop where
  | nil {ordinal : Nat} : AcceptedLines catalog parserNames ordinal [] []
  | skip {ordinal : Nat} {line : Text} {lines : List Text} {rules : List Rule}
      (skipped : isSkipped (tokenize line) = true)
      (later : AcceptedLines catalog parserNames ordinal lines rules) :
      AcceptedLines catalog parserNames ordinal (line :: lines) rules
  | rule {ordinal : Nat} {line : Text} {lines : List Text} {rule : Rule} {rules : List Rule}
      (kept : isSkipped (tokenize line) = false)
      (accepted : AcceptedLine catalog parserNames ordinal (tokenize line) rule)
      (later : AcceptedLines catalog parserNames ((ordinal + 1) % 2 ^ 32) lines rules) :
      AcceptedLines catalog parserNames ordinal (line :: lines) (rule :: rules)

section Text

variable {catalog : List CatalogEntry} {parserNames : List Text}

/-- Errors that were reported stay. -/
theorem errors_of_foldl {lines : List Text} {state : CompileState}
    (clean : (lines.foldl (compileStep catalog parserNames) state).errors = []) :
    state.errors = [] := by
  induction lines generalizing state with
  | nil => exact clean
  | cons line lines inductionHypothesis =>
      have stepped := inductionHypothesis clean
      rw [compileStep] at stepped
      split at stepped
      · exact stepped
      · exact (List.append_eq_nil_iff.mp stepped).1

/-- A line that is no rule is only counted. -/
theorem compileStep_of_skipped {state : CompileState} {line : Text}
    (skipped : isSkipped (tokenize line) = true) :
    compileStep catalog parserNames state line =
      { state with lineNo := (state.lineNo + 1) % 2 ^ 32 } := by
  rw [compileStep]
  exact if_pos skipped

/-- A line that stands for a rule appends it. -/
theorem compileStep_of_accepted {state : CompileState} {line : Text} {rule : Rule}
    (kept : isSkipped (tokenize line) = false)
    (accepted : AcceptedLine catalog parserNames state.ordinal (tokenize line) rule) :
    compileStep catalog parserNames state line =
      { lineNo := (state.lineNo + 1) % 2 ^ 32
        ordinal := (state.ordinal + 1) % 2 ^ 32
        rules := state.rules ++ [rule]
        errors := state.errors } := by
  rcases compileLine_iff.mpr accepted with ⟨ok, same⟩
  have consistent := compileLine_consistent catalog parserNames ((state.lineNo + 1) % 2 ^ 32)
    state.ordinal (tokenize line)
  have none : (compileLine catalog parserNames ((state.lineNo + 1) % 2 ^ 32) state.ordinal
      (tokenize line)).errors = [] := List.isEmpty_iff.mp (consistent.symm.trans ok)
  rw [compileStep, if_neg (by simp [kept])]
  dsimp only
  rw [ok, same, none, List.append_nil]
  rfl

/-- A line that reports nothing stands for a rule. -/
theorem accepted_of_compileStep {state : CompileState} {line : Text}
    (kept : isSkipped (tokenize line) = false)
    (clean : (compileStep catalog parserNames state line).errors = []) :
    ∃ rule, AcceptedLine catalog parserNames state.ordinal (tokenize line) rule := by
  rw [compileStep, if_neg (by simp [kept])] at clean
  have consistent := compileLine_consistent catalog parserNames ((state.lineNo + 1) % 2 ^ 32)
    state.ordinal (tokenize line)
  have ok := consistent.trans (List.isEmpty_iff.mpr (List.append_eq_nil_iff.mp clean).2)
  exact ⟨_, compileLine_iff.mp ⟨ok, rfl⟩⟩

theorem foldl_of_accepted {ordinal : Nat} {lines : List Text} {rules : List Rule}
    (accepted : AcceptedLines catalog parserNames ordinal lines rules) {state : CompileState}
    (same : state.ordinal = ordinal) :
    (lines.foldl (compileStep catalog parserNames) state).errors = state.errors ∧
      (lines.foldl (compileStep catalog parserNames) state).rules = state.rules ++ rules := by
  induction accepted generalizing state with
  | nil => exact ⟨rfl, (List.append_nil _).symm⟩
  | skip skipped _ inductionHypothesis =>
      rw [List.foldl_cons, compileStep_of_skipped skipped]
      exact inductionHypothesis same
  | rule kept accepted _ inductionHypothesis =>
      subst same
      rw [List.foldl_cons, compileStep_of_accepted kept accepted]
      generalize entered : CompileState.mk _ _ _ _ = behind
      have next : behind.ordinal = (state.ordinal + 1) % 2 ^ 32 := by rw [← entered]
      rcases inductionHypothesis next with ⟨errors, rules⟩
      rw [← entered] at errors rules ⊢
      exact ⟨errors, rules.trans (List.append_assoc _ _ _)⟩

theorem accepted_of_foldl {lines : List Text} {state : CompileState}
    (clean : (lines.foldl (compileStep catalog parserNames) state).errors = []) :
    ∃ rules, AcceptedLines catalog parserNames state.ordinal lines rules := by
  induction lines generalizing state with
  | nil => exact ⟨[], .nil⟩
  | cons line lines inductionHypothesis =>
      rcases inductionHypothesis clean with ⟨rules, later⟩
      rw [List.foldl_cons] at clean
      have stepped := errors_of_foldl clean
      cases kept : isSkipped (tokenize line) with
      | true =>
          rw [compileStep_of_skipped kept] at later
          exact ⟨rules, .skip kept later⟩
      | false =>
          rcases accepted_of_compileStep kept stepped with ⟨rule, accepted⟩
          rw [compileStep_of_accepted kept accepted] at later
          exact ⟨rule :: rules, .rule kept accepted later⟩

/-- A text compiles to rules exactly when its lines stand for them. -/
theorem compileRules_eq_iff {text : Text} {rules : List Rule} :
    compileRules text catalog parserNames = ⟨true, rules, []⟩ ↔
      AcceptedLines catalog parserNames 0 (text.splitOn '\n') rules := by
  rw [compileRules]
  constructor
  · intro compiled
    split at compiled
    · next clean =>
      rcases accepted_of_foldl (List.isEmpty_iff.mp clean) with ⟨rules', accepted⟩
      have same := (foldl_of_accepted accepted rfl).2
      rw [same] at compiled
      obtain rfl : rules' = rules := congrArg CompileResult.rules compiled
      exact accepted
    · exact absurd (congrArg CompileResult.ok compiled) Bool.false_ne_true
  · intro accepted
    have start : (⟨0, 0, [], []⟩ : CompileState).ordinal = 0 := rfl
    rcases foldl_of_accepted accepted start with ⟨errors, same⟩
    rw [errors, same]
    rfl

end Text

end Nanotins.Dpar
