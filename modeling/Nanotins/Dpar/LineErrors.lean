import Nanotins.Dpar.Grammar
import Nanotins.Library.Json

/-!
Contract: what a rules text reports, line by line.

Owns: that what the compiler makes of a line depends on the line alone, up to the
numbers in it (`exists_draft`), the errors and the rules of a text in terms of its
lines (`compileRules_eq`), and those of two texts put together
(`compileRules_append`).

Does not own: which lines are accepted.
-/

namespace Nanotins.Dpar

open Nanotins.Library

/-! ### Drafts -/

/-- What an error starts with. -/
def errorHead (lineNo : Nat) : Text :=
  "rule line ".toList ++ Nat.toDigits 10 lineNo ++ ": ".toList

/-- The text of an error, given the number of its line. -/
def errorText (lineNo : Nat) (m : Text) : Text := errorHead lineNo ++ m

/-- The rule as the one of the given number. -/
def Rule.numbered (rule : Rule) (ordinal : Nat) : Rule :=
  { rule with ruleId := ordinal, priority := ordinal % 2 ^ 16 }

/-- A line of which the number of the rule and that of the line are left open; its
errors are bare messages. -/
def LineState.place (draft : LineState) (lineNo ordinal : Nat) : LineState :=
  ⟨draft.rule.numbered ordinal, draft.ruleOk, draft.errors.map (errorText lineNo)⟩

/-- The states differ in the numbers only, where `states` has them by the number of
the line and that of the rule. -/
def Placed (states : Nat → Nat → LineState) : Prop :=
  ∃ draft : LineState, ∀ lineNo ordinal, states lineNo ordinal = draft.place lineNo ordinal

namespace Placed

variable (catalog : List CatalogEntry) (parserNames : List Text)
  {states : Nat → Nat → LineState}

theorem err (placed : Placed states) (m : Text) :
    Placed fun lineNo ordinal => (states lineNo ordinal).err lineNo m := by
  obtain ⟨draft, same⟩ := placed
  refine ⟨⟨draft.rule, false, draft.errors ++ [m]⟩, fun lineNo ordinal => ?_⟩
  dsimp only
  rw [same]
  dsimp only [LineState.err, LineState.place]
  rw [List.map_append]
  rfl

theorem require (placed : Placed states) (cond : Bool) (m : Text) :
    Placed fun lineNo ordinal => (states lineNo ordinal).require lineNo cond m := by
  cases cond with
  | true => exact placed
  | false => exact placed.err m

/-- A pass that changes the rule only, and none of its numbers. -/
theorem rule (placed : Placed states) (change : Rule → Rule)
    (numbers : ∀ rule ordinal, change (rule.numbered ordinal) = (change rule).numbered ordinal) :
    Placed fun lineNo ordinal =>
      { states lineNo ordinal with rule := change (states lineNo ordinal).rule } := by
  obtain ⟨draft, same⟩ := placed
  refine ⟨{ draft with rule := change draft.rule }, fun lineNo ordinal => ?_⟩
  dsimp only
  rw [same]
  dsimp only [LineState.place]
  rw [numbers]

theorem pushed (placed : Placed states) (m : Text) (pr : Predicate) :
    Placed fun lineNo ordinal =>
      if kMaxPredicates ≤ (states lineNo ordinal).rule.preds.length then
        (states lineNo ordinal).err lineNo m
      else (states lineNo ordinal).push pr := by
  have crowded := placed.err m
  have roomy := placed.rule (fun rule => { rule with preds := rule.preds ++ [pr] }) fun _ _ => rfl
  obtain ⟨draft, same⟩ := placed
  have preds : ∀ lineNo ordinal, (states lineNo ordinal).rule.preds = draft.rule.preds := by
    intro lineNo ordinal
    rw [same]
    rfl
  by_cases many : kMaxPredicates ≤ draft.rule.preds.length
  · simp only [preds, if_pos many]
    exact crowded
  · simp only [preds, if_neg many]
    exact roomy

theorem addPredicate (placed : Placed states) (lhs vals : Text) (ce : CatalogEntry) (op : CmpOp)
    (operand : Nat) :
    Placed fun lineNo ordinal =>
      addPredicate lineNo lhs vals ce op operand (states lineNo ordinal) :=
  (placed.require _ _).pushed _ ⟨ce.ref, op, operand⟩

theorem compilePredicate (placed : Placed states) (lhs ops vals : Text) :
    Placed fun lineNo ordinal =>
      compilePredicate catalog lineNo lhs ops vals (states lineNo ordinal) := by
  have checked : Placed fun lineNo ordinal =>
      checkTokens lineNo lhs ops vals (states lineNo ordinal) :=
    ((placed.require _ _).require _ _).require _ _
  unfold Dpar.compilePredicate
  cases splitDot lhs with
  | none => exact checked
  | some place =>
      cases known : findField catalog place.1 place.2 with
      | none =>
          dsimp only
          rw [known]
          exact checked.err _
      | some ce =>
          dsimp only
          rw [known]
          exact checked.addPredicate lhs vals ce _ _

/-- The predicate loop leaves the same tokens, wherever the line stands. -/
theorem predicateLoop (placed : Placed states) (tok : List Text) :
    ∃ rest, ∃ next : Nat → Nat → LineState, Placed next ∧ ∀ lineNo ordinal,
      predicateLoop catalog lineNo tok (states lineNo ordinal) = (rest, next lineNo ordinal) := by
  induction bound : tok.length using Nat.strongRecOn generalizing tok states with
  | ind n inductionHypothesis =>
      match tok, bound with
      | lhs :: ops :: vals :: [], _ =>
          exact ⟨[], _, placed.compilePredicate catalog lhs ops vals, fun _ _ => rfl⟩
      | lhs :: ops :: vals :: next :: rest, bound =>
          by_cases more : next = "&&".toList
          · obtain ⟨left, after, placedAfter, same⟩ := inductionHypothesis rest.length
              (by simp at bound; omega) (placed.compilePredicate catalog lhs ops vals) rest rfl
            refine ⟨left, after, placedAfter, fun lineNo ordinal => ?_⟩
            rw [more, predicateLoop_more, same]
          · refine ⟨next :: rest, _, placed.compilePredicate catalog lhs ops vals,
              fun lineNo ordinal => predicateLoop_last more⟩
      | [], _ => exact ⟨[], _, placed.err _, fun _ _ => rfl⟩
      | [lhs], _ => exact ⟨[lhs], _, placed.err _, fun _ _ => rfl⟩
      | [lhs, ops], _ => exact ⟨[lhs, ops], _, placed.err _, fun _ _ => rfl⟩

theorem compileLabel (placed : Placed states) (tok : List Text) :
    Placed fun lineNo ordinal => compileLabel tok (states lineNo ordinal) := by
  cases tok with
  | nil => exact placed
  | cons label rest =>
      exact placed.rule
        (fun rule => { rule with name := (cStr (stripQuotes label)).take (kRuleNameLen - 1) })
        fun _ _ => rfl

theorem compileRegion (placed : Placed states) (tok : List Text) :
    Placed fun lineNo ordinal => compileRegion catalog lineNo tok (states lineNo ordinal) := by
  cases tok with
  | nil => exact placed.err _
  | cons region rest =>
      dsimp only [Dpar.compileRegion]
      cases parseRegion region with
      | none => exact (placed.err _).compileLabel rest
      | some found =>
          dsimp only
          cases anchorNodeId catalog found.2 with
          | none => exact (placed.err _).compileLabel rest
          | some aid =>
              exact (placed.rule (fun rule => { rule with region := ⟨found.1, aid % 2 ^ 16⟩ })
                fun _ _ => rfl).compileLabel rest

theorem compileParser (placed : Placed states) (tok : List Text) :
    Placed fun lineNo ordinal =>
      compileParser catalog parserNames lineNo tok (states lineNo ordinal) := by
  cases tok with
  | nil => exact (placed.err _).compileRegion catalog []
  | cons parser rest =>
      exact ((placed.require _ _).rule (fun rule => { rule with
        parserKind := (parserNames.findIdx? (· == parser)).getD 0 % 2 ^ 16 })
        fun _ _ => rfl).compileRegion catalog rest

theorem compileAction (placed : Placed states) (tok : List Text) :
    Placed fun lineNo ordinal =>
      compileAction catalog parserNames lineNo tok (states lineNo ordinal) := by
  cases tok with
  | nil => exact placed.err _
  | cons arrow rest =>
      dsimp only [Dpar.compileAction]
      split
      · exact placed.compileParser catalog parserNames rest
      · exact placed.err _

/-- What is made of a line is the same wherever it stands, up to the numbers. -/
theorem compileLine (tok : List Text) :
    Placed fun lineNo ordinal => compileLine catalog parserNames lineNo ordinal tok := by
  have start : Placed fun _ ordinal =>
      ⟨{ ruleId := ordinal, priority := ordinal % 2 ^ 16 }, true, []⟩ :=
    ⟨⟨{}, true, []⟩, fun _ _ => rfl⟩
  obtain ⟨rest, next, placed, same⟩ := start.predicateLoop catalog tok
  unfold Dpar.compileLine
  simp only [same]
  exact placed.compileAction catalog parserNames rest

end Placed

/-! ### Lines -/

section Lines

variable (catalog : List CatalogEntry) (parserNames : List Text)

/-- What a line says, wherever it stands: its rule, and its bare messages. -/
def lineDraft (line : Text) : LineState :=
  let st := compileLine catalog parserNames 0 0 (tokenize line)
  { st with errors := st.errors.map (List.drop (errorHead 0).length) }

/-- The messages of a line. -/
def problems (line : Text) : List Text :=
  if isSkipped (tokenize line) then [] else (lineDraft catalog parserNames line).errors

variable {catalog parserNames}

theorem compileLine_eq (lineNo ordinal : Nat) (line : Text) :
    compileLine catalog parserNames lineNo ordinal (tokenize line) =
      (lineDraft catalog parserNames line).place lineNo ordinal := by
  obtain ⟨draft, placed⟩ := Placed.compileLine catalog parserNames (tokenize line)
  have same : ∀ lineNo ordinal, compileLine catalog parserNames lineNo ordinal (tokenize line) =
      draft.place lineNo ordinal := placed
  have dropped : ∀ m, (errorText 0 m).drop (errorHead 0).length = m :=
    fun _ => List.drop_left
  have bare : (draft.errors.map (errorText 0)).map (List.drop (errorHead 0).length) =
      draft.errors := by
    rw [List.map_map]
    exact (List.map_congr_left fun m _ => dropped m).trans (List.map_id _)
  rw [lineDraft, same, same]
  dsimp only [LineState.place]
  rw [bare]
  rfl

/-- A line is taken exactly if it has no message. -/
theorem lineDraft_ruleOk (line : Text) :
    (lineDraft catalog parserNames line).ruleOk =
      (lineDraft catalog parserNames line).errors.isEmpty := by
  have consistent := compileLine_consistent catalog parserNames 0 0 (tokenize line)
  rw [compileLine_eq] at consistent
  dsimp only [LineState.Consistent, LineState.place] at consistent
  rw [consistent, List.isEmpty_map]

/-- The rule of an accepted line, under its number. -/
theorem accepted_iff {line : Text} {ordinal : Nat} {rule : Rule} :
    AcceptedLine catalog parserNames ordinal (tokenize line) rule ↔
      (lineDraft catalog parserNames line).errors = [] ∧
        (lineDraft catalog parserNames line).rule.numbered ordinal = rule := by
  have compiled : ((compileLine catalog parserNames 0 ordinal (tokenize line)).ruleOk = true ∧
      (compileLine catalog parserNames 0 ordinal (tokenize line)).rule = rule) ↔
        AcceptedLine catalog parserNames ordinal (tokenize line) rule := compileLine_iff
  rw [← compiled, compileLine_eq]
  dsimp only [LineState.place]
  rw [lineDraft_ruleOk, List.isEmpty_iff]

variable (catalog parserNames) in
/-- Which lines are accepted does not depend on their numbers. -/
theorem problems_eq_nil_iff (line : Text) (ordinal : Nat) :
    problems catalog parserNames line = [] ↔
      isSkipped (tokenize line) = true ∨
        ∃ rule, AcceptedLine catalog parserNames ordinal (tokenize line) rule := by
  rw [problems]
  split
  · next skipped => exact iff_of_true rfl (.inl skipped)
  · next kept =>
    rw [or_iff_right kept]
    constructor
    · intro none
      exact ⟨_, accepted_iff.mpr ⟨none, rfl⟩⟩
    · rintro ⟨rule, accepted⟩
      exact (accepted_iff.mp accepted).1

end Lines

/-! ### Texts -/

section Texts

variable (catalog : List CatalogEntry) (parserNames : List Text)

/-- The rules of the lines, numbered from `ordinal` on. -/
def rulesOf (ordinal : Nat) (lines : List Text) : List Rule :=
  ((ruleLinesOf lines).zipIdx ordinal).map fun entry =>
    (lineDraft catalog parserNames entry.1).rule.numbered entry.2

/-- The messages of the lines with the numbers of the lines, from `lineNo` on. -/
def reportsOf (lineNo : Nat) (lines : List Text) : List (Nat × Text) :=
  (lines.zipIdx lineNo).flatMap fun entry =>
    (problems catalog parserNames entry.1).map (entry.2, ·)

/-- The errors of the lines, numbered from `lineNo` on. -/
def errorsOf (lineNo : Nat) (lines : List Text) : List Text :=
  (reportsOf catalog parserNames lineNo lines).map fun report => errorText report.1 report.2

variable {catalog parserNames}

theorem errorsOf_cons (lineNo : Nat) (line : Text) (lines : List Text) :
    errorsOf catalog parserNames lineNo (line :: lines) =
      (problems catalog parserNames line).map (errorText lineNo) ++
        errorsOf catalog parserNames (lineNo + 1) lines := by
  rw [errorsOf, reportsOf, List.zipIdx_cons, List.flatMap_cons, List.map_append, List.map_map]
  rfl

theorem errorsOf_append (lineNo : Nat) (lines later : List Text) :
    errorsOf catalog parserNames lineNo (lines ++ later) =
      errorsOf catalog parserNames lineNo lines ++
        errorsOf catalog parserNames (lineNo + lines.length) later := by
  rw [errorsOf, reportsOf, List.zipIdx_append, List.flatMap_append, List.map_append]
  rfl

variable (catalog parserNames) in
/-- The messages under later numbers. -/
theorem reportsOf_shift (shift lineNo : Nat) (lines : List Text) :
    reportsOf catalog parserNames (lineNo + shift) lines =
      (reportsOf catalog parserNames lineNo lines).map fun report =>
        (shift + report.1, report.2) := by
  rw [reportsOf, reportsOf, Nat.add_comm lineNo, ← List.map_snd_add_zipIdx_eq_zipIdx,
    List.flatMap_map, List.map_flatMap]
  refine List.flatMap_congr fun entry _ => ?_
  rw [List.map_map, Prod.map, Nat.add_comm entry.2]
  rfl

theorem rulesOf_of_skipped {line : Text} (skipped : isSkipped (tokenize line) = true)
    (ordinal : Nat) (lines : List Text) :
    rulesOf catalog parserNames ordinal (line :: lines) =
      rulesOf catalog parserNames ordinal lines := by
  rw [rulesOf, ruleLinesOf, List.filter_cons_of_neg (by simp [skipped])]
  rfl

theorem rulesOf_of_kept {line : Text} (kept : isSkipped (tokenize line) = false)
    (ordinal : Nat) (lines : List Text) :
    rulesOf catalog parserNames ordinal (line :: lines) =
      (lineDraft catalog parserNames line).rule.numbered ordinal ::
        rulesOf catalog parserNames (ordinal + 1) lines := by
  rw [rulesOf, ruleLinesOf, List.filter_cons_of_pos (by simp [kept])]
  rfl

theorem rulesOf_append (ordinal : Nat) (lines later : List Text) :
    rulesOf catalog parserNames ordinal (lines ++ later) =
      rulesOf catalog parserNames ordinal lines ++
        rulesOf catalog parserNames (ordinal + (ruleLinesOf lines).length) later := by
  rw [rulesOf, ruleLinesOf, List.filter_append, List.zipIdx_append, List.map_append]
  rfl

theorem length_rulesOf (ordinal : Nat) (lines : List Text) :
    (rulesOf catalog parserNames ordinal lines).length = (ruleLinesOf lines).length := by
  rw [rulesOf, List.length_map, List.length_zipIdx]

/-- The rules of the lines under later numbers. -/
theorem rulesOf_shift (shift : Nat) (lines : List Text) :
    rulesOf catalog parserNames shift lines =
      (rulesOf catalog parserNames 0 lines).map fun rule =>
        rule.numbered (shift + rule.ruleId) := by
  rw [rulesOf, rulesOf, List.map_map, List.zipIdx_eq_map_add, List.map_map]
  exact List.map_congr_left fun _ _ => rfl

/-- The number of a text that goes on with no digit can be read off it. -/
theorem number_inj {head colon m m' : Text} {n n' : Nat}
    (ends : ∀ rest, Json.Ends (colon ++ rest))
    (same : head ++ Nat.toDigits 10 n ++ colon ++ m = head ++ Nat.toDigits 10 n' ++ colon ++ m') :
    n = n' ∧ m = m' := by
  simp only [List.append_assoc] at same
  have numbers := congrArg Json.readNumber (List.append_cancel_left same)
  rw [Json.readNumber_toDigits _ (ends m), Json.readNumber_toDigits _ (ends m')] at numbers
  obtain ⟨number, rest⟩ := Prod.mk.inj (Option.some.inj numbers)
  exact ⟨number, List.append_cancel_left rest⟩

/-- The number of a line can be read off its errors. -/
theorem errorText_inj {lineNo lineNo' : Nat} {m m' : Text}
    (same : errorText lineNo m = errorText lineNo' m') : lineNo = lineNo' ∧ m = m' := by
  have colon : ": ".toList = [':', ' '] := by simp
  have ends : ∀ rest, Json.Ends (": ".toList ++ rest) := by
    rw [colon]
    exact fun rest => Json.ends_cons (by decide) _
  exact number_inj ends same

/-- A line has an error exactly if it has a message. -/
theorem mem_reportsOf {lines : List Text} {report : Nat × Text} :
    report ∈ reportsOf catalog parserNames 1 lines ↔
      ∃ k line, lines[k]? = some line ∧ report.1 = k + 1 ∧
        report.2 ∈ problems catalog parserNames line := by
  rw [reportsOf, List.mem_flatMap]
  constructor
  · rintro ⟨⟨line, lineNo⟩, inside, member⟩
    obtain ⟨m, among, rfl⟩ := List.mem_map.mp member
    obtain ⟨positive, found⟩ := List.mk_mem_zipIdx_iff_le_and_getElem?_sub.mp inside
    exact ⟨lineNo - 1, line, found, (Nat.sub_add_cancel positive).symm, among⟩
  · rintro ⟨k, line, found, number, among⟩
    refine ⟨(line, k + 1), List.mk_mem_zipIdx_iff_le_and_getElem?_sub.mpr ⟨by omega, found⟩, ?_⟩
    exact List.mem_map.mpr ⟨report.2, among, Prod.ext number.symm rfl⟩

variable (catalog parserNames)

/-- The line loop reports the errors of the lines and, while there are none, keeps
their rules. -/
theorem foldl_compileStep (lines : List Text) (state : CompileState)
    (few : state.lineNo + lines.length < 2 ^ 32) (fewer : state.ordinal + lines.length < 2 ^ 32) :
    (lines.foldl (compileStep catalog parserNames) state).errors =
        state.errors ++ errorsOf catalog parserNames (state.lineNo + 1) lines ∧
      (errorsOf catalog parserNames (state.lineNo + 1) lines = [] →
        (lines.foldl (compileStep catalog parserNames) state).rules =
          state.rules ++ rulesOf catalog parserNames state.ordinal lines) := by
  induction lines generalizing state with
  | nil => exact ⟨(List.append_nil _).symm, fun _ => (List.append_nil _).symm⟩
  | cons line lines inductionHypothesis =>
      rw [List.length_cons] at few fewer
      have lineSmall : (state.lineNo + 1) % 2 ^ 32 = state.lineNo + 1 := Nat.mod_eq_of_lt (by omega)
      have ordinalSmall : (state.ordinal + 1) % 2 ^ 32 = state.ordinal + 1 :=
        Nat.mod_eq_of_lt (by omega)
      rw [List.foldl_cons, errorsOf_cons, List.append_eq_nil_iff, List.map_eq_nil_iff]
      generalize stepped : compileStep catalog parserNames state line = next
      rw [compileStep, lineSmall, ordinalSmall, compileLine_eq] at stepped
      cases skipped : isSkipped (tokenize line) with
      | true =>
          rw [if_pos skipped] at stepped
          subst stepped
          obtain ⟨errors, rules⟩ := inductionHypothesis
            { state with lineNo := state.lineNo + 1 } (by dsimp only; omega) (by dsimp only; omega)
          rw [problems, if_pos skipped]
          refine ⟨errors, fun none => ?_⟩
          rw [rules none.2, rulesOf_of_skipped skipped]
      | false =>
          have kept : ¬isSkipped (tokenize line) = true := by simp [skipped]
          rw [if_neg kept] at stepped
          have counted : next.lineNo = state.lineNo + 1 ∧ next.ordinal = state.ordinal + 1 := by
            rw [← stepped]
            exact ⟨rfl, rfl⟩
          obtain ⟨errors, rules⟩ := inductionHypothesis next (by omega) (by omega)
          rw [counted.1] at errors rules
          rw [problems, if_neg kept]
          refine ⟨?_, fun none => ?_⟩
          · rw [errors, ← stepped, ← List.append_assoc]
            rfl
          · have taken : ((lineDraft catalog parserNames line).place (state.lineNo + 1)
                state.ordinal).ruleOk = true :=
              (lineDraft_ruleOk line).trans (List.isEmpty_iff.mpr none.1)
            rw [rules none.2, counted.2, ← stepped, rulesOf_of_kept skipped]
            dsimp only
            rw [if_pos taken, List.append_assoc]
            rfl

/-- What a text compiles to, by its lines. -/
theorem compileRules_lines (text : Text) (few : (text.splitOn '\n').length < 2 ^ 32) :
    (compileRules text catalog parserNames).errors =
        errorsOf catalog parserNames 1 (text.splitOn '\n') ∧
      (compileRules text catalog parserNames).ok =
        (compileRules text catalog parserNames).errors.isEmpty ∧
      ((compileRules text catalog parserNames).ok = true →
        (compileRules text catalog parserNames).rules =
          rulesOf catalog parserNames 0 (text.splitOn '\n')) := by
  obtain ⟨errors, rules⟩ := foldl_compileStep catalog parserNames
    (text.splitOn '\n') ⟨0, 0, [], []⟩ (by dsimp only; omega) (by dsimp only; omega)
  rw [List.nil_append] at errors
  rw [compileRules, errors]
  cases none : errorsOf catalog parserNames 1 (text.splitOn '\n') with
  | nil => exact ⟨rfl, rfl, fun _ => (rules none).trans (List.nil_append _)⟩
  | cons error others => exact ⟨rfl, rfl, fun taken => absurd taken Bool.false_ne_true⟩

/-- Compiling two texts as one: it fails if either does; the rules of the second
follow those of the first and go on with their numbers, and so do the errors. -/
theorem compileRules_append (first second : Text)
    (few : ((first ++ '\n' :: second).splitOn '\n').length < 2 ^ 32) :
    let one := compileRules first catalog parserNames
    let two := compileRules second catalog parserNames
    let both := compileRules (first ++ '\n' :: second) catalog parserNames
    both.ok = (one.ok && two.ok) ∧
      (both.ok = true → both.rules = one.rules ++
        two.rules.map fun rule => rule.numbered (one.rules.length + rule.ruleId)) ∧
      ∃ reports : List (Nat × Text),
        two.errors = reports.map (fun report => errorText report.1 report.2) ∧
          both.errors = one.errors ++ reports.map fun report =>
            errorText ((first.splitOn '\n').length + report.1) report.2 := by
  have lines : (first ++ '\n' :: second).splitOn '\n' =
      first.splitOn '\n' ++ second.splitOn '\n' := List.splitOn_append_cons_self _ _
  have total := congrArg List.length lines
  rw [List.length_append] at total
  obtain ⟨errorsOne, okOne, rulesOne⟩ := compileRules_lines catalog parserNames first (by omega)
  obtain ⟨errorsTwo, okTwo, rulesTwo⟩ := compileRules_lines catalog parserNames second (by omega)
  obtain ⟨errors, ok, rules⟩ := compileRules_lines catalog parserNames _ few
  have shifted := reportsOf_shift catalog parserNames
    (first.splitOn '\n').length 1 (second.splitOn '\n')
  have appended : (compileRules (first ++ '\n' :: second) catalog parserNames).errors =
      (compileRules first catalog parserNames).errors ++
        (reportsOf catalog parserNames 1 (second.splitOn '\n')).map fun report =>
          errorText ((first.splitOn '\n').length + report.1) report.2 := by
    rw [errors, errorsOne, lines, errorsOf_append, errorsOf, errorsOf, shifted, List.map_map]
    rfl
  have both : (compileRules (first ++ '\n' :: second) catalog parserNames).ok =
      ((compileRules first catalog parserNames).ok &&
        (compileRules second catalog parserNames).ok) := by
    rw [ok, okOne, okTwo, appended, errorsTwo, errorsOf, Bool.eq_iff_iff, Bool.and_eq_true_iff]
    simp only [List.isEmpty_iff, List.append_eq_nil_iff, List.map_eq_nil_iff]
  refine ⟨both, fun taken => ?_, _, errorsTwo, appended⟩
  have each := Bool.and_eq_true_iff.mp (both.symm.trans taken)
  rw [rules taken, rulesOne each.1, rulesTwo each.2, lines, rulesOf_append, Nat.zero_add,
    length_rulesOf]
  exact congrArg _ (rulesOf_shift _ _)

/-- Three rules in two texts are numbered through, and two errors on the second line
of a text are found on the fourth of both. -/
theorem compileRules_append_numbered :
    (compileRules ("ipv4.ttl == 1 => raw udp_payload\n\n".toList ++ '\n' ::
        "tcp.dst_port > 80 => raw tcp_payload\nudp.length < 9 => raw udp_payload".toList)
        buildL2l3Catalog ["raw".toList]).rules.map Rule.ruleId = [0, 1, 2] ∧
      (compileRules ("?\n#".toList ++ '\n' :: "#\n?".toList) buildL2l3Catalog []).ok = false ∧
        ∃ reports : List (Nat × Text), reports.length = 2 ∧
          (compileRules "#\n?".toList buildL2l3Catalog []).errors =
            reports.map (fun report => errorText report.1 report.2) ∧
          (compileRules ("?\n#".toList ++ '\n' :: "#\n?".toList) buildL2l3Catalog []).errors =
            (compileRules "?\n#".toList buildL2l3Catalog []).errors ++
              reports.map fun report => errorText (2 + report.1) report.2 := by
  obtain ⟨ok, rules, -⟩ := compileRules_append buildL2l3Catalog ["raw".toList]
    "ipv4.ttl == 1 => raw udp_payload\n\n".toList
    "tcp.dst_port > 80 => raw tcp_payload\nudp.length < 9 => raw udp_payload".toList
    (by decide +kernel)
  obtain ⟨failed, -, reports, listed, errors⟩ := compileRules_append buildL2l3Catalog []
    "?\n#".toList "#\n?".toList (by decide +kernel)
  refine ⟨?_, failed.trans (by decide +kernel), reports, ?_, listed, errors.trans ?_⟩
  · have numbered := congrArg (List.map Rule.ruleId) (rules (ok.trans (by decide +kernel)))
    exact numbered.trans (by decide +kernel)
  · have counted := congrArg List.length listed
    rw [List.length_map] at counted
    exact counted.symm.trans (by decide +kernel)
  · have lines : ("?\n#".toList.splitOn '\n').length = 2 := by decide +kernel
    rw [lines]

/-- The errors tell the lines that are not accepted: each error names a line of the
text, and a line is named by an error exactly if it is a rule line that does not
stand for a rule. -/
theorem compileRules_reports (text : Text) (few : (text.splitOn '\n').length < 2 ^ 32) :
    (∀ error ∈ (compileRules text catalog parserNames).errors,
        ∃ k < (text.splitOn '\n').length, ∃ m, error = errorText (k + 1) m) ∧
      ∀ (k : Nat) (line : Text), (text.splitOn '\n')[k]? = some line →
        ((∃ m, errorText (k + 1) m ∈ (compileRules text catalog parserNames).errors) ↔
          isSkipped (tokenize line) = false ∧
            ¬∃ rule, AcceptedLine catalog parserNames 0 (tokenize line) rule) := by
  rw [(compileRules_lines catalog parserNames text few).1, errorsOf]
  generalize text.splitOn '\n' = lines
  constructor
  · intro error member
    obtain ⟨report, among, rfl⟩ := List.mem_map.mp member
    obtain ⟨k, line, found, number, -⟩ := mem_reportsOf.mp among
    refine ⟨k, (List.getElem?_eq_some_iff.mp found).1, report.2, ?_⟩
    rw [number]
  · intro k line found
    have accepted := not_congr (problems_eq_nil_iff catalog parserNames line 0)
    rw [not_or, Bool.not_eq_true] at accepted
    rw [← accepted]
    constructor
    · rintro ⟨m, member⟩
      obtain ⟨report, among, same⟩ := List.mem_map.mp member
      obtain ⟨k', line', found', number, problem⟩ := mem_reportsOf.mp among
      have place := (errorText_inj same).1
      obtain rfl : k' = k := by omega
      obtain rfl : line' = line := Option.some.inj (found'.symm.trans found)
      exact List.ne_nil_of_mem problem
    · intro some
      obtain ⟨m, problem⟩ := List.exists_mem_of_ne_nil _ some
      have reported : (k + 1, m) ∈ reportsOf catalog parserNames 1 lines :=
        mem_reportsOf.mpr ⟨k, line, found, rfl, problem⟩
      exact ⟨m, List.mem_map.mpr ⟨(k + 1, m), reported, rfl⟩⟩

/-- The second line of two is named by an error. -/
theorem compileRules_reports_second :
    (∃ m, errorText 2 m ∈ (compileRules "#\n?".toList buildL2l3Catalog []).errors) ↔
      isSkipped (tokenize "?".toList) = false ∧
        ¬∃ rule, AcceptedLine buildL2l3Catalog [] 0 (tokenize "?".toList) rule :=
  (compileRules_reports buildL2l3Catalog [] ['#', '\n', '?'] (by decide)).2 1 ['?'] (by decide)

end Texts

end Nanotins.Dpar
