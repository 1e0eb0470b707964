import Nanotins.Dpar.Grammar
import Nanotins.Dpar.Operands
import Nanotins.Library.Spacing

/-!
Contract: rules that are printed as text compile to themselves.

Owns: abstract rules, the texts that print them, and that compiling such a text
gives exactly these rules (`compileRules_printed`).

Does not own: texts that no rules print.
-/

namespace Nanotins.Dpar

open Nanotins.Library Nanotins.SpecDag

/-! ### Abstract rules -/

structure AbstractPredicate where
  entry : CatalogEntry
  op : CmpOp
  operand : Nat
  catalogued : entry ∈ buildL2l3Catalog
  fits : operand < 2 ^ entry.ref.bits

/-- The printable characters other than space and double quote. -/
def labelChar (c : Char) : Bool := decide (33 ≤ c.toNat ∧ c.toNat ≤ 126) && c != quote

structure AbstractRule (parserNames : List Text) where
  preds : List AbstractPredicate
  nonempty : preds ≠ []
  few : preds.length ≤ kMaxPredicates
  parser : Fin parserNames.length
  region : RegionKind
  label : Option Text
  label_ok : ∀ text ∈ label, text ≠ [] ∧ text.length < kRuleNameLen ∧ ∀ c ∈ text, labelChar c = true

/-- The rule that compiling the `i`-th rule shall give. -/
def AbstractRule.compiled {parserNames : List Text} (rule : AbstractRule parserNames) (i : Nat) :
    Rule where
  preds := rule.preds.map fun pr => ⟨pr.entry.ref, pr.op, pr.operand⟩
  parserKind := rule.parser % 2 ^ 16
  region := ⟨rule.region, nodeId rule.region.anchor⟩
  ruleId := i % 2 ^ 32
  priority := i % 2 ^ 16
  name := rule.label.getD []

/-! ### Printing -/

/-- Decimal without leading zeros, or 0x-hex. -/
inductive PrintedNumeral : Text → Nat → Prop where
  | zero : PrintedNumeral ['0'] 0
  | decimal {first : Char} {digits : Text} (nonzero : first ≠ '0')
      (all : AllDigits 10 (first :: digits)) :
      PrintedNumeral (first :: digits) (digitsValue 10 (first :: digits))
  | hex {digits : Text} (nonempty : digits ≠ []) (all : AllDigits 16 digits) :
      PrintedNumeral ('0' :: 'x' :: digits) (digitsValue 16 digits)

def opText : CmpOp → Text
  | .eq => "==".toList
  | .lt => "<".toList
  | .gt => ">".toList
  | .le => "<=".toList
  | .ge => ">=".toList

def regionText : RegionKind → Text
  | .ethPayload => "eth_payload".toList
  | .vlanPayload => "vlan_payload".toList
  | .udpPayload => "udp_payload".toList
  | .tcpPayload => "tcp_payload".toList
  | .someipPayload => "someip_payload".toList

/-- The tokens of predicates, with `&&` between. -/
inductive PrintedPredicates : List AbstractPredicate → List Text → Prop where
  | last {pr : AbstractPredicate} {numeral : Text} (printed : PrintedNumeral numeral pr.operand) :
      PrintedPredicates [pr] [fieldText pr.entry, opText pr.op, numeral]
  | more {pr : AbstractPredicate} {numeral : Text} {preds : List AbstractPredicate}
      {tokens : List Text} (printed : PrintedNumeral numeral pr.operand)
      (later : PrintedPredicates preds tokens) :
      PrintedPredicates (pr :: preds)
        (fieldText pr.entry :: opText pr.op :: numeral :: "&&".toList :: tokens)

/-- The token of a label, with or without quotes. -/
inductive PrintedLabel : Option Text → List Text → Prop where
  | absent : PrintedLabel none []
  | bare {label : Text} : PrintedLabel (some label) [label]
  | quoted {label : Text} : PrintedLabel (some label) [quote :: (label ++ [quote])]

/-- The line holds the rule's tokens; spaces, tabs and carriage returns stand
between them, and may stand before and behind. -/
inductive PrintedRule {parserNames : List Text} (rule : AbstractRule parserNames) (line : Text) :
    Prop where
  | tokens {predicates label : List Text} (preds : PrintedPredicates rule.preds predicates)
      (named : PrintedLabel rule.label label)
      (spaced : Spaced isBlank
        (predicates ++ "=>".toList :: parserNames.get rule.parser :: regionText rule.region :: label)
        line) : PrintedRule rule line

/-- A line of blanks, or with a `#` behind its blanks. -/
inductive SkippedLine : Text → Prop where
  | blank {gap : Text} (blanks : ∀ c ∈ gap, isBlank c = true) : SkippedLine gap
  | comment {gap rest : Text} (blanks : ∀ c ∈ gap, isBlank c = true) (oneLine : '\n' ∉ rest) :
      SkippedLine (gap ++ '#' :: rest)

/-- The lines print the rules in order, with skipped lines anywhere. -/
inductive PrintedLines {parserNames : List Text} :
    List (AbstractRule parserNames) → List Text → Prop where
  | nil : PrintedLines [] []
  | skip {rules : List (AbstractRule parserNames)} {line : Text} {lines : List Text}
      (skipped : SkippedLine line) (later : PrintedLines rules lines) :
      PrintedLines rules (line :: lines)
  | rule {rule : AbstractRule parserNames} {rules : List (AbstractRule parserNames)} {line : Text}
      {lines : List Text} (printed : PrintedRule rule line) (later : PrintedLines rules lines) :
      PrintedLines (rule :: rules) (line :: lines)

/-! ### Tokens -/

section Tokens

variable {parserNames : List Text} {tokens rest : List Text}

theorem PrintedNumeral.numeral {text : Text} {value : Nat} (printed : PrintedNumeral text value) :
    Numeral text value := by
  cases printed with
  | zero => exact .octal (List.forall_mem_nil _)
  | decimal nonzero all => exact .decimal nonzero all
  | hex nonempty all => exact .hex (.inl rfl) nonempty all

theorem parseOp_opText (op : CmpOp) : parseOp (opText op) = some op := by
  cases op <;> decide

theorem parseRegion_regionText (rk : RegionKind) :
    ∃ anchor, parseRegion (regionText rk) = some (rk, anchor) ∧
      anchorNodeId buildL2l3Catalog anchor = some (nodeId rk.anchor) := by
  cases rk with
  | ethPayload => exact ⟨"eth", by decide, by decide +kernel⟩
  | vlanPayload => exact ⟨"vlan", by decide, by decide +kernel⟩
  | udpPayload => exact ⟨"udp", by decide, by decide +kernel⟩
  | tcpPayload => exact ⟨"tcp", by decide, by decide +kernel⟩
  | someipPayload => exact ⟨"someip", by decide, by decide +kernel⟩

theorem acceptedPredicate_of_printed {pr : AbstractPredicate} {numeral : Text}
    (printed : PrintedNumeral numeral pr.operand) :
    AcceptedPredicate buildL2l3Catalog (fieldText pr.entry) (opText pr.op) numeral
      ⟨pr.entry.ref, pr.op, pr.operand⟩ where
  field := ⟨_, _, pr.entry, splitDot_fieldText pr.catalogued, findField_of_mem pr.catalogued, rfl⟩
  op := parseOp_opText pr.op
  operand := by
    have bound : 2 ^ pr.entry.ref.bits ≤ 2 ^ 64 :=
      Nat.pow_le_pow_right (by decide) (bits_le_of_mem_catalog pr.catalogued)
    have fits := pr.fits
    rw [parseU64_numeral printed.numeral, if_neg (by omega)]
  fits := fun _ => pr.fits

/-- Printed predicates are accepted up to a token that is not `&&`. -/
theorem acceptedPredicates_of_printed {preds : List AbstractPredicate}
    (printed : PrintedPredicates preds tokens) (ends : rest.head? ≠ some "&&".toList) :
    AcceptedPredicates buildL2l3Catalog (tokens ++ rest) rest
      (preds.map fun pr => ⟨pr.entry.ref, pr.op, pr.operand⟩) := by
  induction printed with
  | last printed => exact .last (acceptedPredicate_of_printed printed) ends
  | more printed _ inductionHypothesis =>
      exact .more (acceptedPredicate_of_printed printed) inductionHypothesis

theorem stripQuotes_quoted (label : Text) : stripQuotes (quote :: (label ++ [quote])) = label := by
  have last : (quote :: (label ++ [quote])).getLast? = some quote := by
    rw [← List.cons_append, List.getLast?_append_cons]
    rfl
  rw [stripQuotes, if_pos ⟨by simp, rfl, last⟩, List.tail_cons, List.dropLast_concat]

theorem stripQuotes_of_not_mem {label : Text} (unquoted : quote ∉ label) :
    stripQuotes label = label := by
  rw [stripQuotes, if_neg]
  rintro ⟨-, first, -⟩
  exact unquoted (List.mem_of_head? first)

/-- The label is the rule's name. -/
theorem labelName_of_printed {label : Option Text} (printed : PrintedLabel label tokens)
    (ok : ∀ text ∈ label, text ≠ [] ∧ text.length < kRuleNameLen ∧ ∀ c ∈ text, labelChar c = true) :
    labelName tokens = label.getD [] := by
  have whole : ∀ text ∈ label, quote ∉ text ∧
      (cStr text).take (kRuleNameLen - 1) = text := by
    intro text member
    rcases ok text member with ⟨-, short, printable⟩
    have unquoted : quote ∉ text := fun inside => absurd (printable quote inside) (by decide)
    have plain : cStr text = text := by
      apply List.takeWhile_eq_self_iff.mpr
      intro c inside
      by_contra nul
      obtain rfl : c = Char.ofNat 0 := by simpa using nul
      exact absurd (printable _ inside) (by decide)
    rw [plain]
    exact ⟨unquoted, List.take_of_length_le (Nat.le_sub_one_of_lt short)⟩
  cases printed with
  | absent => rfl
  | @bare label =>
      rcases whole label rfl with ⟨unquoted, same⟩
      rw [labelName, stripQuotes_of_not_mem unquoted]
      exact same
  | @quoted label =>
      rw [labelName, stripQuotes_quoted]
      exact (whole label rfl).2

/-- A name of the palette is found at its own index. -/
theorem findIdx?_get (distinct : parserNames.Nodup) (k : Fin parserNames.length) :
    parserNames.findIdx? (· == parserNames.get k) = some k.val := by
  rw [List.findIdx?_eq_some_iff_getElem]
  refine ⟨k.isLt, by simp, fun j before same => ?_⟩
  have index := (List.Nodup.getElem_inj_iff distinct).mp (eq_of_beq same)
  omega

end Tokens

/-! ### Lines -/

section Lines

variable {parserNames : List Text} {rule : AbstractRule parserNames} {line : Text}

/-- A printed line starts with the text of a field. -/
theorem PrintedPredicates.head {preds : List AbstractPredicate} {tokens : List Text}
    (printed : PrintedPredicates preds tokens) :
    ∃ (pr : AbstractPredicate) (later : List Text), tokens = fieldText pr.entry :: later := by
  cases printed with
  | last printed => exact ⟨_, _, rfl⟩
  | more printed later => exact ⟨_, _, rfl⟩

theorem head?_fieldText {e : CatalogEntry} (catalogued : e ∈ buildL2l3Catalog) :
    (fieldText e).head? ≠ some '#' := by
  intro hash
  rcases mem_fieldText catalogued '#' (List.mem_of_head? hash) with name | dot
  · contradiction
  · contradiction

/-- A printed line is accepted as its rule. -/
theorem PrintedRule.accepted (printed : PrintedRule rule line) (distinct : parserNames.Nodup)
    (i : Nat) :
    isSkipped (tokenize line) = false ∧
      AcceptedLine buildL2l3Catalog parserNames (i % 2 ^ 32) (tokenize line) (rule.compiled i) := by
  rcases printed with @⟨predicates, label, preds, named, spaced⟩
  rw [tokenize, tokenizeBy_of_spaced spaced]
  constructor
  · rcases preds.head with ⟨pr, later, rfl⟩
    have first := head?_fieldText pr.catalogued
    rw [List.cons_append, isSkipped]
    simpa using first
  · rcases parseRegion_regionText rule.region with ⟨anchor, parsed, anchored⟩
    have few : (rule.preds.map fun pr => (⟨pr.entry.ref, pr.op, pr.operand⟩ : Predicate)).length ≤
        kMaxPredicates := by
      rw [List.length_map]
      exact rule.few
    have id : nodeId rule.region.anchor % 2 ^ 16 = nodeId rule.region.anchor :=
      Nat.mod_eq_of_lt (Nat.lt_trans (nodeId_lt _) (by decide))
    have priority : i % 2 ^ 32 % 2 ^ 16 = i % 2 ^ 16 := Nat.mod_mod_of_dvd i (by decide)
    have compiled : rule.compiled i =
        { preds := rule.preds.map fun pr => ⟨pr.entry.ref, pr.op, pr.operand⟩
          parserKind := rule.parser % 2 ^ 16
          region := ⟨rule.region, nodeId rule.region.anchor % 2 ^ 16⟩
          ruleId := i % 2 ^ 32
          priority := i % 2 ^ 32 % 2 ^ 16
          name := labelName label } := by
      rw [labelName_of_printed named rule.label_ok, id, priority]
      rfl
    rw [compiled]
    exact .rule (acceptedPredicates_of_printed preds (by simp)) few (findIdx?_get distinct rule.parser)
      parsed anchored

/-- The tokens of predicates hold no line end. -/
theorem PrintedPredicates.oneLine {preds : List AbstractPredicate} {tokens : List Text}
    (printed : PrintedPredicates preds tokens) : ∀ token ∈ tokens, '\n' ∉ token := by
  have field : ∀ pr : AbstractPredicate, '\n' ∉ fieldText pr.entry := by
    intro pr member
    rcases mem_fieldText pr.catalogued _ member with name | dot
    · contradiction
    · contradiction
  have op : ∀ op : CmpOp, '\n' ∉ opText op := by
    intro op
    cases op <;> decide
  have numeral : ∀ {text : Text} {value : Nat}, PrintedNumeral text value → '\n' ∉ text :=
    fun printed member => absurd (printed.numeral.le_toNat _ member) (by decide)
  induction printed with
  | @last pr text printed => simp [field pr, op pr.op, numeral printed]
  | @more pr text preds tokens printed _ inductionHypothesis =>
      simp only [List.forall_mem_cons]
      exact ⟨field pr, op pr.op, numeral printed, by decide, inductionHypothesis⟩

theorem PrintedLabel.oneLine {label : Option Text} {tokens : List Text}
    (printed : PrintedLabel label tokens)
    (ok : ∀ text ∈ label, text ≠ [] ∧ text.length < kRuleNameLen ∧ ∀ c ∈ text, labelChar c = true) :
    ∀ token ∈ tokens, '\n' ∉ token := by
  have inside : ∀ text ∈ label, '\n' ∉ text :=
    fun text same member => absurd ((ok text same).2.2 _ member) (by decide)
  cases printed with
  | absent => exact List.forall_mem_nil _
  | bare => exact List.forall_mem_singleton.mpr (inside _ rfl)
  | @quoted label =>
      have unquoted : ¬ '\n' = quote := by decide
      simp [inside label rfl, unquoted]

/-- A printed line is one line. -/
theorem PrintedRule.oneLine (printed : PrintedRule rule line)
    (names : ∀ name ∈ parserNames, '\n' ∉ name) : '\n' ∉ line := by
  rcases printed with @⟨predicates, label, preds, named, spaced⟩
  intro member
  rcases spaced.mem '\n' member with blank | ⟨token, inTokens, inside⟩
  · contradiction
  · rcases List.mem_append.mp inTokens with predicate | action
    · exact preds.oneLine token predicate inside
    · simp only [List.mem_cons] at action
      rcases action with rfl | rfl | rfl | inLabel
      · exact absurd inside (by decide)
      · exact names _ (List.get_mem _ _) inside
      · revert inside
        cases rule.region <;> decide
      · exact named.oneLine rule.label_ok token inLabel inside

theorem SkippedLine.skipped (skipped : SkippedLine line) : isSkipped (tokenize line) = true := by
  cases skipped with
  | blank blanks =>
      rw [tokenize, tokenizeBy_of_spaced (.gap blanks)]
      rfl
  | @comment gap rest blanks _ =>
      have solid : isBlank '#' = false := by decide
      have dropped : (gap ++ '#' :: rest).dropWhile isBlank = '#' :: rest := by
        rw [List.dropWhile_append_of_pos blanks]
        rfl
      rw [tokenize, tokenizeBy, dropped, List.takeWhile_cons_of_pos (by simp [solid]),
        if_neg (List.cons_ne_nil _ _)]
      rfl

theorem SkippedLine.oneLine (skipped : SkippedLine line) : '\n' ∉ line := by
  have gap : ∀ {gap : Text}, (∀ c ∈ gap, isBlank c = true) → '\n' ∉ gap :=
    fun blanks member => absurd (blanks _ member) (by decide)
  cases skipped with
  | blank blanks => exact gap blanks
  | comment blanks oneLine => simp [gap blanks, oneLine]

end Lines

/-! ### Texts -/

section Text

variable {parserNames : List Text} {rules : List (AbstractRule parserNames)} {lines : List Text}

/-- Printed lines are accepted as the rules that they print. -/
theorem PrintedLines.accepted (printed : PrintedLines rules lines) (distinct : parserNames.Nodup)
    (i : Nat) :
    AcceptedLines buildL2l3Catalog parserNames (i % 2 ^ 32) lines
      (rules.mapIdx fun k rule => rule.compiled (i + k)) := by
  induction printed generalizing i with
  | nil => exact .nil
  | skip skipped _ inductionHypothesis => exact .skip skipped.skipped (inductionHypothesis i)
  | rule printed _ inductionHypothesis =>
      rcases printed.accepted distinct i with ⟨kept, accepted⟩
      have later := inductionHypothesis (i + 1)
      rw [List.mapIdx_cons]
      refine .rule kept accepted ?_
      rw [Nat.mod_add_mod]
      simpa only [Nat.add_assoc, Nat.add_comm 1] using later

theorem PrintedLines.oneLine (printed : PrintedLines rules lines)
    (names : ∀ name ∈ parserNames, '\n' ∉ name) : ∀ line ∈ lines, '\n' ∉ line := by
  induction printed with
  | nil => exact List.forall_mem_nil _
  | skip skipped _ inductionHypothesis =>
      exact List.forall_mem_cons.mpr ⟨skipped.oneLine, inductionHypothesis⟩
  | rule printed _ inductionHypothesis =>
      exact List.forall_mem_cons.mpr ⟨printed.oneLine names, inductionHypothesis⟩

/-- A text that prints rules, with blank and comment lines anywhere, compiles
without error to exactly these rules, in order. -/
theorem compileRules_printed (distinct : parserNames.Nodup)
    (names : ∀ name ∈ parserNames, '\n' ∉ name) (printed : PrintedLines rules lines) :
    compileRules (['\n'].intercalate lines) buildL2l3Catalog parserNames =
      ⟨true, rules.mapIdx fun i rule => rule.compiled i, []⟩ := by
  rw [compileRules_eq_iff]
  have accepted := printed.accepted distinct 0
  simp only [Nat.zero_add, Nat.zero_mod] at accepted
  by_cases none : lines = []
  · subst none
    cases printed
    exact .skip (SkippedLine.skipped (.blank (List.forall_mem_nil _))) .nil
  · rw [List.splitOn_intercalate '\n' (printed.oneLine names) none]
    exact accepted

/-- `udp.dst_port == 9999`. -/
def udpPredicate : AbstractPredicate where
  entry := ⟨"udp", "dst_port", ⟨5, 2, 2, true, false, 0, 0⟩⟩
  op := .eq
  operand := 9999
  catalogued := by decide +kernel
  fits := by decide

def udpRule : AbstractRule ["someip_tlv".toList, "raw_tlv".toList] where
  preds := [udpPredicate]
  nonempty := List.cons_ne_nil _ _
  few := by decide
  parser := 1
  region := .udpPayload
  label := some "sd".toList
  label_ok := by
    intro text member
    rw [← Option.some.inj member]
    exact ⟨by decide, by decide,
      List.all_eq_true.mp (by decide : "sd".toList.all labelChar = true)⟩

/-- The rule, quoted and with a carriage return, behind a comment. -/
theorem compileRules_printed_udpRule :
    compileRules (['\n'].intercalate ["# sd".toList,
        "udp.dst_port ==\t0x270F => raw_tlv  udp_payload \"sd\"\r".toList])
      buildL2l3Catalog ["someip_tlv".toList, "raw_tlv".toList] =
        ⟨true, [udpRule.compiled 0], []⟩ := by
  have numeral : PrintedNumeral "0x270F".toList 9999 :=
    .hex (by decide)
      (List.all_eq_true.mp (by decide : "270F".toList.all (fun c => (digitIn 16 c).isSome) = true))
  have preds : PrintedPredicates [udpPredicate]
      ["udp.dst_port".toList, "==".toList, "0x270F".toList] := .last numeral
  have spaced : Spaced isBlank
      ["udp.dst_port".toList, "==".toList, "0x270F".toList, "=>".toList, "raw_tlv".toList,
        "udp_payload".toList, quote :: ("sd".toList ++ [quote])]
      "udp.dst_port ==\t0x270F => raw_tlv  udp_payload \"sd\"\r".toList := by
    rw [← tokenizeBy_eq_iff]
    decide +kernel
  have line : PrintedRule udpRule
      "udp.dst_port ==\t0x270F => raw_tlv  udp_payload \"sd\"\r".toList :=
    .tokens preds .quoted spaced
  have comment : SkippedLine ([] ++ '#' :: " sd".toList) :=
    .comment (List.forall_mem_nil _) (by decide)
  exact compileRules_printed (by decide) (by decide) (.skip comment (.rule line .nil))

end Text

end Nanotins.Dpar
