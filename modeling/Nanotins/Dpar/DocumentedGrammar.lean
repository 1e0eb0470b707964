import Nanotins.Dpar.Grammar
import Nanotins.Dpar.Operands
import Nanotins.Dpar.RoundTrip
import Nanotins.Library.Spacing

/-!
Contract: which accepted lines are those of the documented grammar.

Owns: the lines that the comment on `compile_rules` documents, the lines of plain
tokens with one label at most, and that an accepted text is documented exactly
when all its lines are such (`compileRules_documented_iff`).

Does not own: what a numeral is read as.
-/

namespace Nanotins.Dpar

open Nanotins.Library

/-! ### Documented lines -/

/-- `<node>.<field> <op> <value>`; what the numeral is read as is left open. -/
structure DocumentedPredicate (lhs ops vals : Text) (pr : Predicate) : Prop where
  field : ∃ e ∈ buildL2l3Catalog, lhs = fieldText e ∧ pr.field = e.ref
  op : parseOp ops = some pr.op
  numeral : ∃ value, DocumentedNumeral vals value

/-- Predicates with `&&` between. -/
inductive DocumentedPredicates : List Text → List Predicate → Prop where
  | last {lhs ops vals : Text} {pr : Predicate}
      (documented : DocumentedPredicate lhs ops vals pr) :
      DocumentedPredicates [lhs, ops, vals] [pr]
  | more {lhs ops vals : Text} {pr : Predicate} {tokens : List Text} {preds : List Predicate}
      (documented : DocumentedPredicate lhs ops vals pr)
      (later : DocumentedPredicates tokens preds) :
      DocumentedPredicates (lhs :: ops :: vals :: "&&".toList :: tokens) (pr :: preds)

/-- The characters that neither `c_str()` nor `strtoull` treats specially. -/
def plainChar (c : Char) : Bool :=
  !isSpace c && c != nul && c != '+' && c != '-' && c != 'X'

def PlainToken (token : Text) : Prop := ∀ c ∈ token, plainChar c = true

section Predicate

variable {lhs ops vals : Text} {pr : Predicate}

theorem plainToken_of_all {token : Text} (all : token.all plainChar = true) : PlainToken token :=
  List.all_eq_true.mp all

theorem plainToken_of_op {op : CmpOp} (parsed : parseOp ops = some op) :
    PlainToken ops ∧ ops ≠ "=>".toList := by
  rw [parseOp] at parsed
  split_ifs at parsed with eq lt gt le ge
  · rw [eq]
    exact ⟨plainToken_of_all (by decide : "==".toList.all plainChar = true), by decide⟩
  · rw [lt]
    exact ⟨plainToken_of_all (by decide : "<".toList.all plainChar = true), by decide⟩
  · rw [gt]
    exact ⟨plainToken_of_all (by decide : ">".toList.all plainChar = true), by decide⟩
  · rw [le]
    exact ⟨plainToken_of_all (by decide : "<=".toList.all plainChar = true), by decide⟩
  · rw [ge]
    exact ⟨plainToken_of_all (by decide : ">=".toList.all plainChar = true), by decide⟩

/-- The plain characters are the bare ones, but for the mark of `0X`. -/
theorem plainChar_iff {c : Char} : plainChar c = true ↔ Bare c ∧ c ≠ 'X' := by
  constructor
  · intro plain
    simp only [plainChar, Bool.and_eq_true, Bool.not_eq_true', bne_iff_ne] at plain
    rcases plain with ⟨⟨⟨⟨unspaced, noNul⟩, noPlus⟩, noMinus⟩, unmarked⟩
    exact ⟨⟨unspaced, noPlus, noMinus, noNul⟩, unmarked⟩
  · rintro ⟨bare, unmarked⟩
    simp [plainChar, bare.unspaced, bare.ne_plus, bare.ne_minus, bare.ne_nul, unmarked]

theorem plainChar_of_nameChar {c : Char} (name : nameChar c = true) : plainChar c = true := by
  have unmarked : c ≠ 'X' := by
    rintro rfl
    contradiction
  refine plainChar_iff.mpr ⟨bare_of_le ?_, unmarked⟩
  rw [nameChar, Bool.or_eq_true, Bool.or_eq_true] at name
  rcases name with (letter | digit) | underscore
  · have := UInt32.le_iff_toNat_le.mp (Char.le_def.mp (of_decide_eq_true letter).1)
    change 97 ≤ c.toNat at this
    omega
  · have := UInt32.le_iff_toNat_le.mp (Char.le_def.mp (of_decide_eq_true digit).1)
    exact this
  · rw [eq_of_beq underscore]
    decide

theorem plainToken_fieldText {e : CatalogEntry} (catalogued : e ∈ buildL2l3Catalog) :
    PlainToken (fieldText e) := by
  intro c member
  rcases mem_fieldText catalogued c member with name | rfl
  · exact plainChar_of_nameChar name
  · decide

theorem PlainToken.ne_nul {token : Text} (plain : PlainToken token) : ∀ c ∈ token, c ≠ nul := by
  intro c member
  exact (plainChar_iff.mp (plain c member)).1.ne_nul

/-- A split text is put together with a dot. -/
theorem eq_of_splitDot {node field : Text} (split : splitDot lhs = some (node, field)) :
    lhs = node ++ '.' :: field := by
  rw [splitDot] at split
  split at split
  · next dotted =>
    cases split
    have found : ∃ rest, lhs.dropWhile (· ≠ '.') = '.' :: rest := by
      cases same : lhs.dropWhile (· ≠ '.') with
      | nil =>
          have all := List.dropWhile_eq_nil_iff.mp same '.' dotted
          simp at all
      | cons c rest =>
          have stops := List.head?_dropWhile_not (fun c => decide (c ≠ '.')) lhs
          rw [same] at stops
          have dot : c = '.' := by simpa using stops
          exact ⟨rest, by rw [dot]⟩
    rcases found with ⟨rest, same⟩
    have whole := List.takeWhile_append_dropWhile (p := fun c => decide (c ≠ '.')) (l := lhs)
    rw [same] at whole ⊢
    exact whole.symm
  · contradiction

/-- The text of an accepted field is plain exactly when it is a catalogued name. -/
theorem field_documented_iff (accepted : AcceptedPredicate buildL2l3Catalog lhs ops vals pr) :
    PlainToken lhs ↔ ∃ e ∈ buildL2l3Catalog, lhs = fieldText e ∧ pr.field = e.ref := by
  constructor
  · intro plain
    rcases accepted.field with ⟨node, field, e, split, found, same⟩
    have whole := eq_of_splitDot split
    have named := List.find?_some found
    have member := List.mem_of_find?_eq_some found
    have noNul : ∀ text : Text, (∀ c ∈ text, c ∈ lhs) → cStr text = text := by
      intro text inside
      have plainText : cStr (text ++ []) = text :=
        cStr_append (fun c member => plain.ne_nul c (inside c member)) cutOff_nil
      rwa [List.append_nil] at plainText
    rw [Bool.and_eq_true, beq_iff_eq, beq_iff_eq,
      noNul node (fun c inside => by rw [whole]; simp [inside]),
      noNul field (fun c inside => by rw [whole]; simp [inside])] at named
    refine ⟨e, member, ?_, same⟩
    rw [whole, fieldText, named.1, named.2]
  · rintro ⟨e, catalogued, rfl, -⟩
    exact plainToken_fieldText catalogued

/-- A plain spelling is a numeral alone. -/
theorem spelling_of_plain {spelling : Spelling} {tail : Text} (cut : CutOff tail)
    (plain : PlainToken (spelling.text ++ tail)) :
    spelling.text ++ tail = spelling.body ∧ 'X' ∉ spelling.body := by
  have bare : ∀ c ∈ spelling.text ++ tail, Bare c := fun c member =>
    (plainChar_iff.mp (plain c member)).1
  rcases spelling_of_bare cut bare with ⟨space, sign, rfl⟩
  have alone : spelling.text ++ [] = spelling.body := by
    rw [Spelling.text, space, sign, List.append_nil]
    rfl
  refine ⟨alone, fun member => ?_⟩
  rw [alone] at plain
  exact absurd (plain 'X' member) (by decide)

/-- A numeral of C is written in documented digits, unless it is marked by `0X`. -/
theorem exists_documented {text : Text} {value : Nat} (numeral : Numeral text value)
    (unmarked : 'X' ∉ text) : ∃ value, DocumentedNumeral text value := by
  cases numeral with
  | decimal nonzero all => exact ⟨_, .decimal (List.cons_ne_nil _ _) all⟩
  | octal octal =>
      have zero : (digitIn 10 '0').isSome = true := by decide
      have all := AllDigits.cons_iff.mpr ⟨zero, octal.mono (by decide : 8 ≤ 10)⟩
      exact ⟨_, .decimal (List.cons_ne_nil _ _) all⟩
  | hex marked nonempty all =>
      rcases marked with rfl | rfl
      · exact ⟨_, .hex nonempty all⟩
      · simp at unmarked

/-- An accepted operand is plain exactly when it is a documented numeral. -/
theorem numeral_documented_iff (accepted : (parseU64 vals).1 = true) :
    PlainToken vals ↔ ∃ value, DocumentedNumeral vals value := by
  constructor
  · intro plain
    rcases parseU64_cases accepted with ⟨junk, rfl⟩ | ⟨spelling, tail, cut, rfl⟩
    · exact absurd rfl (plain.ne_nul nul List.mem_cons_self)
    · rcases spelling_of_plain cut plain with ⟨alone, unmarked⟩
      rw [alone]
      exact exists_documented spelling.numeral unmarked
  · rintro ⟨value, documented⟩
    intro c member
    refine plainChar_iff.mpr ⟨bare_of_le (documented.le_toNat c member), ?_⟩
    rintro rfl
    exact documented.not_mem_X member

/-- An accepted predicate is documented exactly when its tokens are plain. -/
theorem predicate_documented_iff (accepted : AcceptedPredicate buildL2l3Catalog lhs ops vals pr) :
    DocumentedPredicate lhs ops vals pr ↔ PlainToken lhs ∧ PlainToken ops ∧ PlainToken vals := by
  have integer : (parseU64 vals).1 = true := by rw [accepted.operand]
  rw [field_documented_iff accepted, numeral_documented_iff integer]
  constructor
  · intro documented
    exact ⟨documented.field, (plainToken_of_op accepted.op).1, documented.numeral⟩
  · rintro ⟨field, -, numeral⟩
    exact ⟨field, accepted.op, numeral⟩

/-- No token of an accepted predicate is an arrow. -/
theorem ne_arrow_of_accepted (accepted : AcceptedPredicate buildL2l3Catalog lhs ops vals pr) :
    lhs ≠ "=>".toList ∧ ops ≠ "=>".toList ∧ vals ≠ "=>".toList := by
  refine ⟨?_, (plainToken_of_op accepted.op).2, ?_⟩
  · rintro rfl
    rcases accepted.field with ⟨node, field, e, split, -, -⟩
    have undotted : splitDot "=>".toList = none := by decide
    rw [undotted] at split
    contradiction
  · rintro rfl
    have rejected : (parseU64 "=>".toList).1 = false := by decide
    rw [accepted.operand] at rejected
    contradiction

end Predicate

/-! ### The tokens of a line -/

section Tokens

variable {tok rest : List Text} {preds : List Predicate}

/-- The accepted predicates end before the first arrow, and are documented exactly
when their tokens are plain. -/
theorem AcceptedPredicates.split (accepted : AcceptedPredicates buildL2l3Catalog tok rest preds) :
    ∃ front, tok = front ++ rest ∧ (∀ token ∈ front, token ≠ "=>".toList) ∧
      (DocumentedPredicates front preds ↔ ∀ token ∈ front, PlainToken token) := by
  induction accepted with
  | @last lhs ops vals rest pr accepted _ =>
      rcases ne_arrow_of_accepted accepted with ⟨field, op, numeral⟩
      refine ⟨[lhs, ops, vals], rfl, by simpa using ⟨field, op, numeral⟩, ?_⟩
      have plain : (∀ token ∈ [lhs, ops, vals], PlainToken token) ↔
          PlainToken lhs ∧ PlainToken ops ∧ PlainToken vals := by simp
      rw [plain, ← predicate_documented_iff accepted]
      constructor
      · rintro (documented | _)
        exact documented
      · exact .last
  | @more lhs ops vals tok rest pr preds accepted _ inductionHypothesis =>
      rcases inductionHypothesis with ⟨front, rfl, unarrowed, documented⟩
      rcases ne_arrow_of_accepted accepted with ⟨field, op, numeral⟩
      have and : PlainToken "&&".toList :=
        plainToken_of_all (by decide : "&&".toList.all plainChar = true)
      refine ⟨lhs :: ops :: vals :: "&&".toList :: front, rfl, ?_, ?_⟩
      · simp only [List.forall_mem_cons]
        exact ⟨field, op, numeral, by decide, unarrowed⟩
      · simp only [List.forall_mem_cons]
        constructor
        · rintro (_ | ⟨first, later⟩)
          rcases (predicate_documented_iff accepted).mp first
            with ⟨plainField, plainOp, plainNumeral⟩
          exact ⟨plainField, plainOp, plainNumeral, and, documented.mp later⟩
        · rintro ⟨plainField, plainOp, plainNumeral, -, later⟩
          exact .more ((predicate_documented_iff accepted).mpr ⟨plainField, plainOp, plainNumeral⟩)
            (documented.mpr later)

variable {front front' more more' : List Text}

end Tokens

/-! ### Labels -/

section Label

variable {text gap content trailing : Text}

end Label

/-! ### Lines -/

section Line

variable {parserNames : List Text} {ordinal : Nat} {line back : Text} {rest : List Text}
  {rule : Rule}

end Line

/-! ### Texts -/

section Text

variable {parserNames : List Text} {text : Text}

end Text

end Nanotins.Dpar
