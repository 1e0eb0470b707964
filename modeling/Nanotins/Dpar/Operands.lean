import Nanotins.Dpar.Accepted
import Nanotins.Library.Numeral

/-!
Contract: which operands rules accept, and what they are read as.

Owns: the numerals that the grammar of `compile_rules` documents, the spellings
that are read otherwise, and that an operand is treated as documented exactly
when it is none of these (`operand_documented_iff`).

Does not own: the other tokens of a predicate.
-/

namespace Nanotins.Dpar

open Nanotins.Library

def nul : Char := Char.ofNat 0

/-- `<value>` of the grammar: decimal or 0x-hex. -/
inductive DocumentedNumeral : Text → Nat → Prop where
  | decimal {digits : Text} (nonempty : digits ≠ []) (all : AllDigits 10 digits) :
      DocumentedNumeral digits (digitsValue 10 digits)
  | hex {digits : Text} (nonempty : digits ≠ []) (all : AllDigits 16 digits) :
      DocumentedNumeral ('0' :: 'x' :: digits) (digitsValue 16 digits)

/-! ### What `parse_u64` accepts -/

/-- The tail is cut off by `c_str()`. -/
def CutOff (tail : Text) : Prop := ∀ c ∈ tail.head?, c = nul

section Parse

variable {s tail : Text}

theorem cutOff_nil : CutOff [] := by simp [CutOff]

theorem cStr_append {text : Text} (plain : ∀ c ∈ text, c ≠ nul) (cut : CutOff tail) :
    cStr (text ++ tail) = text := by
  rw [cStr, List.takeWhile_append_of_pos (by simpa [nul] using plain)]
  cases tail with
  | nil => exact List.append_nil text
  | cons c tail =>
      have same : c = nul := cut c rfl
      rw [List.takeWhile_cons_of_neg (by simp [same, nul]), List.append_nil]

theorem cStr_cutOff (s : Text) : ∃ tail, CutOff tail ∧ s = cStr s ++ tail := by
  refine ⟨s.dropWhile (· ≠ nul), ?_, List.takeWhile_append_dropWhile.symm⟩
  intro c head
  have found := List.head?_dropWhile_not (· ≠ nul) s
  rw [head] at found
  simpa using found

/-- The characters of a spelling are not NUL. -/
theorem ne_nul_of_mem_spelling (spelling : Spelling) : ∀ c ∈ spelling.text, c ≠ nul := by
  rintro c member rfl
  exact absurd (spelling.toNat_pos _ member) (by decide)

/-- What stands behind a NUL is not read. -/
theorem parseU64_spelling (spelling : Spelling) (cut : CutOff tail) :
    parseU64 (spelling.text ++ tail) = (true, spelling.value) := by
  rcases spelling.numeral.first with ⟨first, rest, same, -⟩
  have nonempty : ¬ (spelling.text ++ tail).isEmpty = true := by
    rw [Spelling.text, same]
    simp
  rw [parseU64, if_neg nonempty, cStr_append (ne_nul_of_mem_spelling spelling) cut,
    strtoull_spelling]
  rfl

theorem parseU64_nul (junk : Text) : parseU64 (nul :: junk) = (true, 0) := rfl

theorem parseU64_cases (accepted : (parseU64 s).1 = true) :
    (∃ junk, s = nul :: junk) ∨
      ∃ (spelling : Spelling) (tail : Text), CutOff tail ∧ s = spelling.text ++ tail := by
  rw [parseU64] at accepted
  split at accepted
  · contradiction
  · next nonempty =>
    rcases cStr_cutOff s with ⟨tail, cut, split⟩
    rcases strtoull_rest_iff.mp (List.isEmpty_iff.mp accepted) with empty | ⟨spelling, same⟩
    · left
      cases s with
      | nil => contradiction
      | cons c junk =>
          rw [empty, List.nil_append] at split
          have first : c = nul := cut c (by rw [← split]; rfl)
          exact ⟨junk, by rw [first]⟩
    · right
      exact ⟨spelling, tail, cut, by rw [same]; exact split⟩

/-- A numeral alone is accepted, and its value saturates. -/
theorem parseU64_numeral {value : Nat} (numeral : Numeral s value) :
    parseU64 s = (true, if 2 ^ 64 ≤ value then 2 ^ 64 - 1 else value) := by
  have spelled := parseU64_spelling ⟨[], .absent, s, value, List.forall_mem_nil _, numeral⟩ cutOff_nil
  rw [List.append_nil] at spelled
  exact spelled

/-- The characters that mark nothing in front of a numeral or behind it. -/
structure Bare (c : Char) : Prop where
  unspaced : isSpace c = false
  ne_plus : c ≠ '+'
  ne_minus : c ≠ '-'
  ne_nul : c ≠ nul

theorem bare_of_le {c : Char} (large : 48 ≤ c.toNat) : Bare c := by
  have other : ∀ mark : Char, mark.toNat < 48 → c ≠ mark := by
    rintro mark small rfl
    omega
  refine ⟨?_, other '+' (by decide), other '-' (by decide), other nul (by decide)⟩
  by_contra blank
  have := toNat_lt_of_isSpace (Bool.of_not_eq_false blank)
  omega

/-- A spelling of bare characters is its numeral. -/
theorem spelling_of_bare {spelling : Spelling} (cut : CutOff tail)
    (bare : ∀ c ∈ spelling.text ++ tail, Bare c) :
    spelling.space = [] ∧ spelling.sign = .absent ∧ tail = [] := by
  rw [List.forall_mem_append, Spelling.text, List.forall_mem_append, List.forall_mem_append] at bare
  rcases bare with ⟨⟨space, sign, -⟩, last⟩
  refine ⟨?_, ?_, ?_⟩
  · apply List.eq_nil_iff_forall_not_mem.mpr
    intro c member
    have blank := spelling.isSpace_of_mem c member
    rw [(space c member).unspaced] at blank
    contradiction
  · cases same : spelling.sign with
    | absent => rfl
    | plus => exact absurd rfl (sign '+' (by simp [same, Sign.text])).ne_plus
    | minus => exact absurd rfl (sign '-' (by simp [same, Sign.text])).ne_minus
  · cases tail with
    | nil => rfl
    | cons c rest => exact absurd (cut c rfl) (last c List.mem_cons_self).ne_nul

end Parse

/-! ### Documented operands -/

namespace DocumentedNumeral

variable {s : Text} {value other : Nat}

theorem le_toNat (documented : DocumentedNumeral s value) : ∀ c ∈ s, 48 ≤ c.toNat := by
  cases documented with
  | decimal nonempty all => exact fun c member => le_toNat_of_digit (all c member)
  | hex nonempty all =>
      exact List.forall_mem_cons.mpr ⟨by decide, List.forall_mem_cons.mpr
        ⟨by decide, fun c member => le_toNat_of_digit (all c member)⟩⟩

theorem not_mem_X (documented : DocumentedNumeral s value) : 'X' ∉ s := by
  intro member
  cases documented with
  | decimal nonempty all => exact absurd (all 'X' member) (by decide)
  | @hex digits nonempty all =>
      have inDigits : 'X' ∈ digits := by simpa using member
      exact absurd (all 'X' inDigits) (by decide)

theorem unique (documented : DocumentedNumeral s value) (again : DocumentedNumeral s other) :
    value = other := by
  have unmarked : ∀ digits, ¬ AllDigits 10 ('0' :: 'x' :: digits) := by
    intro digits all
    exact absurd (all 'x' (by simp)) (by decide)
  cases documented with
  | decimal nonempty all =>
      cases again with
      | decimal _ _ => rfl
      | hex _ _ => exact absurd all (unmarked _)
  | hex nonempty all =>
      cases again with
      | decimal _ all' => exact absurd all' (unmarked _)
      | hex _ _ => rfl

end DocumentedNumeral

/-- `parse_u64` and the width check treat the operand as documented: it is
accepted exactly when it is a numeral whose value fits, and stored as that. -/
def ReadsAsDocumented (bits : Nat) (s : Text) : Prop :=
  ∀ value, parseU64 s = (true, value) ∧ (bits < 64 → value < 2 ^ bits) ↔
    DocumentedNumeral s value ∧ value < 2 ^ bits

/-! ### Operands that are read otherwise -/

/-- The spelling passes the width check; at 64 bits there is none. -/
def FitsWidth (bits : Nat) (spelling : Spelling) : Prop :=
  bits = 64 ∨
    if spelling.sign = .minus then
      spelling.magnitude = 0 ∨
        (2 ^ 64 - 2 ^ bits < spelling.magnitude ∧ spelling.magnitude < 2 ^ 64)
    else spelling.magnitude < 2 ^ bits

/-- The operands that a field of `bits` bits reads otherwise than documented. -/
inductive Misread (bits : Nat) : Text → Prop where
  /-- A token that starts with NUL is read as 0. -/
  | empty (junk : Text) : Misread bits (nul :: junk)
  /-- White space, signs, `0X` and what stands behind a NUL are accepted. -/
  | spelled {spelling : Spelling} {tail : Text} (cut : CutOff tail)
      (other : spelling.space ≠ [] ∨ spelling.sign ≠ .absent ∨ 'X' ∈ spelling.body ∨ tail ≠ [])
      (fits : FitsWidth bits spelling) : Misread bits (spelling.text ++ tail)
  /-- Decimal digits behind a zero are read as octal, or rejected. -/
  | leadingZero {digits : Text} (all : AllDigits 10 digits) (large : 8 ≤ digitsValue 10 digits)
      (fits : digitsValue 10 digits < 2 ^ bits ∨
        AllDigits 8 digits ∧ (bits = 64 ∨ digitsValue 8 digits < 2 ^ bits)) :
      Misread bits ('0' :: digits)
  /-- A value that does not fit 64 bits is stored as the largest that does. -/
  | saturated {s : Text} {value : Nat} (documented : DocumentedNumeral s value)
      (numeral : Numeral s value) (wide : bits = 64) (large : 2 ^ 64 ≤ value) : Misread bits s

section Misread

variable {bits : Nat} {s : Text}

theorem fits_iff (narrow : bits ≤ 64) (spelling : Spelling) :
    (bits < 64 → spelling.value < 2 ^ bits) ↔ FitsWidth bits spelling := by
  rcases Nat.lt_or_eq_of_le narrow with small | rfl
  · have bound : 2 ^ bits ≤ 2 ^ 63 := Nat.pow_le_pow_right (by decide) (by omega)
    have positive : 0 < 2 ^ bits := Nat.two_pow_pos bits
    have other : bits ≠ 64 := by omega
    simp only [FitsWidth, small, other, true_implies, false_or, Spelling.value]
    generalize 2 ^ bits = limit at *
    split_ifs <;> omega
  · exact iff_of_true (fun below => absurd below (Nat.lt_irrefl 64)) (.inl rfl)

/-- Octal digits are not read as their decimal value. -/
theorem parseU64_octal {digits : Text} (octal : AllDigits 8 digits)
    (large : 8 ≤ digitsValue 10 digits) :
    ∃ value, parseU64 ('0' :: digits) = (true, value) ∧ value < digitsValue 10 digits ∧
      value ≤ digitsValue 8 digits := by
  refine ⟨_, parseU64_numeral (.octal octal), ?_⟩
  have := (octal_le_decimal octal).2 large
  split <;> omega

/-- Decimal digits behind a zero that are not octal are rejected. -/
theorem parseU64_not_octal {digits : Text} (all : AllDigits 10 digits)
    (notOctal : ¬ AllDigits 8 digits) : (parseU64 ('0' :: digits)).1 = false := by
  by_contra accepted
  rcases parseU64_cases (Bool.of_not_eq_false accepted)
    with ⟨junk, same⟩ | ⟨spelling, tail, cut, same⟩
  · exact absurd (List.cons.inj same).1 (by decide)
  · have bare : ∀ c ∈ '0' :: digits, Bare c := by
      rw [List.forall_mem_cons]
      exact ⟨bare_of_le (by decide), fun c member => bare_of_le (le_toNat_of_digit (all c member))⟩
    have numeral := spelling.numeral
    rw [same] at bare
    rcases spelling_of_bare cut bare with ⟨space, sign, rfl⟩
    have body : spelling.body = '0' :: digits := by
      rw [same, Spelling.text, space, sign, List.append_nil]
      rfl
    generalize spelling.magnitude = value at numeral
    rw [body] at numeral
    cases numeral with
    | decimal nonzero _ => exact nonzero rfl
    | octal octal => exact notOctal octal
    | hex marked _ _ =>
        have digit := all _ List.mem_cons_self
        rcases marked with rfl | rfl <;> exact absurd digit (by decide)

theorem not_readsAsDocumented (narrow : bits ≤ 64) (misread : Misread bits s) :
    ¬ ReadsAsDocumented bits s := by
  intro documented
  cases misread with
  | empty junk =>
      have read := (documented 0).mp ⟨parseU64_nul junk, fun _ => Nat.two_pow_pos bits⟩
      exact absurd (read.1.le_toNat nul List.mem_cons_self) (by decide)
  | @spelled spelling tail cut other fits =>
      have read := (documented spelling.value).mp
        ⟨parseU64_spelling spelling cut, (fits_iff narrow spelling).mpr fits⟩
      have unmarked := read.1.not_mem_X
      have bare := fun c member => bare_of_le (read.1.le_toNat c member)
      rcases spelling_of_bare cut bare with ⟨space, sign, ended⟩
      rcases other with other | other | other | other
      · exact other space
      · exact other sign
      · apply unmarked
        simp [Spelling.text, other]
      · exact other ended
  | @leadingZero digits all large fits =>
      have decimal : DocumentedNumeral ('0' :: digits) (digitsValue 10 digits) := by
        rw [← digitsValue_zero_cons digits rfl]
        exact .decimal (List.cons_ne_nil _ _) (AllDigits.cons_iff.mpr ⟨rfl, all⟩)
      by_cases octal : AllDigits 8 digits
      · rcases parseU64_octal octal large with ⟨value, read, less, le⟩
        rcases fits with fits | ⟨-, fits⟩
        · have asDecimal := ((documented _).mpr ⟨decimal, fits⟩).1
          rw [read] at asDecimal
          have := congrArg Prod.snd asDecimal
          dsimp only at this
          omega
        · have asOctal := ((documented value).mp ⟨read, fun small => by omega⟩).1
          have := asOctal.unique decimal
          omega
      · rcases fits with fits | ⟨octal', -⟩
        · have asDecimal := ((documented _).mpr ⟨decimal, fits⟩).1
          have rejected := parseU64_not_octal all octal
          rw [asDecimal] at rejected
          contradiction
        · exact octal octal'
  | @saturated _ value numeral constant wide large =>
      have parsed := parseU64_numeral constant
      rw [if_pos large] at parsed
      have read := (documented _).mp ⟨parsed, fun small => by omega⟩
      have := read.1.unique numeral
      omega

/-- A numeral that fits and is not misread is documented. -/
theorem documented_of_numeral {value : Nat} (numeral : Numeral s value) (unmarked : 'X' ∉ s)
    (fits : bits = 64 ∨ value < 2 ^ bits) (read : ¬ Misread bits s) : DocumentedNumeral s value := by
  cases numeral with
  | decimal nonzero all => exact .decimal (List.cons_ne_nil _ _) all
  | @octal digits octal =>
      have all := octal.mono (by decide : 8 ≤ 10)
      have small : digitsValue 10 digits < 8 := by
        by_contra large
        exact read (.leadingZero all (Nat.not_lt.mp large) (.inr ⟨octal, fits⟩))
      rw [(octal_of_small all small).2, ← digitsValue_zero_cons digits rfl]
      exact .decimal (List.cons_ne_nil _ _) (AllDigits.cons_iff.mpr ⟨rfl, all⟩)
  | hex marked nonempty all =>
      rcases marked with rfl | rfl
      · exact .hex nonempty all
      · simp at unmarked

/-- A documented numeral that is not misread is one that C reads alike. -/
theorem numeral_of_documented {value : Nat} (documented : DocumentedNumeral s value)
    (fits : value < 2 ^ bits) (read : ¬ Misread bits s) : Numeral s value := by
  cases documented with
  | hex nonempty all => exact .hex (.inl rfl) nonempty all
  | decimal nonempty all =>
      rcases List.exists_cons_of_ne_nil nonempty with ⟨first, digits, rfl⟩
      by_cases zero : first = '0'
      · subst zero
        have rest := (AllDigits.cons_iff.mp all).2
        rw [digitsValue_zero_cons digits rfl] at fits ⊢
        have small : digitsValue 10 digits < 8 := by
          by_contra large
          exact read (.leadingZero rest (Nat.not_lt.mp large) (.inl fits))
        rcases octal_of_small rest small with ⟨octal, same⟩
        rw [← same]
        exact .octal octal
      · exact .decimal zero all

theorem readsAsDocumented (narrow : bits ≤ 64) (read : ¬ Misread bits s) :
    ReadsAsDocumented bits s := by
  have bound : 2 ^ bits ≤ 2 ^ 64 := Nat.pow_le_pow_right (by decide) narrow
  intro value
  constructor
  · rintro ⟨parsed, fit⟩
    have accepted : (parseU64 s).1 = true := by rw [parsed]
    rcases parseU64_cases accepted with ⟨junk, rfl⟩ | ⟨spelling, tail, cut, rfl⟩
    · exact absurd (.empty junk) read
    rw [parseU64_spelling spelling cut] at parsed
    obtain rfl : spelling.value = value := congrArg Prod.snd parsed
    have fits := (fits_iff narrow spelling).mp fit
    have plain : ¬ (spelling.space ≠ [] ∨ spelling.sign ≠ .absent ∨ 'X' ∈ spelling.body ∨ tail ≠ []) :=
      fun other => read (.spelled cut other fits)
    simp only [not_or, not_not] at plain
    rcases plain with ⟨space, sign, unmarked, rfl⟩
    have alone : spelling.text ++ [] = spelling.body := by
      rw [Spelling.text, space, sign, List.append_nil]
      rfl
    rw [FitsWidth, if_neg (by simp [sign])] at fits
    rw [alone] at read ⊢
    have documented := documented_of_numeral spelling.numeral unmarked fits read
    -- only at 64 bits may the value saturate, and then it is misread
    have small : spelling.magnitude < 2 ^ 64 := by
      by_contra large
      exact read (.saturated documented spelling.numeral (by omega) (Nat.not_lt.mp large))
    have exact : spelling.value = spelling.magnitude := by
      rw [Spelling.value, if_neg (by omega), if_neg (by simp [sign])]
    rw [exact]
    refine ⟨documented, ?_⟩
    rcases fits with rfl | fits
    · exact small
    · exact fits
  · rintro ⟨documented, fits⟩
    have numeral := numeral_of_documented documented fits read
    refine ⟨?_, fun _ => fits⟩
    rw [parseU64_numeral numeral, if_neg (by omega)]

/-- An operand is read as documented exactly when it is none of the misread. -/
theorem readsAsDocumented_iff (narrow : bits ≤ 64) (s : Text) :
    ReadsAsDocumented bits s ↔ ¬ Misread bits s :=
  ⟨fun documented misread => not_readsAsDocumented narrow misread documented,
    readsAsDocumented narrow⟩

end Misread

/-! ### Operands in a rule -/

section Rule

variable {catalog : List CatalogEntry} {lineNo : Nat} {st : LineState} {lhs ops vals node field : Text}
  {e : CatalogEntry} {op : CmpOp}

/-- A predicate on a catalogued field with a known comparator is added exactly
when `parse_u64` and the width check accept its operand. -/
theorem compilePredicate_eq_push_iff (accepted : st.ruleOk = true)
    (room : st.rule.preds.length < kMaxPredicates) (dotted : splitDot lhs = some (node, field))
    (found : findField catalog node field = some e) (comparator : parseOp ops = some op)
    (value : Nat) :
    compilePredicate catalog lineNo lhs ops vals st = st.push ⟨e.ref, op, value⟩ ↔
      parseU64 vals = (true, value) ∧ (e.ref.bits < 64 → value < 2 ^ e.ref.bits) := by
  constructor
  · intro pushed
    have ok : (compilePredicate catalog lineNo lhs ops vals st).ruleOk = true := by
      rw [pushed]
      exact accepted
    rcases compilePredicate_of_ok ok with ⟨-, -, pr, predicate, same⟩
    rw [same] at pushed
    have last := congrArg (fun st : LineState => st.rule.preds.getLast?) pushed
    simp only [LineState.push, List.getLast?_append_of_ne_nil _ (List.cons_ne_nil _ _),
      List.getLast?_singleton, Option.some.injEq] at last
    rw [last] at predicate
    exact ⟨predicate.operand, predicate.fits⟩
  · rintro ⟨parsed, fits⟩
    have predicate : AcceptedPredicate catalog lhs ops vals ⟨e.ref, op, value⟩ :=
      ⟨⟨node, field, e, dotted, found, rfl⟩, comparator, parsed, fits⟩
    exact predicate.compilePredicate room

end Rule

/-- A catalogued field has 64 bits at most. -/
theorem bits_le_of_mem_catalog {e : CatalogEntry} (catalogued : e ∈ buildL2l3Catalog) :
    e.ref.bits ≤ 64 := by
  rcases refersTo_of_mem_catalog catalogued with ⟨node, field, refers⟩
  have fits := narrowable_of_mem refers.1
  rcases refers with ⟨-, -, -, kind⟩
  rw [narrowable, Bool.and_eq_true] at fits
  rw [FieldRef.bits]
  split at kind
  · contradiction
  · next same =>
    rw [same] at fits
    have := (of_decide_eq_true fits.2).2.2
    rw [kind.1, kind.2.2.2.1, if_pos rfl]
    omega
  · next same =>
    rw [same] at fits
    have := of_decide_eq_true fits.2
    rw [kind.1, kind.2.1, if_neg (by decide)]
    omega

/-- The operand of a predicate on a catalogued field is accepted exactly when it
is a documented numeral that fits the field, and stored as its value, exactly
when the token is none of the misread. -/
theorem operand_documented_iff {lineNo : Nat} {st : LineState} {lhs ops node field : Text}
    {e : CatalogEntry} {op : CmpOp} (accepted : st.ruleOk = true)
    (room : st.rule.preds.length < kMaxPredicates) (dotted : splitDot lhs = some (node, field))
    (found : findField buildL2l3Catalog node field = some e) (comparator : parseOp ops = some op)
    (vals : Text) :
    (∀ value, compilePredicate buildL2l3Catalog lineNo lhs ops vals st =
        st.push ⟨e.ref, op, value⟩ ↔
          DocumentedNumeral vals value ∧ value < 2 ^ e.ref.bits) ↔
      ¬ Misread e.ref.bits vals := by
  rw [← readsAsDocumented_iff (bits_le_of_mem_catalog (List.mem_of_find?_eq_some found)) vals]
  simp only [compilePredicate_eq_push_iff accepted room dotted found comparator]
  rfl

/-- The catalog entry of `ipv4.ttl`. -/
def ipv4Ttl : CatalogEntry := ⟨"ipv4", "ttl", ⟨2, 8, 1, true, false, 0, 0⟩⟩

theorem operand_documented_iff_ipv4Ttl :
    (∀ value, compilePredicate buildL2l3Catalog 1 "ipv4.ttl".toList "==".toList "64".toList
        ⟨{}, true, []⟩ = (⟨{}, true, []⟩ : LineState).push ⟨ipv4Ttl.ref, .eq, value⟩ ↔
          DocumentedNumeral "64".toList value ∧ value < 2 ^ ipv4Ttl.ref.bits) ↔
      ¬ Misread ipv4Ttl.ref.bits "64".toList := by
  have dotted : splitDot "ipv4.ttl".toList = some ("ipv4".toList, "ttl".toList) := by decide
  have found : findField buildL2l3Catalog "ipv4".toList "ttl".toList = some ipv4Ttl := by
    decide +kernel
  exact operand_documented_iff rfl (by decide) dotted found rfl _

/-- `010` is stored as 8. -/
theorem operand_documented_fails :
    compilePredicate buildL2l3Catalog 1 "ipv4.ttl".toList "==".toList "010".toList ⟨{}, true, []⟩ =
        (⟨{}, true, []⟩ : LineState).push ⟨ipv4Ttl.ref, .eq, 8⟩ ∧
      DocumentedNumeral "010".toList 10 ∧ ¬ DocumentedNumeral "010".toList 8 := by
  have ten : DocumentedNumeral "010".toList 10 :=
    .decimal (by decide)
      (List.all_eq_true.mp (by decide : "010".toList.all (fun c => (digitIn 10 c).isSome) = true))
  refine ⟨by decide +kernel, ten, fun eight => ?_⟩
  exact absurd (eight.unique ten) (by decide)

end Nanotins.Dpar
