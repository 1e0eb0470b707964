import Mathlib.Data.List.Induction
import Mathlib.Data.List.TakeWhile
import Nanotins.Library.CString

/-!
Contract: the spellings that `strtoull` with base 0 reads to their end.

Owns: strings of digits and their values, the integer constants of C, their
spellings with white space and a sign, that `strtoull` reads exactly these
(`strtoull_rest_iff`) with the value C gives them (`strtoull_spelling`), and how
the octal and the decimal value of digits compare.

Does not own: which spellings a grammar allows.
-/

namespace Nanotins.Library

/-! ### Digits -/

/-- The characters are digits of the base. -/
def AllDigits (base : Nat) (text : Text) : Prop := ∀ c ∈ text, (digitIn base c).isSome = true

/-- The value of digits, most significant first. -/
def digitsValue (base : Nat) (text : Text) : Nat :=
  text.foldl (fun value c => value * base + (digitIn base c).getD 0) 0

section Digits

variable {base : Nat} {text rest : Text} {c : Char}

theorem digitIn_eq_some_iff {digit : Nat} :
    digitIn base c = some digit ↔ digitValue c = some digit ∧ digit < base := by
  rw [digitIn, Option.filter_eq_some_iff]
  simp

theorem AllDigits.cons_iff :
    AllDigits base (c :: text) ↔ (digitIn base c).isSome = true ∧ AllDigits base text :=
  List.forall_mem_cons

theorem digitsValue_append_singleton :
    digitsValue base (text ++ [c]) = digitsValue base text * base + (digitIn base c).getD 0 :=
  List.foldl_append

theorem digitsValue_zero_cons (text : Text) (zero : digitIn base '0' = some 0) :
    digitsValue base ('0' :: text) = digitsValue base text := by
  rw [digitsValue, List.foldl_cons, zero, Nat.zero_mul]
  rfl

/-- The leading digits are read to the first character that is none. -/
theorem takeDigits_append (digits : AllDigits base text)
    (ends : rest.head?.all fun c => (digitIn base c).isNone) :
    takeDigits base (text ++ rest) = (text.map fun c => (digitIn base c).getD 0, rest) := by
  induction text with
  | nil =>
      cases rest with
      | nil => rfl
      | cons c rest =>
          have other : digitIn base c = none := by simpa using ends
          rw [List.nil_append, takeDigits, other]
          rfl
  | cons c text inductionHypothesis =>
      rcases AllDigits.cons_iff.mp digits with ⟨first, later⟩
      rcases Option.isSome_iff_exists.mp first with ⟨digit, value⟩
      rw [List.cons_append, takeDigits, value, inductionHypothesis later, List.map_cons, value]
      rfl

/-- What stands before the rest are digits. -/
theorem takeDigits_eq (base : Nat) (text : Text) :
    ∃ digits, AllDigits base digits ∧ text = digits ++ (takeDigits base text).2 ∧
      (takeDigits base text).1 = digits.map fun c => (digitIn base c).getD 0 := by
  induction text with
  | nil => exact ⟨[], List.forall_mem_nil _, rfl, rfl⟩
  | cons c text inductionHypothesis =>
      rcases inductionHypothesis with ⟨digits, all, split, values⟩
      rw [takeDigits]
      cases value : digitIn base c with
      | none => exact ⟨[], List.forall_mem_nil _, rfl, rfl⟩
      | some digit =>
          refine ⟨c :: digits, AllDigits.cons_iff.mpr ⟨by rw [value]; rfl, all⟩, ?_, ?_⟩
          · exact congrArg (c :: ·) split
          · rw [List.map_cons, value]
            exact congrArg (digit :: ·) values

theorem foldl_map_digitsValue (base : Nat) (text : Text) :
    (text.map fun c => (digitIn base c).getD 0).foldl (fun value digit => value * base + digit) 0 =
      digitsValue base text := by
  rw [List.foldl_map]
  rfl

end Digits

/-! ### Octal and decimal values -/

section Octal

variable {text : Text} {c : Char}

theorem digitIn_le {low high : Nat} (wider : low ≤ high) (digit : (digitIn low c).isSome = true) :
    digitIn high c = digitIn low c := by
  rcases Option.isSome_iff_exists.mp digit with ⟨n, value⟩
  rcases digitIn_eq_some_iff.mp value with ⟨same, below⟩
  rw [value, digitIn_eq_some_iff]
  exact ⟨same, Nat.lt_of_lt_of_le below wider⟩

theorem AllDigits.mono {low high : Nat} (wider : low ≤ high) (digits : AllDigits low text) :
    AllDigits high text := by
  intro c member
  rw [digitIn_le wider (digits c member)]
  exact digits c member

/-- Octal digits have a smaller value than the same decimal digits, unless there
is one significant digit at most. -/
theorem octal_le_decimal (digits : AllDigits 8 text) :
    digitsValue 8 text ≤ digitsValue 10 text ∧
      (8 ≤ digitsValue 10 text → digitsValue 8 text < digitsValue 10 text) := by
  induction text using List.reverseRecOn with
  | nil => exact ⟨Nat.le_refl _, fun large => by contradiction⟩
  | append_singleton text c inductionHypothesis =>
      rcases List.forall_mem_append.mp digits with ⟨front, last⟩
      rcases inductionHypothesis front with ⟨le, lt⟩
      have digit := last c List.mem_cons_self
      rcases Option.isSome_iff_exists.mp digit with ⟨n, value⟩
      have small := (digitIn_eq_some_iff.mp value).2
      rw [digitsValue_append_singleton, digitsValue_append_singleton,
        digitIn_le (by decide : 8 ≤ 10) digit, value, Option.getD_some]
      omega

/-- Decimal digits of a value below eight are octal digits of the same value. -/
theorem octal_of_small (digits : AllDigits 10 text) (small : digitsValue 10 text < 8) :
    AllDigits 8 text ∧ digitsValue 8 text = digitsValue 10 text := by
  induction text using List.reverseRecOn with
  | nil => exact ⟨List.forall_mem_nil _, rfl⟩
  | append_singleton text c inductionHypothesis =>
      rcases List.forall_mem_append.mp digits with ⟨front, last⟩
      rcases Option.isSome_iff_exists.mp (last c List.mem_cons_self) with ⟨n, value⟩
      rw [digitsValue_append_singleton, value, Option.getD_some] at small
      rcases inductionHypothesis front (by omega) with ⟨octal, same⟩
      have octalValue : digitIn 8 c = some n :=
        digitIn_eq_some_iff.mpr ⟨(digitIn_eq_some_iff.mp value).1, by omega⟩
      have octalLast : (digitIn 8 c).isSome = true := by rw [octalValue]; rfl
      have zero : digitsValue 10 text = 0 := by omega
      refine ⟨List.forall_mem_append.mpr ⟨octal, List.forall_mem_singleton.mpr octalLast⟩, ?_⟩
      rw [digitsValue_append_singleton, digitsValue_append_singleton, octalValue, value, same, zero]

end Octal

/-! ### Spellings -/

/-- The unsigned integer constants of C, and their values. -/
inductive Numeral : Text → Nat → Prop where
  | decimal {first : Char} {digits : Text} (nonzero : first ≠ '0')
      (all : AllDigits 10 (first :: digits)) :
      Numeral (first :: digits) (digitsValue 10 (first :: digits))
  | octal {digits : Text} (all : AllDigits 8 digits) :
      Numeral ('0' :: digits) (digitsValue 8 digits)
  | hex {x : Char} {digits : Text} (marked : x = 'x' ∨ x = 'X') (nonempty : digits ≠ [])
      (all : AllDigits 16 digits) :
      Numeral ('0' :: x :: digits) (digitsValue 16 digits)

inductive Sign where
  | absent | plus | minus
deriving DecidableEq, Repr

def Sign.text : Sign → Text
  | .absent => []
  | .plus => ['+']
  | .minus => ['-']

/-- A numeral behind white space and a sign. -/
structure Spelling where
  space : Text
  sign : Sign
  body : Text
  magnitude : Nat
  isSpace_of_mem : ∀ c ∈ space, isSpace c = true
  numeral : Numeral body magnitude

namespace Spelling

def text (spelling : Spelling) : Text := spelling.space ++ (spelling.sign.text ++ spelling.body)

/-- The value as a `uint64_t`: it saturates, and a minus sign negates it. -/
def value (spelling : Spelling) : Nat :=
  if 2 ^ 64 ≤ spelling.magnitude then 2 ^ 64 - 1
  else if spelling.sign = .minus then (2 ^ 64 - spelling.magnitude) % 2 ^ 64
  else spelling.magnitude

end Spelling

/-- Digits lie behind the white space, the signs and NUL. -/
theorem le_toNat_of_digit {base : Nat} {c : Char} (digit : (digitIn base c).isSome = true) :
    48 ≤ c.toNat := by
  rcases Option.isSome_iff_exists.mp digit with ⟨n, value⟩
  have some := (digitIn_eq_some_iff.mp value).1
  by_contra small
  have beyond : ∀ d : Char, 48 ≤ d.toNat → ¬ d ≤ c := by
    intro d large below
    have := Char.le_def.mp below
    have := UInt32.le_iff_toNat_le.mp this
    change d.toNat ≤ c.toNat at this
    omega
  simp [digitValue, beyond '0' (by decide), beyond 'a' (by decide), beyond 'A' (by decide)] at some

theorem toNat_lt_of_isSpace {c : Char} (space : isSpace c = true) : c.toNat < 48 := by
  rw [isSpace, Bool.or_eq_true, beq_iff_eq, Bool.and_eq_true, decide_eq_true_eq,
    decide_eq_true_eq] at space
  rcases space with rfl | ⟨-, below⟩
  · decide
  · omega

section Numeral

variable {text body : Text} {value : Nat}

theorem Numeral.le_toNat (numeral : Numeral body value) : ∀ c ∈ body, 48 ≤ c.toNat := by
  cases numeral with
  | decimal nonzero all => exact fun c member => le_toNat_of_digit (all c member)
  | octal all =>
      exact List.forall_mem_cons.mpr ⟨by decide, fun c member => le_toNat_of_digit (all c member)⟩
  | hex marked nonempty all =>
      refine List.forall_mem_cons.mpr ⟨by decide, List.forall_mem_cons.mpr
        ⟨?_, fun c member => le_toNat_of_digit (all c member)⟩⟩
      rcases marked with rfl | rfl <;> decide

/-- A numeral starts with a digit. -/
theorem Numeral.first (numeral : Numeral body value) :
    ∃ first rest, body = first :: rest ∧ 48 ≤ first.toNat := by
  cases body with
  | nil => cases numeral
  | cons first rest => exact ⟨first, rest, rfl, numeral.le_toNat first List.mem_cons_self⟩

/-- The base of a numeral is found, and its digits are all that follows. -/
theorem Numeral.splitBase (numeral : Numeral body value) :
    AllDigits (splitBase body).1 (splitBase body).2 ∧ (splitBase body).2 ≠ [] ∧
      value = digitsValue (splitBase body).1 (splitBase body).2 := by
  cases numeral with
  | @decimal first digits nonzero all =>
      have base : Library.splitBase (first :: digits) = (10, first :: digits) := by
        rw [Library.splitBase]
        · intro x digit rest same
          exact nonzero (List.cons.inj same).1
        · intro rest same
          exact nonzero (List.cons.inj same).1
      rw [base]
      exact ⟨all, List.cons_ne_nil _ _, rfl⟩
  | @octal digits all =>
      have base : Library.splitBase ('0' :: digits) = (8, '0' :: digits) := by
        match digits, all with
        | [], _ => rfl
        | [_], _ => rfl
        | x :: digit :: rest, all =>
            have unmarked : ¬ ((x = 'x' ∨ x = 'X') ∧ (digitIn 16 digit).isSome = true) := by
              rintro ⟨rfl | rfl, -⟩
              · exact absurd (all 'x' List.mem_cons_self) (by decide)
              · exact absurd (all 'X' List.mem_cons_self) (by decide)
            exact if_neg unmarked
      rw [base]
      exact ⟨AllDigits.cons_iff.mpr ⟨rfl, all⟩, List.cons_ne_nil _ _,
        (digitsValue_zero_cons digits rfl).symm⟩
  | @hex x digits marked nonempty all =>
      have base : Library.splitBase ('0' :: x :: digits) = (16, digits) := by
        match digits, nonempty, all with
        | digit :: rest, _, all => exact if_pos ⟨marked, all digit List.mem_cons_self⟩
      rw [base]
      exact ⟨all, nonempty, rfl⟩

/-- What is split off with digits only is a numeral. -/
theorem numeral_of_splitBase (nonempty : (Library.splitBase body).2 ≠ [])
    (all : AllDigits (Library.splitBase body).1 (Library.splitBase body).2) :
    ∃ value, Numeral body value := by
  unfold Library.splitBase at nonempty all
  split at all
  · next x digit rest =>
    split at all
    · next marked => exact ⟨_, .hex marked.1 (List.cons_ne_nil _ _) all⟩
    · exact ⟨_, .octal (AllDigits.cons_iff.mp all).2⟩
  · exact ⟨_, .octal (AllDigits.cons_iff.mp all).2⟩
  · next notHex notOctal =>
    cases body with
    | nil => contradiction
    | cons first rest =>
        refine ⟨_, .decimal ?_ all⟩
        rintro rfl
        exact notOctal rest rfl

/-- White space is skipped up to the sign or the first digit. -/
theorem Spelling.dropWhile_isSpace (spelling : Spelling) :
    spelling.text.dropWhile isSpace = spelling.sign.text ++ spelling.body := by
  rcases spelling.numeral.first with ⟨first, rest, same, large⟩
  have unspaced : isSpace first = false := by
    by_contra space
    have := toNat_lt_of_isSpace (Bool.of_not_eq_false space)
    omega
  rw [text, List.dropWhile_append_of_pos spelling.isSpace_of_mem, same]
  cases spelling.sign with
  | absent => exact List.dropWhile_cons_of_neg (by simp [unspaced])
  | plus => rfl
  | minus => rfl

/-- No character of a spelling is NUL. -/
theorem Spelling.toNat_pos (spelling : Spelling) : ∀ c ∈ spelling.text, 0 < c.toNat := by
  intro c member
  rw [text, List.mem_append, List.mem_append] at member
  rcases member with space | sign | digit
  · have blank := spelling.isSpace_of_mem c space
    rw [isSpace, Bool.or_eq_true, beq_iff_eq, Bool.and_eq_true, decide_eq_true_eq] at blank
    rcases blank with rfl | ⟨large, -⟩
    · decide
    · omega
  · cases same : spelling.sign with
    | absent => simp [same, Sign.text] at sign
    | plus =>
        rw [same, Sign.text, List.mem_singleton] at sign
        rw [sign]
        decide
    | minus =>
        rw [same, Sign.text, List.mem_singleton] at sign
        rw [sign]
        decide
  · have := spelling.numeral.le_toNat c digit
    omega

theorem Spelling.splitSign (spelling : Spelling) :
    splitSign (spelling.sign.text ++ spelling.body) =
      (decide (spelling.sign = .minus), spelling.body) := by
  rcases spelling.numeral.first with ⟨first, rest, same, large⟩
  cases spelling.sign with
  | absent =>
      rw [Sign.text, List.nil_append, same, Library.splitSign]
      · rfl
      · intro rest starts
        obtain rfl := (List.cons.inj starts).1
        contradiction
      · intro rest starts
        obtain rfl := (List.cons.inj starts).1
        contradiction
  | plus => rfl
  | minus => rfl

/-- `strtoull` reads a spelling to its end. -/
theorem strtoull_spelling (spelling : Spelling) :
    strtoull spelling.text = (spelling.value, []) := by
  rcases spelling.numeral.splitBase with ⟨all, nonempty, magnitude⟩
  rcases List.exists_cons_of_ne_nil nonempty with ⟨first, rest, same⟩
  have taken := takeDigits_append all (rfl : ([] : Text).head?.all _ = true)
  rw [List.append_nil] at taken
  rw [strtoull, spelling.dropWhile_isSpace, spelling.splitSign]
  dsimp only
  rw [taken, foldl_map_digitsValue, ← magnitude, if_neg (by simp [same]), Spelling.value]
  split
  · rfl
  · by_cases negative : spelling.sign = .minus <;> simp [negative]

theorem splitSign_eq (text : Text) : ∃ sign : Sign, text = sign.text ++ (splitSign text).2 := by
  unfold splitSign
  split
  · exact ⟨.minus, rfl⟩
  · exact ⟨.plus, rfl⟩
  · exact ⟨.absent, rfl⟩

/-- What `strtoull` reads to its end is empty or a spelling. -/
theorem strtoull_rest_iff :
    (strtoull text).2 = [] ↔ text = [] ∨ ∃ spelling : Spelling, spelling.text = text := by
  constructor
  · intro read
    rw [strtoull] at read
    dsimp only at read
    rcases splitSign_eq (text.dropWhile isSpace) with ⟨sign, behind⟩
    generalize (splitSign (text.dropWhile isSpace)).2 = body at read behind
    rcases takeDigits_eq (splitBase body).1 (splitBase body).2 with ⟨digits, all, split, values⟩
    split at read
    · exact .inl read
    · next some =>
      right
      have ended : (takeDigits (splitBase body).1 (splitBase body).2).2 = [] := by
        split_ifs at read <;> exact read
      rw [ended, List.append_nil] at split
      have nonempty : (splitBase body).2 ≠ [] := by
        intro empty
        rw [values, ← split, empty] at some
        contradiction
      rw [← split] at all
      rcases numeral_of_splitBase nonempty all with ⟨magnitude, numeral⟩
      have spaces : ∀ c ∈ text.takeWhile isSpace, isSpace c = true :=
        fun c member => List.mem_takeWhile_imp member
      refine ⟨⟨_, sign, body, magnitude, spaces, numeral⟩, ?_⟩
      rw [Spelling.text, ← behind]
      exact List.takeWhile_append_dropWhile
  · rintro (rfl | ⟨spelling, rfl⟩)
    · rfl
    · rw [strtoull_spelling]

end Numeral

end Nanotins.Library
