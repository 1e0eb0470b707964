import Mathlib.Algebra.Group.Nat.Defs
import Mathlib.Tactic.Common

/-!
Contract: strings as the C and C++ standard libraries see them.

Owns: `c_str()`, the numeral reader `strtoull` with base 0, its bound, and the
runs of a string between blanks and between line ends.

Does not own: any grammar.
-/

namespace Nanotins.Library

/-- A `std::string` or a C string, one `Char` for each byte. -/
abbrev Text := List Char

/-- What a C function sees of `c_str()`: the characters before the first NUL. -/
def cStr (text : Text) : Text := text.takeWhile (· ≠ Char.ofNat 0)

/-! ### Numerals -/

/-- `isspace` in the C locale. -/
def isSpace (c : Char) : Bool := c == ' ' || (9 ≤ c.toNat && c.toNat ≤ 13)

def digitValue (c : Char) : Option Nat :=
  if '0' ≤ c ∧ c ≤ '9' then some (c.toNat - 48)
  else if 'a' ≤ c ∧ c ≤ 'z' then some (c.toNat - 87)
  else if 'A' ≤ c ∧ c ≤ 'Z' then some (c.toNat - 55)
  else none

/-- The value of a digit of the base. -/
def digitIn (base : Nat) (c : Char) : Option Nat := (digitValue c).filter (· < base)

/-- The leading digits, and what follows them. -/
def takeDigits (base : Nat) : Text → List Nat × Text
  | [] => ([], [])
  | c :: text =>
      match digitIn base c with
      | none => ([], c :: text)
      | some digit => (digit :: (takeDigits base text).1, (takeDigits base text).2)

/-- The base of a numeral, and the numeral behind a `0x` that a hex digit
follows. -/
def splitBase (text : Text) : Nat × Text :=
  match text with
  | '0' :: x :: digit :: rest =>
      if (x = 'x' ∨ x = 'X') ∧ (digitIn 16 digit).isSome then (16, digit :: rest) else (8, text)
  | '0' :: _ => (8, text)
  | _ => (10, text)

/-- The sign of a numeral, and what follows it. -/
def splitSign (text : Text) : Bool × Text :=
  match text with
  | '-' :: rest => (true, rest)
  | '+' :: rest => (false, rest)
  | _ => (false, text)

/-- `strtoull` with base 0: the value, and the text at the end pointer.  Without
digits nothing is converted; a value that does not fit saturates, and a minus
sign negates modulo `2 ^ 64`.  This is the function of C17, to which C++20 refers:
`0b` is no prefix. -/
def strtoull (text : Text) : Nat × Text :=
  let signed := splitSign (text.dropWhile isSpace)
  let based := splitBase signed.2
  let taken := takeDigits based.1 based.2
  if taken.1.isEmpty then
    (0, text)
  else
    let value := taken.1.foldl (fun value digit => value * based.1 + digit) 0
    if 2 ^ 64 ≤ value then (2 ^ 64 - 1, taken.2)
    else if signed.1 then ((2 ^ 64 - value) % 2 ^ 64, taken.2)
    else (value, taken.2)

theorem strtoull_lt (text : Text) : (strtoull text).1 < 2 ^ 64 := by
  rw [strtoull]
  dsimp only
  split
  · exact Nat.two_pow_pos 64
  split
  · exact Nat.sub_lt (Nat.two_pow_pos 64) Nat.one_pos
  · next small =>
    split
    · exact Nat.mod_lt _ (Nat.two_pow_pos 64)
    · exact Nat.not_le.mp small

/-! ### Runs -/

/-- The maximal runs of characters that are not blank. -/
def tokenizeBy (blank : Char → Bool) (line : Text) : List Text :=
  let rest := line.dropWhile blank
  let token := rest.takeWhile fun c => !blank c
  if token = [] then []
  else token :: tokenizeBy blank (rest.dropWhile fun c => !blank c)
termination_by line.length
decreasing_by
  next nonempty =>
  have split := congrArg List.length
    (List.takeWhile_append_dropWhile (p := fun c => !blank c) (l := line.dropWhile blank))
  have shorter := (List.dropWhile_suffix blank (l := line)).length_le
  rw [List.length_append] at split
  have positive : 0 < ((line.dropWhile blank).takeWhile fun c => !blank c).length :=
    List.length_pos_iff.mpr nonempty
  omega

/-- A text has at most one line more than it has characters. -/
theorem length_splitOn_le (separator : Char) (text : Text) :
    (text.splitOn separator).length ≤ text.length + 1 := by
  induction text with
  | nil => exact Nat.le_refl _
  | cons c text inductionHypothesis =>
      rw [List.splitOn_cons_eq_if_modifyHead]
      split
      · rw [List.length_cons, List.length_cons]
        omega
      · rw [List.length_modifyHead, List.length_cons]
        omega

end Nanotins.Library
