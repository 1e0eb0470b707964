import Mathlib.Data.List.TakeWhile
import Nanotins.Library.CString

/-!
Contract: lines that are words with blanks around them.

Owns: when a line is such a spacing of words, that cutting a line at its blanks
gives exactly the words it spaces (`tokenizeBy_eq_iff`), and how spacings are cut
in two and put together.

Does not own: what a blank is.
-/

namespace Nanotins.Library

/-- The line is the words in order, with blanks before, between and behind them. -/
inductive Spaced (blank : Char → Bool) : List Text → Text → Prop where
  | gap {gap : Text} (blanks : ∀ c ∈ gap, blank c = true) : Spaced blank [] gap
  | word {gap word rest : Text} {words : List Text} (blanks : ∀ c ∈ gap, blank c = true)
      (nonempty : word ≠ []) (solid : ∀ c ∈ word, blank c = false)
      (parted : ∀ c ∈ rest.head?, blank c = true) (later : Spaced blank words rest) :
      Spaced blank (word :: words) (gap ++ (word ++ rest))

section Spacing

variable {blank : Char → Bool} {words front back : List Text} {line head tail : Text}

theorem takeWhile_word {word rest : Text} (solid : ∀ c ∈ word, blank c = false)
    (parted : ∀ c ∈ rest.head?, blank c = true) :
    (word ++ rest).takeWhile (fun c => !blank c) = word ∧
      (word ++ rest).dropWhile (fun c => !blank c) = rest := by
  have kept : ∀ c ∈ word, (!blank c) = true := by simpa using solid
  rw [List.takeWhile_append_of_pos kept, List.dropWhile_append_of_pos kept]
  cases rest with
  | nil => simp
  | cons c rest =>
      have first := parted c rfl
      simp [first]

/-- A word that is not blank is where skipping blanks stops. -/
theorem dropWhile_gap {gap word rest : Text} (blanks : ∀ c ∈ gap, blank c = true)
    (nonempty : word ≠ []) (solid : ∀ c ∈ word, blank c = false) :
    (gap ++ (word ++ rest)).dropWhile blank = word ++ rest := by
  rw [List.dropWhile_append_of_pos blanks]
  rcases List.exists_cons_of_ne_nil nonempty with ⟨c, word, rfl⟩
  exact List.dropWhile_cons_of_neg (by simp [solid c List.mem_cons_self])

theorem tokenizeBy_of_spaced (spaced : Spaced blank words line) :
    tokenizeBy blank line = words := by
  induction spaced with
  | gap blanks =>
      rw [tokenizeBy, List.dropWhile_eq_nil_iff.mpr blanks]
      exact if_pos rfl
  | word blanks nonempty solid parted _ inductionHypothesis =>
      rcases takeWhile_word solid parted with ⟨taken, dropped⟩
      rw [tokenizeBy, dropWhile_gap blanks nonempty solid, taken, dropped, if_neg nonempty,
        inductionHypothesis]

/-- Where a run of blanks ends, no blank stands. -/
theorem blank_head_dropWhile (blank : Char → Bool) (line : Text) :
    ∀ c ∈ (line.dropWhile blank).head?, blank c = false := by
  intro c head
  have found := List.head?_dropWhile_not blank line
  rw [head] at found
  exact found

/-- A line spaces the words it is cut into. -/
theorem spaced_tokenizeBy (blank : Char → Bool) (line : Text) :
    Spaced blank (tokenizeBy blank line) line := by
  induction line using tokenizeBy.induct blank with
  | case1 line rest first ended =>
      rw [tokenizeBy, if_pos ended]
      apply Spaced.gap
      have all : rest = [] := by
        cases same : rest with
        | nil => rfl
        | cons c behind =>
            have solid := blank_head_dropWhile blank line c (congrArg List.head? same)
            have ended : rest.takeWhile (fun c => !blank c) = [] := ended
            rw [same] at ended
            simp [solid] at ended
      exact List.dropWhile_eq_nil_iff.mp all
  | case2 line rest first more inductionHypothesis =>
      rw [tokenizeBy, if_neg more]
      have split : line.takeWhile blank ++ (first ++ rest.dropWhile fun c => !blank c) = line := by
        rw [List.takeWhile_append_dropWhile]
        exact List.takeWhile_append_dropWhile
      have spaced : Spaced blank (first :: tokenizeBy blank (rest.dropWhile fun c => !blank c))
          (line.takeWhile blank ++ (first ++ rest.dropWhile fun c => !blank c)) := by
        refine .word (fun c member => List.mem_takeWhile_imp member) more ?_ ?_ inductionHypothesis
        · intro c member
          simpa using List.mem_takeWhile_imp member
        · intro c head
          simpa using blank_head_dropWhile (fun c => !blank c) rest c head
      rw [split] at spaced
      exact spaced

/-- Cutting a line at its blanks gives exactly the words it spaces. -/
theorem tokenizeBy_eq_iff : tokenizeBy blank line = words ↔ Spaced blank words line := by
  constructor
  · rintro rfl
    exact spaced_tokenizeBy blank line
  · exact tokenizeBy_of_spaced

/-- A character of a line is blank or one of a word. -/
theorem Spaced.mem (spaced : Spaced blank words line) :
    ∀ c ∈ line, blank c = true ∨ ∃ word ∈ words, c ∈ word := by
  induction spaced with
  | gap blanks => exact fun c member => .inl (blanks c member)
  | word blanks _ _ _ _ inductionHypothesis =>
      simp only [List.mem_append, List.mem_cons]
      rintro c (gap | word | rest)
      · exact .inl (blanks c gap)
      · exact .inr ⟨_, .inl rfl, word⟩
      · rcases inductionHypothesis c rest with space | ⟨word, member, inside⟩
        · exact .inl space
        · exact .inr ⟨word, .inr member, inside⟩

/-- Words are solid, and not empty. -/
theorem Spaced.solid (spaced : Spaced blank words line) :
    ∀ word ∈ words, word ≠ [] ∧ ∀ c ∈ word, blank c = false := by
  induction spaced with
  | gap blanks => exact List.forall_mem_nil _
  | word _ nonempty solid _ _ inductionHypothesis =>
      exact List.forall_mem_cons.mpr ⟨⟨nonempty, solid⟩, inductionHypothesis⟩

/-- A line is cut behind its first words, where a blank stands or the line ends. -/
theorem Spaced.split (spaced : Spaced blank (front ++ back) line) :
    ∃ head tail, line = head ++ tail ∧ Spaced blank front head ∧ Spaced blank back tail ∧
      (front ≠ [] → ∀ c ∈ tail.head?, blank c = true) := by
  induction front generalizing line with
  | nil => exact ⟨[], line, rfl, .gap (List.forall_mem_nil _), spaced, fun none => absurd rfl none⟩
  | cons first front inductionHypothesis =>
      rw [List.cons_append] at spaced
      cases spaced with
      | @word gap _ rest _ blanks nonempty solid parted later =>
          cases front with
          | nil =>
              refine ⟨gap ++ (first ++ []), rest, by simp, ?_, later, fun _ => parted⟩
              exact .word blanks nonempty solid (by simp) (.gap (List.forall_mem_nil _))
          | cons second front =>
              rcases inductionHypothesis later with ⟨head, tail, rfl, inHead, inTail, between⟩
              refine ⟨gap ++ (first ++ head), tail, by simp, .word blanks nonempty solid ?_ inHead,
                inTail, fun _ => between (List.cons_ne_nil _ _)⟩
              intro c starts
              apply parted
              rw [List.head?_append, starts]
              rfl

/-- Two lines with a blank between are put together. -/
theorem Spaced.append (inHead : Spaced blank front head) (inTail : Spaced blank back tail)
    (between : ∀ c ∈ tail.head?, blank c = true) : Spaced blank (front ++ back) (head ++ tail) := by
  induction inHead with
  | @gap gap blanks =>
      cases inTail with
      | gap blanks' => exact .gap (List.forall_mem_append.mpr ⟨blanks, blanks'⟩)
      | word blanks' nonempty solid parted later =>
          rw [List.nil_append, ← List.append_assoc]
          exact .word (List.forall_mem_append.mpr ⟨blanks, blanks'⟩) nonempty solid parted later
  | @word gap word rest words blanks nonempty solid parted _ inductionHypothesis =>
      rw [List.append_assoc, List.append_assoc]
      refine .word blanks nonempty solid ?_ inductionHypothesis
      intro c starts
      cases rest with
      | nil => exact between c starts
      | cons first rest => exact parted c starts

end Spacing

end Nanotins.Library
