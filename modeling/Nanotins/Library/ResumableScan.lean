import Mathlib.Algebra.Group.Action.Defs
import Mathlib.Algebra.Group.Nat.Defs
import Mathlib.Data.List.Basic

/-!
Contract: scanners that cut a byte stream into records one step at a time, and
why scanning through a sliding window gives what scanning the whole file gives.

Owns: the scanner structure (a step that either asks for more input, fails, or
covers a prefix and emits items), its run to the end of the available input,
the windowed driver, the resumption law `run_append`, the streaming theorem
`stream_eq_run`, and the invariant rules `run_forall` (of the items) and
`run_trace` (of everything emitted so far).

Does not own: any file format.

Items carry positions, so they live in an `AddAction` of the naturals: moving a
scan by `n` bytes moves each of its items by `n`.
-/

namespace Nanotins.Library

/-- What one step says about the unread input. -/
inductive ScanStep (σ ε ρ : Type) where
  /-- Nothing can be decided before more input arrives. -/
  | more
  | fail (error : ε)
  /-- The first `consumed` bytes are covered by `items`. -/
  | emit (items : List ρ) (consumed : Nat) (next : σ)

/-- A record scanner.  `stable` is what makes it resumable: a decision taken on
a prefix of the input stands however the input continues. -/
structure Scanner (α σ ε ρ : Type) where
  step : σ → List α → ScanStep σ ε ρ
  /-- Bounds the steps that consume nothing. -/
  phase : σ → Nat
  consumed_le : ∀ {state input items consumed next},
    step state input = .emit items consumed next → consumed ≤ input.length
  progress : ∀ {state input items consumed next},
    step state input = .emit items consumed next → 0 < consumed ∨ phase next < phase state
  stable : ∀ {state input} rest,
    step state input ≠ .more → step state (input ++ rest) = step state input

/-- The outcome of a run.  `error = none` means that the run stopped because it
needs more input. -/
structure Scan (σ ε ρ : Type) where
  items : List ρ
  consumed : Nat
  state : σ
  error : Option ε

variable {α σ ε ρ : Type} [AddAction Nat ρ]

/-- Put a scan behind `consumed` bytes that emitted `items`. -/
def Scan.after (items : List ρ) (consumed : Nat) (scan : Scan σ ε ρ) : Scan σ ε ρ where
  items := items ++ scan.items.map (consumed +ᵥ ·)
  consumed := consumed + scan.consumed
  state := scan.state
  error := scan.error

@[simp] theorem Scan.after_nil_zero (scan : Scan σ ε ρ) : scan.after [] 0 = scan := by
  simp [Scan.after]

theorem Scan.after_after (scan : Scan σ ε ρ) (first second : List ρ) (n k : Nat) :
    (scan.after second k).after first n =
      scan.after (first ++ second.map (n +ᵥ ·)) (n + k) := by
  simp [Scan.after, Nat.add_assoc, add_vadd]

namespace Scanner

variable (scanner : Scanner α σ ε ρ)

/-- Step until the scanner asks for more input or fails. -/
def run (state : σ) (input : List α) : Scan σ ε ρ :=
  match _covered : scanner.step state input with
  | .more => ⟨[], 0, state, none⟩
  | .fail error => ⟨[], 0, state, some error⟩
  | .emit items consumed next => (run next (input.drop consumed)).after items consumed
termination_by (input.length, scanner.phase state)
decreasing_by
  have bound := scanner.consumed_le _covered
  rw [Prod.lex_def]
  rcases scanner.progress _covered with moved | lower
  · left
    simp only [List.length_drop]
    omega
  · rcases Nat.eq_zero_or_pos consumed with zero | moved
    · right
      simp [zero, lower]
    · left
      simp only [List.length_drop]
      omega

variable {scanner}

theorem run_of_more {state : σ} {input : List α} (undecided : scanner.step state input = .more) :
    scanner.run state input = ⟨[], 0, state, none⟩ := by
  rw [run]
  split <;> simp_all

theorem run_of_fail {state : σ} {input : List α} {error : ε}
    (failed : scanner.step state input = .fail error) :
    scanner.run state input = ⟨[], 0, state, some error⟩ := by
  rw [run]
  split <;> simp_all

theorem run_of_emit {state next : σ} {input : List α} {items : List ρ} {consumed : Nat}
    (covered : scanner.step state input = .emit items consumed next) :
    scanner.run state input = (scanner.run next (input.drop consumed)).after items consumed := by
  conv_lhs => rw [run]
  split <;> simp_all

theorem run_consumed_le (state : σ) (input : List α) :
    (scanner.run state input).consumed ≤ input.length := by
  induction state, input using Scanner.run.induct scanner with
  | case1 state input undecided => simp [run_of_more undecided]
  | case2 state input error failed => simp [run_of_fail failed]
  | case3 state input items consumed next covered inductionHypothesis =>
      have bound := scanner.consumed_le covered
      rw [List.length_drop] at inductionHypothesis
      rw [run_of_emit covered]
      simp only [Scan.after]
      omega

/-- A scan that was not cut short by an error resumes: scanning a longer input
gives what scanning the prefix gave, followed by a scan of the unread rest from
the state reached.  A failed scan fails in the same way on every longer input. -/
theorem run_append (state : σ) (input rest : List α) :
    scanner.run state (input ++ rest) =
      match (scanner.run state input).error with
      | some _ => scanner.run state input
      | none =>
          (scanner.run (scanner.run state input).state
            ((input ++ rest).drop (scanner.run state input).consumed)).after
              (scanner.run state input).items (scanner.run state input).consumed := by
  induction state, input using Scanner.run.induct scanner with
  | case1 state input undecided => simp [run_of_more undecided]
  | case2 state input error failed =>
      have decided := scanner.stable rest (by rw [failed]; simp)
      rw [failed] at decided
      simp [run_of_fail failed, run_of_fail decided]
  | case3 state input items consumed next covered inductionHypothesis =>
      have decided := scanner.stable rest (by rw [covered]; simp)
      rw [covered] at decided
      have bound := scanner.consumed_le covered
      rw [run_of_emit covered, run_of_emit decided, List.drop_append_of_le_length bound,
        inductionHypothesis]
      cases failed : (scanner.run next (input.drop consumed)).error with
      | some error => simp [Scan.after, failed]
      | none =>
          simp only [Scan.after_after]
          simp [Scan.after, failed, ← List.drop_drop, List.drop_append_of_le_length bound]

/-! ### Windows -/

/-- Scan `file` through the windows `[base, hi)` for the given values of `hi`
and then to the end of the file, sliding the base by what each window consumed
and stopping at the first error. -/
def stream (scanner : Scanner α σ ε ρ) (file : List α) (state : σ) (base : Nat) :
    List Nat → Scan σ ε ρ
  | [] => (scanner.run state (file.drop base)).after [] base
  | hi :: cuts =>
      let window := scanner.run state ((file.take hi).drop base)
      let items := window.items.map (base +ᵥ ·)
      match window.error with
      | some error => ⟨items, base + window.consumed, window.state, some error⟩
      | none =>
          let tail := stream scanner file window.state (base + window.consumed) cuts
          { tail with items := items ++ tail.items }

private theorem drop_eq_window_append (file : List α) (base hi : Nat) :
    file.drop base = (file.take hi).drop base ++ file.drop (max base hi) := by
  rcases Nat.le_total base hi with below | above
  · rw [Nat.max_eq_right below, List.drop_take]
    conv_lhs => rw [← List.take_append_drop (hi - base) (file.drop base)]
    rw [List.drop_drop, Nat.add_sub_cancel' below]
  · have empty : (file.take hi).drop base = [] :=
      List.drop_eq_nil_of_le (by rw [List.length_take]; omega)
    rw [empty, Nat.max_eq_left above, List.nil_append]

/-- Windows do not matter: wherever the stream is cut, the scan is the scan of
the whole rest of the file. -/
theorem stream_eq_run (file : List α) (state : σ) (base : Nat) (cuts : List Nat) :
    scanner.stream file state base cuts =
      (scanner.run state (file.drop base)).after [] base := by
  induction cuts generalizing state base with
  | nil => rfl
  | cons hi cuts inductionHypothesis =>
      have resumed := scanner.run_append state ((file.take hi).drop base) (file.drop (max base hi))
      rw [← drop_eq_window_append] at resumed
      rw [stream, resumed]
      cases failed : (scanner.run state ((file.take hi).drop base)).error with
      | some error => simp [Scan.after, failed]
      | none =>
          simp only [inductionHypothesis, Scan.after_after]
          simp [Scan.after, add_vadd]

/-! ### Invariants along a run -/

/-- What every emitting step preserves holds of the state a run ends in. -/
theorem run_state {P : σ → Prop}
    (preserved : ∀ {state input items consumed next}, P state →
      scanner.step state input = .emit items consumed next → P next)
    {state : σ} (holds : P state) (input : List α) : P (scanner.run state input).state := by
  induction state, input using Scanner.run.induct scanner with
  | case1 state input undecided => rwa [run_of_more undecided]
  | case2 state input error failed => rwa [run_of_fail failed]
  | case3 state input items consumed next covered inductionHypothesis =>
      rw [run_of_emit covered]
      exact inductionHypothesis (preserved holds covered)

/-- If every step from an invariant state emits only items satisfying `Q` and
preserves the invariant, then every item of the run satisfies `Q`.  Positions
are absolute: `base` is where the unread input starts in `file`. -/
theorem run_forall (Invariant : Nat → σ → Prop) {Q : ρ → Prop} {file : List α}
    (stepHolds : ∀ {base state items consumed next}, Invariant base state →
      scanner.step state (file.drop base) = .emit items consumed next →
        (∀ item ∈ items, Q (base +ᵥ item)) ∧ Invariant (base + consumed) next)
    {base : Nat} {state : σ} (holds : Invariant base state) :
    ∀ item ∈ (scanner.run state (file.drop base)).items, Q (base +ᵥ item) := by
  generalize unread : file.drop base = input
  induction state, input using Scanner.run.induct scanner generalizing base with
  | case1 state input undecided => simp [run_of_more undecided]
  | case2 state input error failed => simp [run_of_fail failed]
  | case3 state input items consumed next covered inductionHypothesis =>
      obtain ⟨itemsHold, nextHolds⟩ := stepHolds holds (unread ▸ covered)
      have tail := inductionHypothesis nextHolds (by rw [← unread, List.drop_drop])
      intro item member
      rw [run_of_emit covered] at member
      simp only [Scan.after, List.mem_append, List.mem_map] at member
      rcases member with here | ⟨later, member, rfl⟩
      · exact itemsHold item here
      · rw [← add_vadd]
        exact tail later member

/-- What every step preserves, of the position, the state and everything emitted
so far, holds at the end of a run; and there the scanner has nothing more to
take. -/
theorem run_trace (Invariant : Nat → σ → List ρ → Prop) {file : List α}
    (stepHolds : ∀ {base state emitted items consumed next}, Invariant base state emitted →
      scanner.step state (file.drop base) = .emit items consumed next →
        Invariant (base + consumed) next (emitted ++ items.map (base +ᵥ ·)))
    {base : Nat} {state : σ} {emitted : List ρ} (holds : Invariant base state emitted) :
    let scan := scanner.run state (file.drop base)
    Invariant (base + scan.consumed) scan.state (emitted ++ scan.items.map (base +ᵥ ·)) ∧
      (scan.error = none → scanner.step scan.state (file.drop (base + scan.consumed)) = .more) ∧
      ∀ error, scan.error = some error →
        scanner.step scan.state (file.drop (base + scan.consumed)) = .fail error := by
  generalize unread : file.drop base = input
  induction state, input using Scanner.run.induct scanner generalizing base emitted with
  | case1 state input undecided =>
      rw [run_of_more undecided]
      exact ⟨by simpa using holds, fun _ => by rw [Nat.add_zero, unread, undecided], by simp⟩
  | case2 state input error failed =>
      rw [run_of_fail failed]
      refine ⟨by simpa using holds, by simp, fun _ same => ?_⟩
      rw [Nat.add_zero, unread, failed, Option.some.inj same]
  | case3 state input items consumed next covered inductionHypothesis =>
      have tail := inductionHypothesis (stepHolds holds (unread ▸ covered))
        (by rw [← unread, List.drop_drop])
      rw [run_of_emit covered]
      simpa [Scan.after, Function.comp_def, Nat.add_assoc, add_vadd] using tail

end Scanner

end Nanotins.Library
