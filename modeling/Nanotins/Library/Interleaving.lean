import Mathlib.Data.List.Basic
import Mathlib.Data.List.Perm.Basic

/-!
Contract: runs of several programs whose actions are interleaved arbitrarily.

Owns: the interleaving relation, that every interleaving is a permutation of
the programs' actions, that the programs may be listed in any order, that
running them one after the other in any order is an interleaving, and that a
program may be cut into several.

Does not own: what an action does.
-/

namespace Nanotins.Library

variable {α : Type}

/-- `trace` runs every program to its end, each in its own order, switching
between them arbitrarily. -/
inductive Interleaving : List (List α) → List α → Prop where
  | done {programs : List (List α)} (finished : ∀ program ∈ programs, program = []) :
      Interleaving programs []
  | step (before after : List (List α)) {action : α} {rest trace : List α}
      (continued : Interleaving (before ++ rest :: after) trace) :
      Interleaving (before ++ (action :: rest) :: after) (action :: trace)

namespace Interleaving

variable {programs : List (List α)} {trace : List α}

theorem perm (schedule : Interleaving programs trace) : trace.Perm programs.flatten := by
  induction schedule with
  | done finished => rw [List.flatten_eq_nil_iff.mpr finished]
  | step before after _ inductionHypothesis =>
      refine (inductionHypothesis.cons _).trans ?_
      simp only [List.flatten_append, List.flatten_cons]
      exact List.perm_middle.symm

private theorem cons_nil (schedule : Interleaving programs trace) :
    Interleaving ([] :: programs) trace := by
  induction schedule with
  | done finished => exact .done (by simpa using finished)
  | step before after _ inductionHypothesis =>
      exact .step ([] :: before) after inductionHypothesis

/-- A program may run to its end before the others start. -/
theorem cons (program : List α) (schedule : Interleaving programs trace) :
    Interleaving (program :: programs) (program ++ trace) := by
  induction program with
  | nil => exact cons_nil schedule
  | cons action rest inductionHypothesis =>
      exact .step [] programs inductionHypothesis

/-- Running the programs one after the other is an interleaving. -/
theorem sequential (programs : List (List α)) : Interleaving programs programs.flatten := by
  induction programs with
  | nil => exact .done (by simp)
  | cons program rest inductionHypothesis => exact cons program inductionHypothesis

/-- The order in which the programs are listed does not matter. -/
theorem of_perm {listed : List (List α)} (schedule : Interleaving programs trace)
    (relisted : programs.Perm listed) : Interleaving listed trace := by
  induction schedule generalizing listed with
  | done finished => exact .done fun program member => finished program (relisted.mem_iff.mpr member)
  | @step before after action rest _ _ inductionHypothesis =>
      have member : (action :: rest) ∈ listed := relisted.mem_iff.mp (by simp)
      obtain ⟨front, back, rfl⟩ := List.append_of_mem member
      have others : (before ++ after).Perm (front ++ back) :=
        (List.perm_middle.symm.trans (relisted.trans List.perm_middle)).cons_inv
      apply step
      apply inductionHypothesis
      exact List.perm_middle.trans ((others.cons rest).trans List.perm_middle.symm)

/-- Running the programs one after the other in any order is an interleaving. -/
theorem of_order {order : List (List α)} (reordered : order.Perm programs) :
    Interleaving programs order.flatten :=
  of_perm (sequential order) reordered

private theorem of_cons_nil (schedule : Interleaving ([] :: programs) trace) :
    Interleaving programs trace := by
  generalize listed : [] :: programs = whole at schedule
  induction schedule generalizing programs with
  | done finished =>
      subst listed
      exact .done fun program member => finished program (List.mem_cons_of_mem _ member)
  | step before after continued inductionHypothesis =>
      cases before with
      | nil => exact absurd (List.cons.inj listed).1 (List.cons_ne_nil _ _).symm
      | cons first before =>
          obtain ⟨rfl, rfl⟩ := List.cons.inj listed
          exact .step before after (inductionHypothesis rfl)

/-- A program may be cut in two, whose actions need not stay in order. -/
theorem cut {front back : List α} (schedule : Interleaving ((front ++ back) :: programs) trace) :
    Interleaving (front :: back :: programs) trace := by
  generalize listed : (front ++ back) :: programs = whole at schedule
  induction schedule generalizing front back programs with
  | done finished =>
      subst listed
      obtain ⟨rfl, rfl⟩ := List.append_eq_nil_iff.mp (finished _ List.mem_cons_self)
      exact cons_nil (.done finished)
  | step before after continued inductionHypothesis =>
      cases before with
      | cons first before =>
          obtain ⟨rfl, rfl⟩ := List.cons.inj listed
          exact .step (front :: back :: before) after (inductionHypothesis rfl)
      | nil =>
          obtain ⟨here, rfl⟩ := List.cons.inj listed
          cases front with
          | nil =>
              subst here
              exact cons_nil (.step [] _ continued)
          | cons action front =>
              obtain ⟨rfl, rfl⟩ := List.cons.inj here
              exact .step [] _ (inductionHypothesis rfl)

private theorem ungroup {group : List (List α)}
    (schedule : Interleaving (group.flatten :: programs) trace) :
    Interleaving (group ++ programs) trace := by
  induction group generalizing programs with
  | nil => exact of_cons_nil schedule
  | cons program group inductionHypothesis =>
      have swapped := (cut schedule).of_perm (List.Perm.swap _ _ _)
      exact (inductionHypothesis swapped).of_perm List.perm_middle

/-- What runs groups of programs, each group in its order, runs the programs. -/
theorem of_groups {groups : List (List (List α))}
    (schedule : Interleaving (groups.map List.flatten) trace) :
    Interleaving groups.flatten trace := by
  have beside : ∀ others : List (List α),
      Interleaving (groups.map List.flatten ++ others) trace →
        Interleaving (groups.flatten ++ others) trace := by
    clear schedule
    induction groups with
    | nil => exact fun _ schedule => schedule
    | cons group groups inductionHypothesis =>
        intro others schedule
        have first := (ungroup schedule).of_perm
          (List.perm_append_comm_assoc group (groups.map List.flatten) others)
        have rest := inductionHypothesis (group ++ others) first
        rw [List.flatten_cons, List.append_assoc]
        exact rest.of_perm (List.perm_append_comm_assoc groups.flatten group others)
  have alone := beside []
  rw [List.append_nil, List.append_nil] at alone
  exact alone schedule

end Interleaving

end Nanotins.Library
