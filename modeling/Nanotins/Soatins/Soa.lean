import Nanotins.Library.PartialRun
import Nanotins.Soatins.Reflect

/-!
Contract: columnar storage of described rows, `soa<T, N>` and `soa<T>` of
`reflect.hpp`.

Owns: storing, appending and clearing with what each does to the rows held, and
that appending rows to either storage fills its columns with them (`appendAll_eq`,
`storeAll_eq`).

Does not own: who stores rows, or when.

The arrays of a fixed extent are never initialized, so a new one holds arbitrary
values.  Storing behind the extent faults.
-/

namespace Nanotins.Soatins

open Nanotins.Library

variable {Row : Type} {cols : List (Column Row)}

/-! ### Fixed extent -/

/-- `soa<T, N>`; the first `size` slots of each column are occupied. -/
structure Soa (cols : List (Column Row)) (N : Nat) where
  columns : (c : Fin cols.length) → Vector (cols.get c).elem.Value N
  size : Nat

namespace Soa

variable {N : Nat}

/-- Scatter one row into slot `i`. -/
def store (soa : Soa cols N) (i : Nat) (row : Row) : Option (Soa cols N) :=
  if inside : i < N then
    some { soa with columns := fun c => (soa.columns c).set i ((cols.get c).get row) inside }
  else none

/-- Append at the occupied counter; the flag says that the storage is full now. -/
def append (soa : Soa cols N) (row : Row) : Option (Soa cols N × Bool) := do
  let stored ← soa.store soa.size row
  let size := soa.size + 1
  return ({ stored with size := size }, decide (N ≤ size))

/-- The storage is kept as it is. -/
def clear (soa : Soa cols N) : Soa cols N := { soa with size := 0 }

/-- The occupied slots of a column. -/
def rows (soa : Soa cols N) (c : Fin cols.length) : List (cols.get c).elem.Value :=
  (soa.columns c).toList.take soa.size

@[simp] theorem size_clear (soa : Soa cols N) : soa.clear.size = 0 := rfl

@[simp] theorem rows_clear (soa : Soa cols N) (c : Fin cols.length) : soa.clear.rows c = [] := rfl

theorem append_of_full {soa : Soa cols N} {row : Row} (full : N ≤ soa.size) :
    soa.append row = none := by
  rw [append, store, dif_neg (Nat.not_lt.mpr full)]
  rfl

/-- A row that fits is added behind the occupied slots of every column. -/
theorem append_of_lt {soa : Soa cols N} (row : Row) (room : soa.size < N) :
    ∃ after : Soa cols N, soa.append row = some (after, decide (N ≤ soa.size + 1)) ∧
      after.size = soa.size + 1 ∧ ∀ c, after.rows c = soa.rows c ++ [(cols.get c).get row] := by
  refine ⟨_, by rw [append, store, dif_pos room]; rfl, rfl, ?_⟩
  intro c
  have here :
      soa.size < ((soa.columns c).set soa.size ((cols.get c).get row) room).toList.length := by
    rw [Vector.length_toList]
    exact room
  change ((soa.columns c).set soa.size ((cols.get c).get row) room).toList.take (soa.size + 1) = _
  rw [List.take_succ_eq_append_getElem here, Vector.getElem_toList, Vector.getElem_set_self,
    Vector.toList_set, List.take_set_of_le (Nat.le_refl _)]
  rfl

/-- Appending rows one after the other. -/
def appendAll (soa : Soa cols N) (rows : List Row) : Option (Soa cols N) :=
  runSteps (fun soa row => (soa.append row).map Prod.fst) soa rows

theorem appendAll_eq {soa : Soa cols N} {rows : List Row} (room : soa.size + rows.length ≤ N) :
    ∃ after, soa.appendAll rows = some after ∧ after.size = soa.size + rows.length ∧
      ∀ c, after.rows c = soa.rows c ++ rows.map (cols.get c).get := by
  unfold appendAll
  induction rows generalizing soa with
  | nil =>
      refine ⟨soa, rfl, rfl, ?_⟩
      intro c
      rw [List.map_nil, List.append_nil]
  | cons row rows inductionHypothesis =>
      rw [List.length_cons] at room ⊢
      obtain ⟨behind, appended, size, here⟩ := append_of_lt row (by omega : soa.size < N)
      obtain ⟨after, ran, total, there⟩ := inductionHypothesis (by omega : behind.size + _ ≤ N)
      refine ⟨after, ?_, by omega, ?_⟩
      · rw [runSteps_cons, appended]
        exact ran
      · intro c
        rw [there c, here c, List.map_cons, List.append_assoc, List.singleton_append]

end Soa

/-! ### Run-time extent -/

/-- `soa<T>`. -/
structure DynamicSoa (cols : List (Column Row)) where
  size : Nat
  columns : (c : Fin cols.length) → Vector (cols.get c).elem.Value size

namespace DynamicSoa

def empty : DynamicSoa cols := ⟨0, fun _ => #v[]⟩

/-- Slots behind the old size hold zeros. -/
def resize (soa : DynamicSoa cols) (n : Nat) : DynamicSoa cols where
  size := n
  columns := fun c => Vector.ofFn fun i => (soa.columns c)[i.val]?.getD (cols.get c).elem.default

/-- Scatter one row into slot `i`. -/
def store (soa : DynamicSoa cols) (i : Nat) (row : Row) : Option (DynamicSoa cols) :=
  if inside : i < soa.size then
    some { soa with columns := fun c => (soa.columns c).set i ((cols.get c).get row) inside }
  else none

/-- Storing rows from slot `i` on. -/
def storeAll (soa : DynamicSoa cols) (rows : List Row) (i : Nat) : Option (DynamicSoa cols) :=
  runSteps (fun soa indexed => soa.store indexed.2 indexed.1) soa (rows.zipIdx i)

theorem storeAll_eq {soa : DynamicSoa cols} {rows : List Row} {i : Nat}
    (exact : soa.size = i + rows.length) :
    ∃ after, soa.storeAll rows i = some after ∧ after.size = soa.size ∧
      ∀ c, (after.columns c).toList =
        (soa.columns c).toList.take i ++ rows.map (cols.get c).get := by
  unfold storeAll
  induction rows generalizing soa i with
  | nil =>
      refine ⟨soa, rfl, rfl, ?_⟩
      intro c
      rw [List.map_nil, List.append_nil, List.take_of_length_le]
      rw [Vector.length_toList]
      exact Nat.le_of_eq exact
  | cons row rows inductionHypothesis =>
      rw [List.length_cons] at exact
      have inside : i < soa.size := by omega
      obtain ⟨after, ran, size, there⟩ := inductionHypothesis
        (by dsimp only; omega :
          DynamicSoa.size ⟨soa.size, fun c => (soa.columns c).set i ((cols.get c).get row) inside⟩ =
            i + 1 + rows.length)
      refine ⟨after, ?_, size, ?_⟩
      · rw [List.zipIdx_cons, runSteps_cons, store, dif_pos inside]
        exact ran
      · intro c
        have here : i < ((soa.columns c).set i ((cols.get c).get row) inside).toList.length := by
          rw [Vector.length_toList]
          exact inside
        rw [there c, List.take_succ_eq_append_getElem here, Vector.getElem_toList,
          Vector.getElem_set_self, Vector.toList_set, List.take_set_of_le (Nat.le_refl _),
          List.map_cons, List.append_assoc, List.singleton_append]

/-- `soa<T>` made to hold the rows. -/
def ofRows (rows : List Row) : Option (DynamicSoa cols) :=
  (empty.resize rows.length).storeAll rows 0

theorem ofRows_eq (rows : List Row) :
    ∃ soa : DynamicSoa cols, ofRows rows = some soa ∧ soa.size = rows.length ∧
      ∀ c, (soa.columns c).toList = rows.map (cols.get c).get :=
  storeAll_eq (Nat.zero_add _).symm

end DynamicSoa

end Nanotins.Soatins
