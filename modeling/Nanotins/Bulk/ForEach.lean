import Nanotins.Library.CountScatter
import Nanotins.Library.IntervalCut

/-!
Contract: the executors of `bulk.hpp`.

Owns: `bulk_for_each` over stdexec's `bulk`, `serial_for_each`, that the task ranges
cut the indices without gap or overlap so that both call the kernel once for each index
(`bulkForEach_once`), and that a pass of the bulk decoders run by `bulk_for_each` is one
of the schedules they are proved for.

Does not own: stdexec, whose `bulk` is a parameter.
-/

namespace Nanotins.Bulk

open Nanotins.Library

/-! ### Executors -/

section Executors

variable {α : Type}

/-- stdexec's `bulk`: what the calls `body 0` to `body (shape - 1)` may do together,
where `body task` is what the call for `task` does. -/
abbrev StdexecBulk (α : Type) := (shape : Nat) → (body : Nat → List α) → List α → Prop

/-- `bulk` comes to an end, and has then called its function once for each index, in
any order or concurrently. -/
structure StdexecBulk.Documented (bulk : StdexecBulk α) : Prop where
  completes : ∀ shape body, ∃ trace, bulk shape body trace
  once : ∀ shape body trace, bulk shape body trace →
    Interleaving ((List.range shape).map body) trace

/-- Call the kernel for each index from `i` until `stop`. -/
def runRange (k : Nat → List α) (i stop : Nat) : List α :=
  if i < stop then k i ++ runRange k (i + 1) stop else []
termination_by stop - i

/-- `size_t` arithmetic. -/
def rangeStart (numTasks n task : Nat) : Nat := task * n % 2 ^ 64 / numTasks

def rangeEnd (numTasks n task : Nat) : Nat := (task + 1) % 2 ^ 64 * n % 2 ^ 64 / numTasks

/-- No tasks count as one. -/
def taskCount (numTasks : Nat) : Nat := if numTasks = 0 then 1 else numTasks

/-- The indices of a task. -/
def taskRange (numTasks n task : Nat) : Set Nat :=
  Set.Ico (rangeStart (taskCount numTasks) n task) (rangeEnd (taskCount numTasks) n task)

/-- What `bulk_for_each` may do, where `k i` is what call `i` of the kernel does. -/
def bulkForEach (bulk : StdexecBulk α) (numTasks n : Nat) (k : Nat → List α) (trace : List α) :
    Prop :=
  let numTasks := taskCount numTasks
  bulk numTasks
    (fun task => runRange k (rangeStart numTasks n task) (rangeEnd numTasks n task)) trace

/-- What `serial_for_each` does; it ignores the number of tasks. -/
def serialForEach (_numTasks n : Nat) (k : Nat → List α) : List α := runRange k 0 n

end Executors

/-! ### Ranges -/

section Ranges

variable {α : Type} {numTasks n task : Nat}

theorem taskCount_pos (numTasks : Nat) : 0 < taskCount numTasks := by
  unfold taskCount
  split
  · exact Nat.one_pos
  · next some => exact Nat.pos_of_ne_zero some

theorem mul_taskCount_lt (size : n < 2 ^ 64) (bounded : n * numTasks < 2 ^ 64) :
    n * taskCount numTasks < 2 ^ 64 := by
  unfold taskCount
  split
  · rwa [Nat.mul_one]
  · exact bounded

/-- Up to the last task no product wraps. -/
theorem mul_mod_of_le (bounded : n * numTasks < 2 ^ 64) (inside : task ≤ numTasks) :
    task * n % 2 ^ 64 = task * n := by
  apply Nat.mod_eq_of_lt
  rw [Nat.mul_comm] at bounded
  exact Nat.lt_of_le_of_lt (Nat.mul_le_mul_right n inside) bounded

theorem rangeStart_eq (bounded : n * numTasks < 2 ^ 64) (inside : task < numTasks) :
    rangeStart numTasks n task = evenCut n numTasks task := by
  rw [rangeStart, mul_mod_of_le bounded (Nat.le_of_lt inside), evenCut]

theorem rangeEnd_eq (bounded : n * numTasks < 2 ^ 64) (inside : task < numTasks) :
    rangeEnd numTasks n task = evenCut n numTasks (task + 1) := by
  rw [rangeEnd, Nat.mod_mul_mod, mul_mod_of_le bounded (Nat.succ_le_of_lt inside), evenCut]

theorem taskRange_eq (size : n < 2 ^ 64) (bounded : n * numTasks < 2 ^ 64)
    (inside : task < taskCount numTasks) :
    taskRange numTasks n task = Set.Ico (evenCut n (taskCount numTasks) task)
      (evenCut n (taskCount numTasks) (task + 1)) := by
  have products := mul_taskCount_lt size bounded
  rw [taskRange, rangeStart_eq products inside, rangeEnd_eq products inside]

theorem runRange_eq (k : Nat → List α) (i stop : Nat) :
    runRange k i stop = (List.range' i (stop - i)).flatMap k := by
  induction i using runRange.induct stop with
  | case1 i inside inductionHypothesis =>
      have more : stop - i = (stop - (i + 1)) + 1 := by omega
      rw [runRange, if_pos inside, inductionHypothesis, more, List.range'_succ, List.flatMap_cons]
  | case2 i outside =>
      have none : stop - i = 0 := by omega
      rw [runRange, if_neg outside, none]
      rfl

theorem serialForEach_eq (numTasks n : Nat) (k : Nat → List α) :
    serialForEach numTasks n k = (List.range n).flatMap k := by
  rw [serialForEach, runRange_eq, Nat.sub_zero, ← List.range_eq_range']

end Ranges

/-! ### Every index once -/

section Once

variable {α : Type} {bulk : StdexecBulk α} {numTasks n : Nat}

/-- What the tasks do, range by range. -/
theorem map_runRange {tasks : Nat} (bounded : n * tasks < 2 ^ 64) (k : Nat → List α) :
    (List.range tasks).map (fun task =>
        runRange k (rangeStart tasks n task) (rangeEnd tasks n task)) =
      ((List.range tasks).map fun task =>
        (List.range' (evenCut n tasks task)
          (evenCut n tasks (task + 1) - evenCut n tasks task)).map k).map List.flatten := by
  rw [List.map_map]
  apply List.map_congr_left
  intro task member
  have inside := List.mem_range.mp member
  rw [rangeStart_eq bounded inside, rangeEnd_eq bounded inside, runRange_eq, List.flatMap_def]
  rfl

/-- The tasks together call the kernel once for each index. -/
theorem interleaving_of_bulkForEach (documented : bulk.Documented) (size : n < 2 ^ 64)
    (bounded : n * numTasks < 2 ^ 64) {k : Nat → List α} {trace : List α}
    (ran : bulkForEach bulk numTasks n k trace) :
    Interleaving ((List.range n).map k) trace := by
  have schedule := documented.once _ _ _ ran
  rw [map_runRange (mul_taskCount_lt size bounded)] at schedule
  have calls := schedule.of_groups
  rwa [← List.flatMap_def, ← List.map_flatMap,
    flatMap_range'_evenCut (taskCount_pos numTasks)] at calls

/-- The task ranges are disjoint and make up the indices; `serial_for_each` calls the
kernel for the indices in order, and `bulk_for_each` comes to an end and makes the same
calls, in some order; `n` is a `size_t`. -/
theorem bulkForEach_once (documented : bulk.Documented) (size : n < 2 ^ 64)
    (bounded : n * numTasks < 2 ^ 64) :
    (Set.Iio (taskCount numTasks)).PairwiseDisjoint (taskRange numTasks n) ∧
      ⋃ task ∈ Set.Iio (taskCount numTasks), taskRange numTasks n task = Set.Ico 0 n ∧
      ∀ k : Nat → List α, serialForEach numTasks n k = (List.range n).flatMap k ∧
        (∃ trace, bulkForEach bulk numTasks n k trace) ∧
        ∀ trace, bulkForEach bulk numTasks n k trace →
          trace.Perm ((List.range n).flatMap k) := by
  refine ⟨?_, ?_, fun k => ⟨?_, documented.completes _ _, fun trace ran => ?_⟩⟩
  · intro task inside task' inside' apart
    have disjoint := pairwiseDisjoint_cut (monotone_evenCut n (taskCount numTasks)) _ inside
      inside' apart
    change Disjoint (taskRange numTasks n task) (taskRange numTasks n task')
    rw [taskRange_eq size bounded inside, taskRange_eq size bounded inside']
    exact disjoint
  · have ranges := Set.iUnion₂_congr fun task (inside : task ∈ Set.Iio (taskCount numTasks)) =>
      taskRange_eq size bounded inside
    exact ranges.trans (biUnion_evenCut (taskCount_pos numTasks) n)
  · exact serialForEach_eq numTasks n k
  · rw [List.flatMap_def]
    exact (interleaving_of_bulkForEach documented size bounded ran).perm

/-- A bulk whose tasks run concurrently, on eight tasks for five indices. -/
theorem bulkForEach_once_five :
    let bulk : StdexecBulk Nat := fun shape body => Interleaving ((List.range shape).map body)
    (Set.Iio (taskCount 8)).PairwiseDisjoint (taskRange 8 5) ∧
      ⋃ task ∈ Set.Iio (taskCount 8), taskRange 8 5 task = Set.Ico 0 5 ∧
      ∀ k : Nat → List Nat, serialForEach 8 5 k = (List.range 5).flatMap k ∧
        (∃ trace, bulkForEach bulk 8 5 k trace) ∧
        ∀ trace, bulkForEach bulk 8 5 k trace → trace.Perm ((List.range 5).flatMap k) :=
  bulkForEach_once
    ⟨fun _ _ => ⟨_, .sequential _⟩, fun _ _ _ schedule => schedule⟩ (by decide) (by decide)

/-- The schedules of a bulk decoder's kernels are what `bulk_for_each` may do with them. -/
theorem interleaving_kernels (documented : bulk.Documented) {kernels : List (List α)}
    (size : kernels.length < 2 ^ 64) (bounded : kernels.length * numTasks < 2 ^ 64)
    {trace : List α}
    (ran : bulkForEach bulk numTasks kernels.length (fun i => kernels.getD i []) trace) :
    Interleaving kernels trace := by
  have calls : (List.range kernels.length).map (fun i => kernels.getD i []) = kernels := by
    apply List.ext_getElem
    · rw [List.length_map, List.length_range]
    · intro i inside inside'
      rw [List.getElem_map, List.getElem_range, List.getD_eq_getElem?_getD,
        List.getElem?_eq_getElem inside', Option.getD_some]
  have schedule := interleaving_of_bulkForEach documented size bounded ran
  rwa [calls] at schedule

end Once

/-! ### Bulk decoders -/

/-- The decoders call their executor for `np` packets in `min(np, 64)` tasks; what
`bulk_for_each` then does is a schedule of their scatter pass. -/
theorem countScatter_of_bulkForEach {S : Schema} {bulk : StdexecBulk (Write S)}
    (documented : bulk.Documented) {M : Nat} {Packet : Type} {count : Packet → Counters S}
    {scatter : Counters S → Packet → List (Write S)} (store : Store S) {packets : List Packet}
    (few : packets.length < 2 ^ 58) {trace : List (Write S)}
    (ran : bulkForEach bulk (min packets.length 64) packets.length
      (fun i => (List.zipWith scatter (exclusiveScan M (store.seed M) (packets.map count))
        packets).getD i []) trace) :
    store.CountScatter M count scatter packets
      ((store.resize (scanTotal M (store.seed M) (packets.map count))).writeAll trace) := by
  have length : (List.zipWith scatter (exclusiveScan M (store.seed M) (packets.map count))
      packets).length = packets.length := by
    rw [List.length_zipWith, length_exclusiveScan, List.length_map, Nat.min_self]
  have products : packets.length * min packets.length 64 < 2 ^ 64 :=
    Nat.lt_of_le_of_lt (Nat.mul_le_mul_left _ (Nat.min_le_right _ _)) (by omega)
  rw [← length] at ran products
  exact ⟨trace, interleaving_kernels documented (by omega) products ran, rfl⟩

end Nanotins.Bulk
