import Nanotins.Library.ColumnStore
import Nanotins.Library.Interleaving

/-!
Contract: filling tables in parallel by counting rows, scanning the counts into
slot ranges, and scattering each packet's rows into its own range.

Owns: counters that wrap at a modulus, the exclusive scan, the scatter pass,
the theorem `Store.scatters_eq` (whatever the schedule, the tables end up as if
the rows had been appended one by one), the rule for a sequence of batches, and
the same for passes given by functions that count and scatter one packet.

Does not own: what the rows of a packet are.
-/

namespace Nanotins.Library

variable {S : Schema}

/-- One counter for each table. -/
abbrev Counters (S : Schema) := S.Table → Nat

/-! ### Wrapping counters -/

section Counters

variable (M : Nat)

def addCounts (first second : Counters S) : Counters S :=
  fun table => (first table + second table) % M

/-- Increment the counter of one table. -/
def bump (counters : Counters S) (table : S.Table) : Counters S :=
  Function.update counters table ((counters table + 1) % M)

/-- Count rows from the given counters on. -/
def countRows (counters : Counters S) (rows : List (Row S)) : Counters S :=
  rows.foldl (fun counters row => bump M counters row.table) counters

/-- The running sum of `counts` before each of them, from `seed`. -/
def exclusiveScan (seed : Counters S) : List (Counters S) → List (Counters S)
  | [] => []
  | counts :: rest => seed :: exclusiveScan (addCounts M seed counts) rest

def scanTotal (seed : Counters S) (counts : List (Counters S)) : Counters S :=
  counts.foldl (addCounts M) seed

/-- The slot writes for one packet's rows, each table's cursor starting at
`cursor`. -/
def scatterRows (cursor : Counters S) : List (Row S) → List (Write S)
  | [] => []
  | row :: rows =>
      row.writes (cursor row.table) ++ scatterRows (bump M cursor row.table) rows

variable {M}

theorem length_exclusiveScan (seed : Counters S) (counts : List (Counters S)) :
    (exclusiveScan M seed counts).length = counts.length := by
  induction counts generalizing seed with
  | nil => rfl
  | cons first counts inductionHypothesis => exact congrArg (· + 1) (inductionHypothesis _)

theorem countRows_cons (counters : Counters S) (row : Row S) (rows : List (Row S)) :
    countRows M counters (row :: rows) = countRows M (bump M counters row.table) rows :=
  rfl

theorem bump_lt {counters : Counters S} (bounded : ∀ table, counters table < M)
    (incremented table : S.Table) : bump M counters incremented table < M := by
  have := bounded incremented
  by_cases same : table = incremented
  · rw [bump, same, Function.update_self]
    exact Nat.mod_lt _ (by omega)
  · rw [bump, Function.update_of_ne same]
    exact bounded table

/-- Counting adds the number of rows of each table, modulo `M`. -/
theorem countRows_apply {counters : Counters S} (bounded : ∀ table, counters table < M)
    (rows : List (Row S)) (table : S.Table) :
    countRows M counters rows table =
      (counters table + rows.countP fun row => row.table = table) % M := by
  induction rows generalizing counters with
  | nil => exact (Nat.mod_eq_of_lt (bounded table)).symm
  | cons row rows inductionHypothesis =>
      rw [countRows_cons, inductionHypothesis (bump_lt bounded row.table)]
      by_cases same : row.table = table
      · subst same
        simp only [bump, Function.update_self, decide_true, List.countP_cons_of_pos, Nat.mod_add_mod]
        congr 1
        omega
      · rw [List.countP_cons_of_neg (by simpa using same), bump,
          Function.update_of_ne (Ne.symm same)]

/-- Adding a packet's counts to its base gives the cursors that its scatter
pass ends with. -/
theorem addCounts_countRows {seed : Counters S} (bounded : ∀ table, seed table < M)
    (rows : List (Row S)) :
    addCounts M seed (countRows M (fun _ => 0) rows) = countRows M seed rows := by
  funext table
  have positive : ∀ _ : S.Table, 0 < M := fun _ => by have := bounded table; omega
  rw [addCounts, countRows_apply positive, countRows_apply bounded, Nat.zero_add,
    Nat.add_mod_mod]

theorem countRows_lt {counters : Counters S} (bounded : ∀ table, counters table < M)
    (rows : List (Row S)) (table : S.Table) : countRows M counters rows table < M := by
  have := bounded table
  rw [countRows_apply bounded]
  exact Nat.mod_lt _ (by omega)

theorem scatterRows_append (cursor : Counters S) (front back : List (Row S)) :
    scatterRows M cursor (front ++ back) =
      scatterRows M cursor front ++ scatterRows M (countRows M cursor front) back := by
  induction front generalizing cursor with
  | nil => rfl
  | cons row rows inductionHypothesis =>
      rw [List.cons_append, scatterRows, scatterRows, inductionHypothesis, countRows_cons,
        List.append_assoc]

end Counters

/-! ### The kernels of one batch -/

section Kernels

variable (M : Nat)

/-- The writes of each packet's scatter kernel, for the rows of each packet of
a batch. -/
def kernels (seed : Counters S) (packets : List (List (Row S))) : List (List (Write S)) :=
  List.zipWith (scatterRows M)
    (exclusiveScan M seed (packets.map (countRows M fun _ => 0))) packets

variable {M}

/-- Run in packet order, the kernels scatter the rows of the whole batch. -/
theorem flatten_kernels {seed : Counters S} (bounded : ∀ table, seed table < M)
    (packets : List (List (Row S))) :
    (kernels M seed packets).flatten = scatterRows M seed packets.flatten := by
  induction packets generalizing seed with
  | nil => rfl
  | cons rows packets inductionHypothesis =>
      have tail := inductionHypothesis (countRows_lt bounded rows)
      rw [kernels] at tail ⊢
      rw [List.map_cons, exclusiveScan, List.zipWith_cons_cons, List.flatten_cons,
        addCounts_countRows bounded, tail, List.flatten_cons, scatterRows_append]

theorem scanTotal_countRows {seed : Counters S} (bounded : ∀ table, seed table < M)
    (packets : List (List (Row S))) :
    scanTotal M seed (packets.map (countRows M fun _ => 0)) = countRows M seed packets.flatten := by
  induction packets generalizing seed with
  | nil => rfl
  | cons rows packets inductionHypothesis =>
      have tail := inductionHypothesis (countRows_lt bounded rows)
      rw [scanTotal] at tail ⊢
      rw [List.map_cons, List.foldl_cons, addCounts_countRows bounded, tail, List.flatten_cons,
        countRows, countRows, countRows, List.foldl_append]

/-- As long as no counter wraps, the scatter pass fills consecutive slots of
each column with the cells of that column. -/
theorem writesTo_scatterRows {cursor : Counters S} {rows : List (Row S)} (col : S.Col)
    (fits : cursor (S.tableOf col) + (cellsOf col rows).length < M) :
    writesTo col (scatterRows M cursor rows) =
      fillWrites (cursor (S.tableOf col)) (cellsOf col rows) := by
  induction rows generalizing cursor with
  | nil => rfl
  | cons row rows inductionHypothesis =>
      rw [scatterRows, writesTo_append, writesTo_row]
      by_cases here : row.table = S.tableOf col
      · have cells : cellsOf col (row :: rows) = row.cell col :: cellsOf col rows := by
          simp [cellsOf, here]
        rw [cells, List.length_cons] at fits
        have next : bump M cursor row.table (S.tableOf col) = cursor (S.tableOf col) + 1 := by
          rw [bump, here, Function.update_self, Nat.mod_eq_of_lt (by omega)]
        rw [inductionHypothesis (by rw [next]; omega), next, cells, if_pos here, here]
        rfl
      · have cells : cellsOf col (row :: rows) = cellsOf col rows := by
          simp [cellsOf, here]
        have next : bump M cursor row.table (S.tableOf col) = cursor (S.tableOf col) := by
          rw [bump, Function.update_of_ne (Ne.symm here)]
        rw [cells] at fits
        rw [inductionHypothesis (by rwa [next]), next, cells, if_neg here]
        rfl

/-- Whatever its cursors, a kernel issues the cells of its rows in order. -/
theorem map_snd_writesTo_scatterRows (cursor : Counters S) (rows : List (Row S)) (col : S.Col) :
    (writesTo col (scatterRows M cursor rows)).map Prod.snd = cellsOf col rows := by
  induction rows generalizing cursor with
  | nil => rfl
  | cons row rows inductionHypothesis =>
      rw [scatterRows, writesTo_append, writesTo_row, List.map_append, inductionHypothesis,
        cellsOf_cons]
      split <;> rfl

end Kernels

/-! ### One batch -/

section Batch

variable {M : Nat} {store : Store S}

/-- The table sizes, truncated to the counter width. -/
def Store.seed (M : Nat) (store : Store S) : Counters S := fun table => store.height table % M

/-- The outcome of one count, scan, resize and scatter pass under some schedule
of the kernels' slot writes. -/
def Store.Scatters (M : Nat) (store : Store S) (packets : List (List (Row S)))
    (outcome : Option (Store S)) : Prop :=
  ∃ trace, Interleaving (kernels M (store.seed M) packets) trace ∧
    outcome = (store.resize (scanTotal M (store.seed M)
      (packets.map (countRows M fun _ => 0)))).writeAll trace

theorem Store.seed_apply {table : S.Table} (bounded : store.height table < M) :
    store.seed M table = store.height table :=
  Nat.mod_eq_of_lt bounded

private theorem mem_writesTo {w : Write S} {writes : List (Write S)} (member : w ∈ writes) :
    (w.slot, w.value) ∈ writesTo w.col writes :=
  List.mem_filterMap.mpr ⟨w, member, if_pos rfl⟩

/-- In whatever order the slot writes are performed, none leaves its column, and
the tables end up as if the rows had been appended one by one. -/
theorem Store.writeAll_of_perm {packets : List (List (Row S))} {trace : List (Write S)}
    (rectangular : store.Rectangular)
    (bounded : ∀ table, (store.appendAll packets.flatten).height table < M)
    (permuted : trace.Perm (kernels M (store.seed M) packets).flatten) :
    (store.resize (scanTotal M (store.seed M) (packets.map (countRows M fun _ => 0)))).writeAll
      trace = some (store.appendAll packets.flatten) := by
  have small : ∀ table, store.height table < M := by
    intro table
    have := bounded table
    rw [height_appendAll] at this
    omega
  have seedLt : ∀ table, store.seed M table < M := fun table => by
    rw [seed_apply (small table)]
    exact small table
  -- the size of each column once the rows are in
  have total : ∀ col, scanTotal M (store.seed M) (packets.map (countRows M fun _ => 0))
      (S.tableOf col) = (store col).length + (cellsOf col packets.flatten).length := by
    intro col
    have := bounded (S.tableOf col)
    rw [height_appendAll] at this
    rw [scanTotal_countRows seedLt, countRows_apply seedLt, seed_apply (small _),
      Nat.mod_eq_of_lt this, rectangular col, length_cellsOf]
  have filled : ∀ col, (writesTo col trace).Perm
      (fillWrites (store col).length (cellsOf col packets.flatten)) := by
    intro col
    have fits := bounded (S.tableOf col)
    rw [height_appendAll, ← length_cellsOf col, ← seed_apply (small _)] at fits
    have slots := writesTo_scatterRows col fits
    rw [seed_apply (small _), ← rectangular col] at slots
    rw [← slots, ← flatten_kernels seedLt]
    exact permuted.filterMap _
  have inside : ∀ w ∈ trace, w.slot < (store.resize (scanTotal M (store.seed M)
      (packets.map (countRows M fun _ => 0))) w.col).length := by
    intro w member
    have slot := (filled w.col).mem_iff.mp (mem_writesTo member)
    have := List.mem_map_of_mem (f := Prod.fst) slot
    rw [fst_fillWrites, List.mem_range'_1] at this
    rw [resize, length_resizeColumn, total w.col]
    exact this.2
  rw [writeAll_of_lt inside]
  apply congrArg some
  funext col
  rw [appendAll_apply, resize, total col]
  exact setAll_resizeColumn (filled col)

theorem Store.scatters_eq {packets : List (List (Row S))} {outcome : Option (Store S)}
    (rectangular : store.Rectangular)
    (bounded : ∀ table, (store.appendAll packets.flatten).height table < M)
    (scattered : store.Scatters M packets outcome) :
    outcome = some (store.appendAll packets.flatten) := by
  obtain ⟨trace, schedule, rfl⟩ := scattered
  exact writeAll_of_perm rectangular bounded schedule.perm

/-- The resize target of a table is its new size modulo `M`. -/
theorem Store.scanTotal_seed (positive : 0 < M) (packets : List (List (Row S)))
    (table : S.Table) :
    scanTotal M (store.seed M) (packets.map (countRows M fun _ => 0)) table =
      (store.height table + emitted packets.flatten table) % M := by
  have seedLt : ∀ table, store.seed M table < M := fun _ => Nat.mod_lt _ positive
  rw [scanTotal_countRows seedLt, countRows_apply seedLt, seed, Nat.mod_add_mod]
  rfl

/-- Tables that were sized modulo `M` and yet have grown were rectangular and stay below
`M`. -/
theorem Store.fits_of_grows {after : Store S} {rows : List (Row S)} (positive : 0 < M)
    (grows : store.Grows (emitted rows) after)
    (sized : ∀ col, (after col).length =
      (store.height (S.tableOf col) + emitted rows (S.tableOf col)) % M) :
    store.Rectangular ∧ ∀ table, store.height table + emitted rows table < M := by
  have lengths : ∀ col, (store col).length + emitted rows (S.tableOf col) =
      (store.height (S.tableOf col) + emitted rows (S.tableOf col)) % M := by
    intro col
    rw [← sized col, (grows col).2]
  have keys : ∀ table, store.height table + emitted rows table =
      (store.height table + emitted rows table) % M := by
    intro table
    have key := lengths (S.key table)
    rw [S.tableOf_key] at key
    exact key
  constructor
  · intro col
    have column := lengths col
    rw [← keys] at column
    exact Nat.add_right_cancel column
  · intro table
    rw [keys table]
    exact Nat.mod_lt _ positive

/-- Under whatever schedule, one pass appends to every table exactly when the tables are
rectangular and no new size reaches the modulus. -/
theorem Store.scatters_grows_iff {packets : List (List (Row S))} {outcome : Option (Store S)}
    (positive : 0 < M) (scattered : store.Scatters M packets outcome) :
    (∃ after, outcome = some after ∧ store.Grows (emitted packets.flatten) after) ↔
      store.Rectangular ∧ ∀ table, store.height table + emitted packets.flatten table < M := by
  constructor
  · intro appended
    obtain ⟨after, rfl, grows⟩ := appended
    obtain ⟨trace, -, written⟩ := scattered
    apply fits_of_grows positive grows
    intro col
    rw [length_writeAll written.symm, resize, length_resizeColumn, scanTotal_seed positive]
  · intro fits
    obtain ⟨rectangular, bounded⟩ := fits
    have small : ∀ table, (store.appendAll packets.flatten).height table < M := by
      intro table
      rw [height_appendAll]
      exact bounded table
    exact ⟨_, scatters_eq rectangular small scattered, grows_appendAll store _⟩

end Batch

/-! ### A sequence of batches -/

/-- Run batches in order, each by a step that may fault and may be
nondeterministic. -/
inductive BatchRun {State Batch : Type} (step : State → Batch → Option State → Prop) :
    State → List Batch → Option State → Prop where
  | nil (state : State) : BatchRun step state [] (some state)
  | fault {state : State} {batch : Batch} {batches : List Batch}
      (stuck : step state batch none) : BatchRun step state (batch :: batches) none
  | cons {state next : State} {batch : Batch} {batches : List Batch} {outcome : Option State}
      (taken : step state batch (some next)) (continued : BatchRun step next batches outcome) :
      BatchRun step state (batch :: batches) outcome

/-- A step that is always possible can run any batches. -/
theorem BatchRun.exists {State Batch : Type} {step : State → Batch → Option State → Prop}
    (possible : ∀ state batch, ∃ outcome, step state batch outcome) (state : State)
    (batches : List Batch) : ∃ outcome, BatchRun step state batches outcome := by
  induction batches generalizing state with
  | nil => exact ⟨_, .nil state⟩
  | cons batch batches inductionHypothesis =>
      obtain ⟨taken, stepTaken⟩ := possible state batch
      cases taken with
      | none => exact ⟨none, .fault stepTaken⟩
      | some next =>
          obtain ⟨outcome, continued⟩ := inductionHypothesis next
          exact ⟨outcome, .cons stepTaken continued⟩

/-- If a step can only do what `f` does from every state satisfying the
invariant, a run can only do what the fold of `f` does. -/
theorem BatchRun.eq_foldl {State Batch : Type} {step : State → Batch → Option State → Prop}
    (f : State → Batch → State) (Invariant : State → List Batch → Prop)
    (determined : ∀ {state batch batches outcome}, Invariant state (batch :: batches) →
      step state batch outcome → outcome = some (f state batch))
    (preserved : ∀ {state batch batches}, Invariant state (batch :: batches) →
      Invariant (f state batch) batches)
    {state : State} {batches : List Batch} {outcome : Option State}
    (holds : Invariant state batches) (run : BatchRun step state batches outcome) :
    outcome = some (batches.foldl f state) := by
  induction run with
  | nil state => rfl
  | fault stuck => exact absurd (determined holds stuck) (by simp)
  | cons taken continued inductionHypothesis =>
      obtain rfl := Option.some.inj (determined holds taken)
      exact inductionHypothesis (preserved holds)

section Batches

variable {M : Nat} {Packet : Type} (rowsOf : Packet → List (Row S))

/-- Append the rows of one packet after the other. -/
def Store.appendPackets (store : Store S) (packets : List Packet) : Store S :=
  packets.foldl (fun store packet => store.appendAll (rowsOf packet)) store

theorem Store.appendPackets_eq (store : Store S) (packets : List Packet) :
    store.appendPackets rowsOf packets = store.appendAll (packets.map rowsOf).flatten := by
  induction packets generalizing store with
  | nil => rfl
  | cons packet packets inductionHypothesis =>
      rw [List.map_cons, List.flatten_cons, appendAll_append, ← inductionHypothesis]
      rfl

theorem Store.Rectangular.appendPackets {store : Store S} (rectangular : store.Rectangular)
    (packets : List Packet) : (store.appendPackets rowsOf packets).Rectangular := by
  rw [appendPackets_eq]
  exact rectangular.appendAll _

/-- Appending only lengthens tables. -/
theorem Store.height_le_appendPackets (store : Store S) (packets : List Packet)
    (table : S.Table) :
    store.height table ≤ (store.appendPackets rowsOf packets).height table := by
  rw [appendPackets_eq, height_appendAll]
  exact Nat.le_add_right _ _

theorem Store.appendPackets_flatten (store : Store S) (batches : List (List Packet)) :
    store.appendPackets rowsOf batches.flatten = batches.foldl (appendPackets rowsOf) store :=
  List.foldl_flatten

/-- Batches of scatter passes, however each is scheduled, append the rows of
all packets in order. -/
theorem Store.batchRun_eq {store : Store S} {batches : List (List Packet)}
    {outcome : Option (Store S)} (rectangular : store.Rectangular)
    (bounded : ∀ table, (store.appendPackets rowsOf batches.flatten).height table < M)
    (run : BatchRun (fun store batch => store.Scatters M (batch.map rowsOf)) store batches
      outcome) :
    outcome = some (store.appendPackets rowsOf batches.flatten) := by
  rw [appendPackets_flatten] at bounded ⊢
  refine BatchRun.eq_foldl (appendPackets rowsOf)
    (fun store batches => store.Rectangular ∧
      ∀ table, (batches.foldl (appendPackets rowsOf) store).height table < M)
    ?_ ?_ ⟨rectangular, bounded⟩ run
  · intro store batch batches outcome invariant scattered
    obtain ⟨rectangular, bounded⟩ := invariant
    rw [appendPackets_eq]
    refine scatters_eq rectangular (fun table => ?_) scattered
    have later := height_le_appendPackets rowsOf (store.appendPackets rowsOf batch)
      batches.flatten table
    rw [appendPackets_flatten] at later
    rw [← appendPackets_eq]
    exact Nat.lt_of_le_of_lt later (bounded table)
  · intro store batch batches invariant
    obtain ⟨rectangular, bounded⟩ := invariant
    exact ⟨rectangular.appendPackets rowsOf batch, bounded⟩

end Batches

/-! ### Passes given by functions of a packet -/

/-- The state of a scatter kernel: its cursors, and the writes it has issued. -/
structure Scatter (S : Schema) where
  cursor : Counters S
  issued : List (Write S)

/-- Issue the writes of a row at its table's cursor, then advance the cursor. -/
def Scatter.row (M : Nat) (state : Scatter S) (table : S.Table) (writes : Nat → List (Write S)) :
    Scatter S where
  cursor := bump M state.cursor table
  issued := state.issued ++ writes (state.cursor table)

def Scatter.rows (M : Nat) (state : Scatter S) (rows : List (Row S)) : Scatter S :=
  rows.foldl (fun state row => state.row M row.table row.writes) state

/-- One count, scan, resize and scatter pass under some schedule, for a kernel
that counts and a kernel that scatters one packet. -/
def Store.CountScatter {Packet : Type} (M : Nat) (count : Packet → Counters S)
    (scatter : Counters S → Packet → List (Write S)) (store : Store S) (packets : List Packet)
    (outcome : Option (Store S)) : Prop :=
  let counts := packets.map count
  let base := exclusiveScan M (store.seed M) counts
  let sized := store.resize (scanTotal M (store.seed M) counts)
  ∃ trace, Interleaving (List.zipWith scatter base packets) trace ∧
    outcome = sized.writeAll trace

section Passes

variable {M : Nat} {Packet : Type} {count : Packet → Counters S}
  {scatter : Counters S → Packet → List (Write S)} {rowsOf : Packet → List (Row S)}

/-- A kernel that scatters row after row issues the writes of `scatterRows`. -/
theorem Scatter.issued_rows (state : Scatter S) (rows : List (Row S)) :
    (state.rows M rows).issued = state.issued ++ scatterRows M state.cursor rows := by
  induction rows generalizing state with
  | nil => exact (List.append_nil _).symm
  | cons row rows inductionHypothesis =>
      rw [Scatter.rows, List.foldl_cons]
      refine (inductionHypothesis _).trans ?_
      rw [scatterRows, Scatter.row, List.append_assoc]

theorem Scatter.rows_append (state : Scatter S) (front back : List (Row S)) :
    state.rows M (front ++ back) = (state.rows M front).rows M back :=
  List.foldl_append

theorem Scatter.rows_flatMap {Visit : Type} (state : Scatter S) (visits : List Visit)
    (rowsOf : Visit → List (Row S)) :
    state.rows M (visits.flatMap rowsOf) =
      visits.foldl (fun state visit => state.rows M (rowsOf visit)) state :=
  List.foldl_flatMap

theorem countRows_flatMap {Visit : Type} (counters : Counters S) (visits : List Visit)
    (rowsOf : Visit → List (Row S)) :
    countRows M counters (visits.flatMap rowsOf) =
      visits.foldl (fun counters visit => countRows M counters (rowsOf visit)) counters :=
  List.foldl_flatMap

theorem countRows_append (counters : Counters S) (front back : List (Row S)) :
    countRows M counters (front ++ back) = countRows M (countRows M counters front) back :=
  List.foldl_append

/-- Kernels run one after the other, in any order, are a schedule. -/
theorem Store.countScatter_of_order (store : Store S) (packets : List Packet)
    {order : List (List (Write S))}
    (reordered : order.Perm
      (List.zipWith scatter (exclusiveScan M (store.seed M) (packets.map count)) packets)) :
    store.CountScatter M count scatter packets
      ((store.resize (scanTotal M (store.seed M) (packets.map count))).writeAll order.flatten) :=
  ⟨_, .of_order reordered, rfl⟩

theorem Store.exists_countScatter (store : Store S) (packets : List Packet) :
    ∃ outcome, store.CountScatter M count scatter packets outcome :=
  ⟨_, countScatter_of_order store packets (.refl _)⟩

/-- Kernels that count and scatter the same rows make a scatter pass over
these. -/
theorem Store.countScatter_iff
    (counts : ∀ packet, count packet = countRows M (fun _ => 0) (rowsOf packet))
    (scatters : ∀ base packet, scatter base packet = scatterRows M base (rowsOf packet))
    (store : Store S) (packets : List Packet) (outcome : Option (Store S)) :
    store.CountScatter M count scatter packets outcome ↔
      store.Scatters M (packets.map rowsOf) outcome := by
  have counted : (packets.map rowsOf).map (countRows M fun _ => 0) = packets.map count := by
    rw [List.map_map]
    exact List.map_congr_left fun packet _ => (counts packet).symm
  rw [CountScatter, Scatters, kernels, counted, List.zipWith_map_right, funext₂ scatters]

/-- Batches of such passes append the rows of all packets in order. -/
theorem Store.batchRun_countScatter_eq
    (counts : ∀ packet, count packet = countRows M (fun _ => 0) (rowsOf packet))
    (scatters : ∀ base packet, scatter base packet = scatterRows M base (rowsOf packet))
    {store : Store S} {batches : List (List Packet)} {outcome : Option (Store S)}
    (rectangular : store.Rectangular)
    (bounded : ∀ table, (store.appendPackets rowsOf batches.flatten).height table < M)
    (run : BatchRun (Store.CountScatter M count scatter) store batches outcome) :
    outcome = some (store.appendPackets rowsOf batches.flatten) := by
  have passes : Store.CountScatter M count scatter =
      fun store packets => Store.Scatters M store (packets.map rowsOf) := by
    funext store packets outcome
    exact propext (countScatter_iff counts scatters store packets outcome)
  rw [passes] at run
  exact batchRun_eq rowsOf rectangular bounded run

end Passes

end Nanotins.Library
