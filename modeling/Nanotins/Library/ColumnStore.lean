import Mathlib.Data.List.Basic
import Mathlib.Data.List.Nodup
import Mathlib.Data.List.Perm.Basic
import Mathlib.Logic.Function.Basic

/-!
Contract: tables stored as columns, filled by appending rows or by writing
single slots.

Owns: the schema of a set of tables, stores and rows, appending, resizing and
slot writes (which fault outside their column), what each does to one column,
and that slot writes to distinct slots commute.

Does not own: which slots a parallel pass writes.
-/

namespace Nanotins.Library

/-! ### Slot writes to one column -/

section Column

variable {V : Type}

/-- Perform slot writes in order. -/
def setAll (column : List V) (writes : List (Nat × V)) : List V :=
  writes.foldl (fun column write => column.set write.1 write.2) column

/-- Resize a column as `std::vector::resize` does: cut, or fill with default
values. -/
def resizeColumn [Inhabited V] (column : List V) (size : Nat) : List V :=
  column.take size ++ List.replicate (size - column.length) default

@[simp] theorem length_resizeColumn [Inhabited V] (column : List V) (size : Nat) :
    (resizeColumn column size).length = size := by
  simp only [resizeColumn, List.length_append, List.length_take, List.length_replicate]
  omega

theorem resizeColumn_of_le [Inhabited V] {column : List V} {size : Nat}
    (grows : column.length ≤ size) :
    resizeColumn column size = column ++ List.replicate (size - column.length) default := by
  rw [resizeColumn, List.take_of_length_le grows]

/-- Writes to distinct slots may be performed in any order. -/
theorem setAll_perm {writes reordered : List (Nat × V)} (column : List V)
    (distinct : (writes.map Prod.fst).Nodup) (permuted : writes.Perm reordered) :
    setAll column writes = setAll column reordered := by
  apply permuted.foldl_eq'
  intro first firstMember second secondMember column
  by_cases same : first = second
  · rw [same]
  · have apart : first.1 ≠ second.1 := fun slot =>
      same (List.inj_on_of_nodup_map distinct firstMember secondMember slot)
    exact List.set_comm _ _ apart

/-- The writes of consecutive values to consecutive slots from `start`. -/
def fillWrites (start : Nat) : List V → List (Nat × V)
  | [] => []
  | value :: values => (start, value) :: fillWrites (start + 1) values

theorem fst_fillWrites (start : Nat) (values : List V) :
    (fillWrites start values).map Prod.fst = List.range' start values.length := by
  induction values generalizing start with
  | nil => rfl
  | cons value values inductionHypothesis =>
      simp only [fillWrites, List.map_cons, inductionHypothesis, List.length_cons,
        List.range'_succ]

/-- Filling the slots behind `front` replaces what was there. -/
theorem setAll_fillWrites (front : List V) {back values : List V}
    (fits : back.length = values.length) :
    setAll (front ++ back) (fillWrites front.length values) = front ++ values := by
  induction values generalizing front back with
  | nil => rw [List.length_eq_zero_iff.mp fits]; rfl
  | cons value values inductionHypothesis =>
      obtain ⟨old, back, rfl⟩ := List.exists_cons_of_length_eq_add_one fits
      have written : (front ++ old :: back).set front.length value = (front ++ [value]) ++ back := by
        simp [List.set_append_right]
      have filled := inductionHypothesis (front ++ [value]) (Nat.succ.inj fits)
      rw [List.length_append, List.length_singleton] at filled
      rw [fillWrites, setAll, List.foldl_cons, written]
      simpa [setAll] using filled

/-- Growing a column and then filling the new slots, in any order, appends the
values. -/
theorem setAll_resizeColumn [Inhabited V] {column values : List V} {writes : List (Nat × V)}
    (filled : writes.Perm (fillWrites column.length values)) :
    setAll (resizeColumn column (column.length + values.length)) writes = column ++ values := by
  have distinct : ((fillWrites column.length values).map Prod.fst).Nodup := by
    rw [fst_fillWrites]
    exact List.nodup_range'
  rw [← setAll_perm _ distinct filled.symm, resizeColumn_of_le (by omega)]
  exact setAll_fillWrites column (by simp)

theorem fillWrites_map_range' (start n : Nat) (value : Nat → V) :
    fillWrites start ((List.range' start n).map value) =
      (List.range' start n).map fun slot => (slot, value slot) := by
  induction n generalizing start with
  | zero => rfl
  | succ n inductionHypothesis =>
      rw [List.range'_succ, List.map_cons, fillWrites, inductionHypothesis, List.map_cons]

/-- Filling every slot of a column, in any order, leaves the values. -/
theorem setAll_of_order {column : List V} {writes : List (Nat × V)} {n : Nat} (value : Nat → V)
    (sized : column.length = n)
    (ordered : writes.Perm ((List.range n).map fun slot => (slot, value slot))) :
    setAll column writes = (List.range n).map value := by
  rw [List.range_eq_range', ← fillWrites_map_range'] at ordered
  rw [List.range_eq_range']
  have distinct : ((fillWrites 0 ((List.range' 0 n).map value)).map Prod.fst).Nodup := by
    rw [fst_fillWrites]
    exact List.nodup_range'
  rw [← setAll_perm column distinct ordered.symm]
  exact setAll_fillWrites [] (by simpa using sized)

end Column

/-! ### Schemas, rows and stores -/

/-- The columns of a set of tables.  `key` is the column whose length counts as
the table's size. -/
structure Schema where
  Table : Type
  Col : Type
  Value : Type
  tableOf : Col → Table
  columns : Table → List Col
  key : Table → Col
  mem_columns : ∀ table col, col ∈ columns table ↔ tableOf col = table
  nodup_columns : ∀ table, (columns table).Nodup
  tableOf_key : ∀ table, tableOf (key table) = table
  [decEqTable : DecidableEq Table]
  [decEqCol : DecidableEq Col]
  [inhabitedValue : Inhabited Value]

attribute [instance] Schema.decEqTable Schema.decEqCol Schema.inhabitedValue

/-- A row of one table.  Only the cells of that table's columns matter. -/
structure Row (S : Schema) where
  table : S.Table
  cell : S.Col → S.Value

/-- A write of one value to one slot of one column. -/
structure Write (S : Schema) where
  col : S.Col
  slot : Nat
  value : S.Value

abbrev Store (S : Schema) := S.Col → List S.Value

variable {S : Schema}

namespace Row

/-- The pushes that append the row. -/
def pushes (row : Row S) : List (S.Col × S.Value) :=
  (S.columns row.table).map fun col => (col, row.cell col)

/-- The writes that store the row at `slot`. -/
def writes (row : Row S) (slot : Nat) : List (Write S) :=
  (S.columns row.table).map fun col => ⟨col, slot, row.cell col⟩

end Row

namespace Store

def push (store : Store S) (entry : S.Col × S.Value) : Store S :=
  Function.update store entry.1 (store entry.1 ++ [entry.2])

def pushAll (store : Store S) (entries : List (S.Col × S.Value)) : Store S :=
  entries.foldl push store

def append (store : Store S) (row : Row S) : Store S := store.pushAll row.pushes

def appendAll (store : Store S) (rows : List (Row S)) : Store S := rows.foldl append store

def height (store : Store S) (table : S.Table) : Nat := (store (S.key table)).length

def resize (store : Store S) (sizes : S.Table → Nat) : Store S :=
  fun col => resizeColumn (store col) (sizes (S.tableOf col))

/-- Write one slot; a write outside the column faults. -/
def write (store : Store S) (w : Write S) : Option (Store S) :=
  if w.slot < (store w.col).length then
    some (Function.update store w.col ((store w.col).set w.slot w.value))
  else none

def writeAll (store : Store S) (writes : List (Write S)) : Option (Store S) :=
  writes.foldlM write store

/-- All columns of a table have the table's size. -/
def Rectangular (store : Store S) : Prop :=
  ∀ col, (store col).length = store.height (S.tableOf col)

end Store

/-! ### One column at a time -/

/-- The cells that `rows` hold for one column. -/
def cellsOf (col : S.Col) (rows : List (Row S)) : List S.Value :=
  (rows.filter fun row => row.table = S.tableOf col).map fun row => row.cell col

theorem cellsOf_cons (col : S.Col) (row : Row S) (rows : List (Row S)) :
    cellsOf col (row :: rows) =
      if row.table = S.tableOf col then row.cell col :: cellsOf col rows else cellsOf col rows := by
  by_cases own : row.table = S.tableOf col <;> simp [cellsOf, own]

theorem cellsOf_append (col : S.Col) (front back : List (Row S)) :
    cellsOf col (front ++ back) = cellsOf col front ++ cellsOf col back := by
  simp [cellsOf]

theorem cellsOf_eq_map {col : S.Col} {rows : List (Row S)}
    (own : ∀ row ∈ rows, row.table = S.tableOf col) :
    cellsOf col rows = rows.map fun row => row.cell col := by
  rw [cellsOf, List.filter_eq_self.mpr fun row member => decide_eq_true (own row member)]

theorem cellsOf_eq_nil {col : S.Col} {rows : List (Row S)}
    (other : ∀ row ∈ rows, row.table ≠ S.tableOf col) : cellsOf col rows = [] := by
  rw [cellsOf, List.filter_eq_nil_iff.mpr fun row member => by simpa using other row member]
  rfl

/-- The cells of a row in those columns of its own table that lie in `cols`. -/
def Row.restrict (cols : S.Col → Bool) (row : Row S) : Row S where
  table := row.table
  cell col := if S.tableOf col = row.table ∧ cols col = true then row.cell col else default

theorem Row.restrict_congr {cols : S.Col → Bool} {first second : Row S}
    (table : first.table = second.table)
    (cells : ∀ col, S.tableOf col = first.table → cols col = true →
      first.cell col = second.cell col) : first.restrict cols = second.restrict cols := by
  rw [restrict, restrict, ← table]
  congr 1
  funext col
  split
  · next own => exact cells col own.1 own.2
  · rfl

theorem cellsOf_restrict {cols : S.Col → Bool} {col : S.Col} (kept : cols col = true)
    (rows : List (Row S)) : cellsOf col (rows.map (Row.restrict cols)) = cellsOf col rows := by
  induction rows with
  | nil => rfl
  | cons row rows inductionHypothesis =>
      rw [List.map_cons, cellsOf_cons, cellsOf_cons, inductionHypothesis]
      change (if row.table = S.tableOf col then _ else _) = _
      split
      · next own => exact congrArg (· :: cellsOf col rows) (if_pos ⟨own.symm, kept⟩)
      · rfl

/-- How many of `rows` belong to a table. -/
def emitted (rows : List (Row S)) (table : S.Table) : Nat :=
  rows.countP fun row => row.table = table

/-- The slots that `writes` fill in one column. -/
def writesTo (col : S.Col) (writes : List (Write S)) : List (Nat × S.Value) :=
  writes.filterMap fun w => if w.col = col then some (w.slot, w.value) else none

theorem length_cellsOf (col : S.Col) (rows : List (Row S)) :
    (cellsOf col rows).length = rows.countP fun row => row.table = S.tableOf col := by
  simp [cellsOf, List.countP_eq_length_filter]

theorem writesTo_append (col : S.Col) (front back : List (Write S)) :
    writesTo col (front ++ back) = writesTo col front ++ writesTo col back :=
  List.filterMap_append

private theorem filterMap_eq_of_nodup {β : Type} [DecidableEq β] {γ : Type} (value : β → γ)
    (target : β) {cols : List β} (distinct : cols.Nodup) :
    cols.filterMap (fun col => if col = target then some (value col) else none) =
      if target ∈ cols then [value target] else [] := by
  induction cols with
  | nil => rfl
  | cons col cols inductionHypothesis =>
      obtain ⟨fresh, distinct⟩ := List.nodup_cons.mp distinct
      by_cases here : col = target
      · subst here
        simp [inductionHypothesis distinct, fresh]
      · simp [inductionHypothesis distinct, here, Ne.symm here]

/-- A row writes one slot in each column of its table and none elsewhere. -/
theorem writesTo_row (col : S.Col) (row : Row S) (slot : Nat) :
    writesTo col (row.writes slot) =
      if row.table = S.tableOf col then [(slot, row.cell col)] else [] := by
  have picked := filterMap_eq_of_nodup (fun col => (slot, row.cell col)) col
    (S.nodup_columns row.table)
  rw [writesTo, Row.writes, List.filterMap_map]
  refine picked.trans ?_
  simp only [S.mem_columns, eq_comm]

namespace Store

theorem push_apply (store : Store S) (entry : S.Col × S.Value) (col : S.Col) :
    store.push entry col = if entry.1 = col then store col ++ [entry.2] else store col := by
  by_cases here : entry.1 = col
  · subst here
    simp [push]
  · simp [push, here, Function.update_of_ne (Ne.symm here)]

private theorem pushAll_apply_of_nodup (store : Store S) (cell : S.Col → S.Value) (col : S.Col)
    {cols : List S.Col} (distinct : cols.Nodup) :
    store.pushAll (cols.map fun c => (c, cell c)) col =
      if col ∈ cols then store col ++ [cell col] else store col := by
  induction cols generalizing store with
  | nil => rfl
  | cons first cols inductionHypothesis =>
      obtain ⟨fresh, distinct⟩ := List.nodup_cons.mp distinct
      have tail := inductionHypothesis (store.push (first, cell first)) distinct
      rw [List.map_cons, pushAll, List.foldl_cons]
      refine tail.trans ?_
      rw [push_apply]
      by_cases here : first = col
      · subst here
        simp [fresh]
      · simp [here, Ne.symm here]

/-- Appending a row extends the columns of its table by its cells. -/
theorem append_apply (store : Store S) (row : Row S) (col : S.Col) :
    store.append row col =
      if row.table = S.tableOf col then store col ++ [row.cell col] else store col := by
  rw [append, Row.pushes, pushAll_apply_of_nodup _ _ _ (S.nodup_columns row.table)]
  simp only [S.mem_columns, eq_comm]

theorem appendAll_apply (store : Store S) (rows : List (Row S)) (col : S.Col) :
    store.appendAll rows col = store col ++ cellsOf col rows := by
  induction rows generalizing store with
  | nil => simp [appendAll, cellsOf]
  | cons row rows inductionHypothesis =>
      rw [appendAll, List.foldl_cons]
      refine (inductionHypothesis _).trans ?_
      rw [append_apply]
      by_cases here : row.table = S.tableOf col
      · simp [cellsOf, here]
      · simp [cellsOf, here]

theorem appendAll_append (store : Store S) (front back : List (Row S)) :
    store.appendAll (front ++ back) = (store.appendAll front).appendAll back :=
  List.foldl_append

theorem appendAll_flatMap {Visit : Type} (store : Store S) (visits : List Visit)
    (rowsOf : Visit → List (Row S)) :
    store.appendAll (visits.flatMap rowsOf) =
      visits.foldl (fun store visit => store.appendAll (rowsOf visit)) store :=
  List.foldl_flatMap

theorem height_appendAll (store : Store S) (rows : List (Row S)) (table : S.Table) :
    (store.appendAll rows).height table =
      store.height table + rows.countP fun row => row.table = table := by
  rw [height, appendAll_apply, List.length_append, length_cellsOf, S.tableOf_key]
  rfl

theorem Rectangular.appendAll {store : Store S} (rectangular : store.Rectangular)
    (rows : List (Row S)) : (store.appendAll rows).Rectangular := by
  intro col
  rw [height_appendAll, appendAll_apply, List.length_append, length_cellsOf, rectangular col]

/-- Rows that are dropped are missed by some table. -/
theorem eq_of_sublist {rows kept : List (Row S)} (sub : kept.Sublist rows)
    (sizes : ∀ table, (rows.countP fun row => row.table = table) =
      kept.countP fun row => row.table = table) : rows = kept := by
  induction sub with
  | slnil => rfl
  | @cons kept rows row sub _ =>
      have fewer := sub.countP_le (p := fun other : Row S => decide (other.table = row.table))
      have same := sizes row.table
      rw [List.countP_cons_of_pos (by simp)] at same
      omega
  | @cons_cons kept rows row _ inductionHypothesis =>
      apply congrArg (row :: ·)
      apply inductionHypothesis
      intro table
      have same := sizes table
      rw [List.countP_cons, List.countP_cons] at same
      omega

/-- A store tells whether rows were dropped. -/
theorem appendAll_eq_iff {rows kept : List (Row S)} (sub : kept.Sublist rows) (store : Store S) :
    store.appendAll rows = store.appendAll kept ↔ rows = kept := by
  constructor
  · intro same
    apply eq_of_sublist sub
    intro table
    have heights := congrArg (fun store => Store.height store table) same
    rw [height_appendAll, height_appendAll] at heights
    omega
  · intro same
    rw [same]

/-- In the columns `cols`, `longer` is `shorter` with rows appended. -/
def ExtendsOn (cols : S.Col → Bool) (shorter longer : Store S) : Prop :=
  ∃ dropped : List (Row S), ∀ col, cols col = true → longer col = shorter.appendAll dropped col

theorem extendsOn_of_prefix {cols : S.Col → Bool} (store : Store S) {shorter longer : List (Row S)}
    (leading : shorter.map (Row.restrict cols) <+: longer.map (Row.restrict cols)) :
    ExtendsOn cols (store.appendAll shorter) (store.appendAll longer) := by
  obtain ⟨dropped, whole⟩ := leading
  refine ⟨dropped, fun col kept => ?_⟩
  have cells : cellsOf col longer = cellsOf col shorter ++ cellsOf col dropped := by
    rw [← cellsOf_restrict kept longer, ← whole, cellsOf_append, cellsOf_restrict kept]
  rw [appendAll_apply, appendAll_apply, appendAll_apply, cells, List.append_assoc]

/-- `after` keeps every column of `before` as a prefix and has `added` more cells in
each column of a table. -/
def Grows (before : Store S) (added : S.Table → Nat) (after : Store S) : Prop :=
  ∀ col, before col <+: after col ∧
    (after col).length = (before col).length + added (S.tableOf col)

/-- Appending rows keeps what is there. -/
theorem grows_appendAll (store : Store S) (rows : List (Row S)) :
    store.Grows (emitted rows) (store.appendAll rows) := by
  intro col
  rw [appendAll_apply, List.length_append, length_cellsOf]
  exact ⟨List.prefix_append _ _, rfl⟩

theorem rectangular_empty : Rectangular (fun _ => [] : Store S) := fun _ => rfl

/-- A batch of slot writes faults or acts on every column by itself. -/
theorem writeAll_of_lt {store : Store S} {writes : List (Write S)}
    (inside : ∀ w ∈ writes, w.slot < (store w.col).length) :
    store.writeAll writes = some fun col => setAll (store col) (writesTo col writes) := by
  induction writes generalizing store with
  | nil => rfl
  | cons w writes inductionHypothesis =>
      have here : store.write w = some _ := if_pos (inside w (by simp))
      rw [writeAll, List.foldlM_cons, here]
      refine (inductionHypothesis ?_).trans ?_
      · intro later member
        by_cases same : later.col = w.col
        · rw [same, Function.update_self, List.length_set, ← same]
          exact inside later (by simp [member])
        · rw [Function.update_of_ne same]
          exact inside later (by simp [member])
      · apply congrArg some
        funext col
        by_cases same : w.col = col
        · subst same
          simp [writesTo, setAll]
        · simp [writesTo, setAll, same, Function.update_of_ne (Ne.symm same)]

theorem length_write {store next : Store S} {w : Write S} (written : store.write w = some next)
    (col : S.Col) : (next col).length = (store col).length := by
  rw [write, Option.ite_none_right_eq_some] at written
  obtain ⟨-, same⟩ := written
  rw [← Option.some.inj same]
  by_cases here : col = w.col
  · rw [here, Function.update_self, List.length_set]
  · rw [Function.update_of_ne here]

/-- Slot writes change no length. -/
theorem length_writeAll {store after : Store S} {writes : List (Write S)}
    (written : store.writeAll writes = some after) (col : S.Col) :
    (after col).length = (store col).length := by
  induction writes generalizing store with
  | nil => rw [Option.some.inj written]
  | cons w writes inductionHypothesis =>
      rw [writeAll, List.foldlM_cons] at written
      obtain ⟨next, first, rest⟩ := Option.bind_eq_some_iff.mp written
      rw [inductionHypothesis rest, length_write first]

end Store

end Nanotins.Library
