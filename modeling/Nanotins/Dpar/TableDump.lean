import Nanotins.Dpar.OddTlv
import Nanotins.Library.Json

/-!
Contract: the NDJSON that the dpar example prints of its tables.

Owns: the text of a described row and of all tables, how the rows of a table are read
back from such a text, and that this holds for the tables of any run of the example
(`exampleDump_reads`).

Does not own: the rows.
-/

namespace Nanotins.Dpar

open Nanotins.Library

/-! ### The text -/

section Text

variable {Row : Type}

/-- The text of an object with a member for each column. -/
def rowToJson (described : DescribedRow Row) (row : Row) : Text :=
  let columns := described.fields.foldl
    (fun state field =>
      appendPart state (quoted field.name.toList ++ ':' :: Nat.toDigits 10 (field.get row)))
    ([], true)
  '{' :: (columns.1 ++ ['}'])

/-- The line of a row in the table of the name. -/
def dumpLine (described : DescribedRow Row) (name : Text) (row : Row) : Text :=
  "\x7b\"table\":\"".toList ++ name ++ "\",\"row\":".toList ++ rowToJson described row ++
    "\x7d\n".toList

end Text

section Tables

variable {palette : Palette} (described : (i : Fin palette.length) → DescribedRow (palette.get i).Row)

/-- The lines of all tables, in palette order. -/
def dumpTables (tables : palette.Tables) : Text :=
  (List.finRange palette.length).flatMap fun i =>
    (palette.table tables i).flatMap (dumpLine (described i) (palette.get i).name)

end Tables

def OddTlvRow.described : DescribedRow OddTlvRow where
  fields :=
    [⟨"packet_id", .eight, packetId⟩, ⟨"rule_id", .four, ruleId⟩, ⟨"elem_index", .four, elemIndex⟩,
      ⟨"array_id", .two, arrayId⟩, ⟨"elem_size", .two, elemSize⟩,
      ⟨"elem_count", .two, elemCount⟩, ⟨"elem_data_id", .two, elemDataId⟩]
  ofCells
    | [packetId, ruleId, elemIndex, arrayId, elemSize, elemCount, elemDataId] =>
        some ⟨packetId, ruleId, elemIndex, arrayId, elemSize, elemCount, elemDataId⟩
    | _ => none
  ofCells_cells := fun ⟨_, _, _, _, _, _, _⟩ => rfl

/-- The built-ins and the downstream Kind. -/
def ExamplePalette : Palette := [SomeipTlvKind, RawTlvKind, OddTlvKind]

def ExamplePalette.described :
    (i : Fin ExamplePalette.length) → DescribedRow (ExamplePalette.get i).Row
  | ⟨0, _⟩ => SomeipTlvRow.described
  | ⟨1, _⟩ => RawTlvRow.described
  | ⟨2, _⟩ => OddTlvRow.described

def dumpNdjson (tables : ExamplePalette.Tables) : Text := dumpTables ExamplePalette.described tables

/-! ### The documents -/

section Documents

variable {Row : Type} {described : DescribedRow Row} {row : Row} {name : Text}

namespace DescribedRow

def members (described : DescribedRow Row) (row : Row) : List (Text × Json) :=
  described.fields.map fun field => (field.name.toList, .num (field.get row))

def document (described : DescribedRow Row) (row : Row) : Json := .obj (described.members row)

def line (described : DescribedRow Row) (name : Text) (row : Row) : Json :=
  .obj [("table".toList, .str name), ("row".toList, described.document row)]

/-- The names of the columns. -/
def names (described : DescribedRow Row) : List Text :=
  described.fields.map fun field => field.name.toList

/-- Names that differ and need no escape. -/
structure Named (described : DescribedRow Row) : Prop where
  distinct : described.names.Nodup
  plain : ∀ name ∈ described.names, Json.PlainText name

end DescribedRow

theorem rowToJson_eq : rowToJson described row = (described.document row).render := by
  have parts : described.fields.map
      (fun field => quoted field.name.toList ++ ':' :: Nat.toDigits 10 (field.get row)) =
        Json.renderMembers (described.members row) := by
    rw [Json.renderMembers_eq, DescribedRow.members, List.map_map]
    rfl
  rw [rowToJson, ← List.foldl_map, foldl_appendPart, parts]
  rfl

/-- The text of a line around the row. -/
theorem render_line :
    (described.line name row).render =
      "\x7b\"table\":\"".toList ++ (name ++ ("\",\"row\":".toList ++
        ((described.document row).render ++ ['}']))) := by
  have opening : "\x7b\"table\":\"".toList = '{' :: (quoted "table".toList ++ [':', '"']) := rfl
  have middle : "\",\"row\":".toList = '"' :: ',' :: (quoted "row".toList ++ [':']) := rfl
  have members : Json.renderMembers [("table".toList, .str name),
      ("row".toList, described.document row)] =
        [quoted "table".toList ++ ':' :: quoted name,
          quoted "row".toList ++ ':' :: (described.document row).render] := by
    rw [Json.renderMembers_eq]
    rfl
  rw [DescribedRow.line, Json.render, members, opening, middle, joined_cons_eq]
  simp only [List.flatMap_singleton, List.append_assoc, List.cons_append, List.nil_append, quoted]

theorem dumpLine_eq : dumpLine described name row = (described.line name row).render ++ ['\n'] := by
  have closing : "\x7d\n".toList = ['}'] ++ ['\n'] := rfl
  unfold dumpLine
  rw [rowToJson_eq, render_line, closing]
  simp only [List.append_assoc]

theorem plain_line (named : described.Named) (plain : Json.PlainText name) (row : Row) :
    (described.line name row).Plain := by
  have document : (described.document row).Plain := by
    refine Json.plain_obj (List.forall_mem_map.mpr fun field member => ⟨?_, .num _⟩)
    exact named.plain _ (List.mem_map_of_mem member)
  refine Json.plain_obj ?_
  simp only [List.forall_mem_cons, List.not_mem_nil, false_implies, implies_true, and_true]
  exact ⟨⟨by decide +kernel, .str plain⟩, by decide +kernel, document⟩

/-! ### Rows read back -/

/-- The row of a document that has a number for each member. -/
def readRow (described : DescribedRow Row) (json : Json) : Option Row :=
  (described.fields.mapM fun field => json.getNum field.name).bind described.ofCells

theorem readRow_document (named : described.Named) (row : Row) :
    readRow described (described.document row) = some row := by
  have keys : (described.members row).map Prod.fst = described.names := by
    rw [DescribedRow.members, List.map_map]
    rfl
  have cells : (described.fields.mapM fun field =>
      (described.document row).getNum field.name) =
        some (described.fields.map fun field => field.get row) := by
    refine mapM_eq_some fun field member => ?_
    have found : (described.document row).getMember field.name = some (.num (field.get row)) :=
      Json.getMember_of_mem (keys ▸ named.distinct) (List.mem_map_of_mem member)
    rw [Json.getNum, found]
  rw [readRow, cells, Option.bind_some, described.ofCells_cells]

/-- The rows of the lines that belong to the table of the name. -/
def readRows (described : DescribedRow Row) (name : Text) (lines : List Json) :
    Option (List Row) :=
  (lines.filter fun json => json.getStr "table" = some name).mapM fun json =>
    (json.getMember "row").bind (readRow described)

theorem getMember_line (row : Row) :
    (described.line name row).getMember "row" = some (described.document row) := by
  rw [DescribedRow.line, Json.getMember_obj_cons, if_neg (by decide), Json.getMember_obj_cons,
    if_pos rfl]

end Documents

/-! ### Dumps of tables -/

section Dumps

variable {palette : Palette} {described : (i : Fin palette.length) → DescribedRow (palette.get i).Row}

/-- One document for each row of the tables, in palette order. -/
def tableLines (described : (i : Fin palette.length) → DescribedRow (palette.get i).Row)
    (rows : (i : Fin palette.length) → List (palette.get i).Row) : List Json :=
  (List.finRange palette.length).flatMap fun i =>
    (rows i).map ((described i).line (palette.get i).name)

theorem dumpTables_eq (tables : palette.Tables) :
    dumpTables described tables = Json.writeLines (tableLines described (palette.table tables)) := by
  rw [dumpTables, tableLines, Json.writeLines, List.flatMap_assoc]
  refine List.flatMap_congr fun i _ => ?_
  rw [List.flatMap_map]
  exact List.flatMap_congr fun row _ => dumpLine_eq

/-- A dump is one document a line. -/
theorem readLines_dumpTables (named : ∀ i, (described i).Named)
    (plain : ∀ kind ∈ palette, Json.PlainText kind.name) (tables : palette.Tables) :
    Json.readLines (dumpTables described tables) =
      some (tableLines described (palette.table tables)) := by
  rw [dumpTables_eq, Json.readLines_writeLines]
  intro json member
  obtain ⟨i, -, listed⟩ := List.mem_flatMap.mp member
  obtain ⟨row, -, rfl⟩ := List.mem_map.mp listed
  exact plain_line (named i) (plain _ (List.get_mem _ _)) row

theorem flatMap_ite_eq {α β : Type} [DecidableEq α] {items : List α} (once : items.Nodup) {a : α}
    (member : a ∈ items) (made : α → List β) :
    (items.flatMap fun b => if b = a then made b else []) = made a := by
  obtain ⟨before, behind, rfl⟩ := List.append_of_mem member
  obtain ⟨-, behindOnce, disjoint⟩ := List.nodup_append.mp once
  have front : (before.flatMap fun b => if b = a then made b else []) = [] :=
    List.flatMap_eq_nil_iff.mpr fun b earlier => if_neg (disjoint b earlier a List.mem_cons_self)
  have back : (behind.flatMap fun b => if b = a then made b else []) = [] :=
    List.flatMap_eq_nil_iff.mpr fun b later => if_neg fun same : b = a =>
      (List.nodup_cons.mp behindOnce).1 (same ▸ later)
  rw [List.flatMap_append, List.flatMap_cons, front, back, if_pos rfl, List.nil_append,
    List.append_nil]

theorem name_injective (distinct : palette.names.Nodup) :
    Function.Injective fun i => (palette.get i).name := by
  intro j i same
  have kinds : palette.get j = palette.get i :=
    List.inj_on_of_nodup_map distinct (List.get_mem _ _) (List.get_mem _ _) same
  exact List.nodup_iff_injective_get.mp (List.Nodup.of_map _ distinct) kinds

/-- The lines of a table are those that carry its name. -/
theorem filter_tableLines (distinct : palette.names.Nodup)
    (rows : (i : Fin palette.length) → List (palette.get i).Row) (i : Fin palette.length) :
    ((tableLines described rows).filter fun json => json.getStr "table" = some (palette.get i).name) =
      (rows i).map ((described i).line (palette.get i).name) := by
  have own : ∀ j, (((rows j).map ((described j).line (palette.get j).name)).filter
      fun json => json.getStr "table" = some (palette.get i).name) =
        if j = i then (rows j).map ((described j).line (palette.get j).name) else [] := by
    intro j
    split
    · next same =>
      subst same
      exact List.filter_eq_self.mpr (List.forall_mem_map.mpr fun row _ => decide_eq_true rfl)
    · next other =>
      refine List.filter_eq_nil_iff.mpr (List.forall_mem_map.mpr fun row _ shown => other ?_)
      exact name_injective distinct (Option.some_inj.mp (of_decide_eq_true shown))
  rw [tableLines, List.filter_flatMap, List.flatMap_congr fun j _ => own j,
    flatMap_ite_eq (List.nodup_finRange palette.length) (List.mem_finRange i)]

theorem readRows_tableLines (named : ∀ i, (described i).Named) (distinct : palette.names.Nodup)
    (rows : (i : Fin palette.length) → List (palette.get i).Row) (i : Fin palette.length) :
    readRows (described i) (palette.get i).name (tableLines described rows) = some (rows i) := by
  rw [readRows, filter_tableLines distinct, List.mapM_map]
  have each : (rows i).mapM (fun row =>
      (((described i).line (palette.get i).name row).getMember "row").bind
        (readRow (described i))) = some ((rows i).map id) :=
    mapM_eq_some fun row _ => by
      rw [getMember_line, Option.bind_some, readRow_document (named i)]
      rfl
  rw [List.map_id] at each
  exact each

end Dumps

/-! ### Dumps of the example -/

theorem examplePalette_appends : ∀ kind ∈ ExamplePalette, kind.Appends := by
  simp [ExamplePalette, someipTlvKind_appends, rawTlvKind_appends, oddTlvKind_appends]

theorem named_someipTlvRow : SomeipTlvRow.described.Named := ⟨by decide +kernel, by decide +kernel⟩

theorem named_rawTlvRow : RawTlvRow.described.Named := ⟨by decide +kernel, by decide +kernel⟩

theorem named_oddTlvRow : OddTlvRow.described.Named := ⟨by decide +kernel, by decide +kernel⟩

theorem named_examplePalette : ∀ i, (ExamplePalette.described i).Named
  | ⟨0, _⟩ => named_someipTlvRow
  | ⟨1, _⟩ => named_rawTlvRow
  | ⟨2, _⟩ => named_oddTlvRow

/-- After any loads and runs of the example, what it prints is one document a line, for
each row of the tables in palette order, and the rows that are read back for a Kind are
those it made of the calls which select it. -/
theorem exampleDump_reads (calls : List EngineCall) :
    ∃ engine, Engine.after ExamplePalette buildL2l3Catalog calls = some engine ∧
      let made := fun i =>
        (callsMade ExamplePalette buildL2l3Catalog [] calls).flatMap (ExamplePalette.rowsAt i)
      ∃ lines, Json.readLines (dumpNdjson engine.tables) = some lines ∧
        lines = tableLines ExamplePalette.described made ∧
        ∀ i, readRows (ExamplePalette.described i) (ExamplePalette.get i).name lines =
          some (made i) := by
  obtain ⟨engine, reached, tables⟩ := exists_after examplePalette_appends calls
  have rows : ExamplePalette.table engine.tables = fun i =>
      (callsMade ExamplePalette buildL2l3Catalog [] calls).flatMap (ExamplePalette.rowsAt i) :=
    funext tables
  have plain : ∀ kind ∈ ExamplePalette, Json.PlainText kind.name := by decide +kernel
  have distinct : ExamplePalette.names.Nodup := by decide +kernel
  refine ⟨engine, reached, _, ?_, rfl, readRows_tableLines named_examplePalette distinct _⟩
  rw [← rows]
  exact readLines_dumpTables named_examplePalette plain engine.tables

end Nanotins.Dpar
