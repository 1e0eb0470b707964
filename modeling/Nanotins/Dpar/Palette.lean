import Nanotins.Children.SomeipTlv
import Nanotins.Children.Tlv
import Nanotins.Dpar.Match

/-!
Contract: the parsers that rules select, as `dpar_palette.hpp` composes them.

Owns: parser Kinds, the palette's tables and its dispatch, the built-in Kinds,
and that the dispatch adds to the tables as many rows as its Kind says
(`rowCount_emit`).

Does not own: rules, or when a parser is called.
-/

namespace Nanotins.Dpar

open Nanotins.Library Nanotins.Children

/-! ### Kinds -/

/-- A parser: `emit pid ruleId pkt p stop out` runs over the bytes `[p, stop)` of
the packet and gives the number of rows it emitted, and `out` after it. -/
structure Kind where
  Row : Type
  name : Text
  emit : Nat → Nat → Bytes → Nat → Nat → List Row → Nat × List Row

/-- The Kind returns the number of rows it pushes. -/
def Kind.CountsRows (kind : Kind) : Prop :=
  ∀ pid ruleId pkt p stop out,
    (kind.emit pid ruleId pkt p stop out).2.length =
      out.length + (kind.emit pid ruleId pkt p stop out).1

structure SomeipTlvRow where
  packetId : Nat
  ruleId : Nat
  memberIndex : Nat
  dataId : Nat
  wireType : Nat
  length : Nat
  valueOffset : Nat
deriving DecidableEq, Repr

structure RawTlvRow where
  packetId : Nat
  ruleId : Nat
  index : Nat
  type : UInt8
  length : UInt8
deriving DecidableEq, Repr

section Rows

variable (pid ruleId : Nat) (pkt : Bytes) (p stop : Nat)

def someipTlvRows : List SomeipTlvRow :=
  (SomeipTlvCursor.records pkt ⟨p, stop⟩).zipIdx.map fun (r, idx) =>
    ⟨pid, ruleId, idx % 2 ^ 32, r.dataId, r.wireType, r.length,
      (r.value.elim 0 fun value => value - p) % 2 ^ 32⟩

def rawTlvRows : List RawTlvRow :=
  (TlvCursor.records pkt ⟨p, stop, .raw⟩).zipIdx.map fun (r, idx) =>
    ⟨pid, ruleId, idx % 2 ^ 32, r.type, r.length⟩

@[simp] theorem length_someipTlvRows :
    (someipTlvRows pid ruleId pkt p stop).length =
      (SomeipTlvCursor.records pkt ⟨p, stop⟩).length := by
  rw [someipTlvRows, List.length_map, List.length_zipIdx]

@[simp] theorem length_rawTlvRows :
    (rawTlvRows pid ruleId pkt p stop).length =
      (TlvCursor.records pkt ⟨p, stop, .raw⟩).length := by
  rw [rawTlvRows, List.length_map, List.length_zipIdx]

end Rows

/-- Structural tabulation of SOME/IP TLV members. -/
def SomeipTlvKind : Kind where
  Row := SomeipTlvRow
  name := "someip_tlv".toList
  emit pid ruleId pkt p stop out :=
    ((SomeipTlvCursor.records pkt ⟨p, stop⟩).length, out ++ someipTlvRows pid ruleId pkt p stop)

/-- Generic `[type][len][value]` records. -/
def RawTlvKind : Kind where
  Row := RawTlvRow
  name := "raw_tlv".toList
  emit pid ruleId pkt p stop out :=
    ((TlvCursor.records pkt ⟨p, stop, .raw⟩).length, out ++ rawTlvRows pid ruleId pkt p stop)

theorem someipTlvKind_countsRows : SomeipTlvKind.CountsRows := by
  intro pid ruleId pkt p stop out
  apply List.length_append.trans
  exact congrArg _ (length_someipTlvRows pid ruleId pkt p stop)

theorem rawTlvKind_countsRows : RawTlvKind.CountsRows := by
  intro pid ruleId pkt p stop out
  apply List.length_append.trans
  exact congrArg _ (length_rawTlvRows pid ruleId pkt p stop)

/-! ### Palettes -/

/-- The Kinds in palette order. -/
abbrev Palette := List Kind

/-- The lib built-ins. -/
def DefaultPalette : Palette := [SomeipTlvKind, RawTlvKind]

namespace Palette

/-- One table for each Kind. -/
def Tables : Palette → Type
  | [] => Unit
  | kind :: kinds => List kind.Row × Tables kinds

def emptyTables : (palette : Palette) → Tables palette
  | [] => ()
  | _ :: kinds => ([], emptyTables kinds)

/-- The Kind names, in palette order. -/
def names (palette : Palette) : List Text := palette.map Kind.name

/-- Run the Kind at index `kind`; `i` is the index of the first of the palette. -/
def emitAt (call : MatchCall) (pkt : Bytes) :
    Nat → (palette : Palette) → Tables palette → Nat × Tables palette
  | _, [], tables => (0, tables)
  | i, kind :: kinds, (table, tables) =>
      if call.parserKind = i then
        let (rows, table) :=
          kind.emit call.packetId call.ruleId pkt call.regionBegin call.regionEnd table
        (rows, (table, tables))
      else
        let (rows, tables) := emitAt call pkt (i + 1) kinds tables
        (rows, (table, tables))

/-- Run the Kind that the call selects; a kind that is not in the palette emits
nothing. -/
def emit (palette : Palette) (pkt : Bytes) (tables : Tables palette) (call : MatchCall) :
    Nat × Tables palette :=
  emitAt call pkt 0 palette tables

/-- The rows in all tables. -/
def rowCount : (palette : Palette) → Tables palette → Nat
  | [], _ => 0
  | _ :: kinds, (table, tables) => table.length + rowCount kinds tables

@[simp] theorem rowCount_emptyTables (palette : Palette) :
    palette.rowCount palette.emptyTables = 0 := by
  induction palette with
  | nil => rfl
  | cons kind kinds inductionHypothesis =>
      show 0 + rowCount kinds (emptyTables kinds) = 0
      rw [inductionHypothesis]

theorem rowCount_emitAt (call : MatchCall) (pkt : Bytes) {palette : Palette}
    (counts : ∀ kind ∈ palette, kind.CountsRows) (i : Nat) (tables : palette.Tables) :
    palette.rowCount (emitAt call pkt i palette tables).2 =
      palette.rowCount tables + (emitAt call pkt i palette tables).1 := by
  induction palette generalizing i with
  | nil => rfl
  | cons kind kinds inductionHypothesis =>
      rcases tables with ⟨table, tables⟩
      rw [List.forall_mem_cons] at counts
      rw [emitAt]
      split
      · have pushed := counts.1 call.packetId call.ruleId pkt call.regionBegin call.regionEnd table
        show List.length _ + rowCount kinds tables = table.length + rowCount kinds tables + _
        rw [pushed]
        exact Nat.add_right_comm _ _ _
      · have rest := inductionHypothesis counts.2 (i + 1) tables
        show table.length + rowCount kinds _ = table.length + rowCount kinds tables + _
        rw [rest]
        exact (Nat.add_assoc _ _ _).symm

/-- The tables grow by the rows that the dispatch returns. -/
theorem rowCount_emit {palette : Palette} (counts : ∀ kind ∈ palette, kind.CountsRows)
    (pkt : Bytes) (tables : palette.Tables) (call : MatchCall) :
    palette.rowCount (palette.emit pkt tables call).2 =
      palette.rowCount tables + (palette.emit pkt tables call).1 :=
  rowCount_emitAt call pkt counts 0 tables

end Palette

theorem defaultPalette_countsRows : ∀ kind ∈ DefaultPalette, kind.CountsRows := by
  simp [DefaultPalette, someipTlvKind_countsRows, rawTlvKind_countsRows]

end Nanotins.Dpar
