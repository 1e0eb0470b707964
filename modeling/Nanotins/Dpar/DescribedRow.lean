import Nanotins.Children.SomeipTlvGrammar
import Nanotins.Dpar.TableRows
import Nanotins.Soatins.Reflect

/-!
Contract: the rows of parser Kinds as described structs.

Owns: described rows of unsigned members, those of the built-in Kinds, and that the
rows which the calls of a sequence make fit their members (`inRange_of_callsMade`).

Does not own: what is made of a description.
-/

namespace Nanotins.Dpar

open Nanotins.Library Nanotins.Children Nanotins.Soatins

/-! ### Descriptions -/

/-- A described member: its name, its unsigned type and its value in a row. -/
structure RowField (Row : Type) where
  name : String
  size : IntSize
  get : Row → Nat

/-- `BOOST_DESCRIBE_STRUCT` of a row that its members make up. -/
structure DescribedRow (Row : Type) where
  fields : List (RowField Row)
  ofCells : List Nat → Option Row
  ofCells_cells : ∀ row, ofCells (fields.map fun field => field.get row) = some row

def RowField.type {Row : Type} (field : RowField Row) : IntType := ⟨false, field.size⟩

/-- The values of the members fit their types. -/
def DescribedRow.InRange {Row : Type} (described : DescribedRow Row) (row : Row) : Prop :=
  ∀ field ∈ described.fields, field.get row < 2 ^ field.type.bits

def SomeipTlvRow.described : DescribedRow SomeipTlvRow where
  fields :=
    [⟨"packet_id", .eight, packetId⟩, ⟨"rule_id", .four, ruleId⟩,
      ⟨"member_index", .four, memberIndex⟩, ⟨"data_id", .two, dataId⟩,
      ⟨"wire_type", .one, wireType⟩, ⟨"length", .four, length⟩,
      ⟨"value_offset", .four, valueOffset⟩]
  ofCells
    | [packetId, ruleId, memberIndex, dataId, wireType, length, valueOffset] =>
        some ⟨packetId, ruleId, memberIndex, dataId, wireType, length, valueOffset⟩
    | _ => none
  ofCells_cells := fun ⟨_, _, _, _, _, _, _⟩ => rfl

def RawTlvRow.described : DescribedRow RawTlvRow where
  fields :=
    [⟨"packet_id", .eight, packetId⟩, ⟨"rule_id", .four, ruleId⟩, ⟨"index", .four, index⟩,
      ⟨"type", .one, fun row => row.type.toNat⟩, ⟨"length", .one, fun row => row.length.toNat⟩]
  ofCells
    | [packetId, ruleId, index, type, length] =>
        some ⟨packetId, ruleId, index, UInt8.ofNat type, UInt8.ofNat length⟩
    | _ => none
  ofCells_cells := fun ⟨_, _, _, _, _⟩ => by simp

/-! ### Rows of Kinds -/

/-- Ids of the types that `emit` takes. -/
def MatchCall.IdsFit (call : MatchCall) : Prop :=
  call.packetId < 2 ^ 64 ∧ call.ruleId < 2 ^ 32

/-- A Kind whose row is described, and whose rows fit their members. -/
structure Kind.Described (kind : Kind) where
  row : DescribedRow kind.Row
  inRange : ∀ (pkt : Bytes) (call : MatchCall), call.IdsFit →
    ∀ made ∈ kind.rows pkt call, row.InRange made

section Records

variable {pkt : Bytes} {cursor : SomeipTlvCursor}

theorem length_lt_of_lengthIs {wt q len : Nat} (known : SomeipTlvCursor.LengthIs pkt wt q len) :
    len < 2 ^ 32 := by
  have width : lengthWidth wt ≤ 4 := by
    unfold lengthWidth
    split <;> omega
  have word : readBig pkt q (lengthWidth wt) < 2 ^ 32 := by
    have small := readBig_lt pkt q (lengthWidth wt)
    have fits : 256 ^ lengthWidth wt ≤ 256 ^ 4 := Nat.pow_le_pow_right (by decide) width
    omega
  unfold SomeipTlvCursor.LengthIs at known
  split at known <;> first
    | omega
    | exact known.elim

/-- The members that the cursor reports fit the members of the row. -/
theorem someipTlvRecord_lt :
    ∀ record ∈ cursor.records pkt,
      record.dataId < 2 ^ 16 ∧ record.wireType < 2 ^ 8 ∧ record.length < 2 ^ 32 := by
  refine forall_mem_drain (fun _ => True) (fun record : SomeipTlvRecord =>
    record.dataId < 2 ^ 16 ∧ record.wireType < 2 ^ 8 ∧ record.length < 2 ^ 32) ?_ trivial _
  intro state behind record _ taken
  obtain ⟨len, known, -, rfl, -⟩ := SomeipTlvCursor.next_eq_some_iff.mp taken
  have long := length_lt_of_lengthIs known
  have type : SomeipTlvCursor.wireTypeAt pkt state.p < 8 := Nat.mod_lt _ (by decide)
  refine ⟨⟨?_, ?_, long⟩, trivial⟩
  · dsimp only
    omega
  · dsimp only
    omega

end Records

theorem inRange_someipTlvRow {row : SomeipTlvRow}
    (bounds : row.packetId < 2 ^ 64 ∧ row.ruleId < 2 ^ 32 ∧ row.memberIndex < 2 ^ 32 ∧
      row.dataId < 2 ^ 16 ∧ row.wireType < 2 ^ 8 ∧ row.length < 2 ^ 32 ∧ row.valueOffset < 2 ^ 32) :
    SomeipTlvRow.described.InRange row := by
  simp only [DescribedRow.InRange, SomeipTlvRow.described, List.forall_mem_cons]
  obtain ⟨packetId, ruleId, index, dataId, wireType, length, offset⟩ := bounds
  exact ⟨packetId, ruleId, index, dataId, wireType, length, offset, List.forall_mem_nil _⟩

theorem inRange_rawTlvRow {row : RawTlvRow}
    (bounds : row.packetId < 2 ^ 64 ∧ row.ruleId < 2 ^ 32 ∧ row.index < 2 ^ 32) :
    RawTlvRow.described.InRange row := by
  simp only [DescribedRow.InRange, RawTlvRow.described, List.forall_mem_cons]
  obtain ⟨packetId, ruleId, index⟩ := bounds
  exact ⟨packetId, ruleId, index, row.type.toNat_lt, row.length.toNat_lt, List.forall_mem_nil _⟩

theorem mod_two_pow_lt (n w : Nat) : n % 2 ^ w < 2 ^ w := Nat.mod_lt _ (Nat.two_pow_pos w)

def SomeipTlvKind.described : SomeipTlvKind.Described where
  row := SomeipTlvRow.described
  inRange := by
    intro pkt call fit made member
    obtain ⟨⟨record, idx⟩, listed, rfl⟩ := List.mem_map.mp member
    obtain ⟨dataId, wireType, length⟩ := someipTlvRecord_lt record (List.fst_mem_of_mem_zipIdx listed)
    have index := mod_two_pow_lt idx 32
    have offset := mod_two_pow_lt
      (record.value.elim 0 fun value => value - call.regionBegin) 32
    refine inRange_someipTlvRow ⟨fit.1, fit.2, index, dataId, wireType, length, offset⟩

def RawTlvKind.described : RawTlvKind.Described where
  row := RawTlvRow.described
  inRange := by
    intro pkt call fit made member
    obtain ⟨⟨record, idx⟩, -, rfl⟩ := List.mem_map.mp member
    have index := mod_two_pow_lt idx 32
    refine inRange_rawTlvRow ⟨fit.1, fit.2, index⟩

def DefaultPalette.described :
    (i : Fin DefaultPalette.length) → (DefaultPalette.get i).Described
  | ⟨0, _⟩ => SomeipTlvKind.described
  | ⟨1, _⟩ => RawTlvKind.described

/-! ### Rows of sequences -/

section Calls

variable {palette : Palette} {calls : List EngineCall}

/-- The ids of the packets of a sequence are of the type that `run` takes. -/
def PacketIdsFit (calls : List EngineCall) : Prop :=
  ∀ pkt, EngineCall.run pkt ∈ calls → pkt.packetId < 2 ^ 64

/-- The rows that the calls of a sequence make fit their members. -/
theorem inRange_of_callsMade (ids : PacketIdsFit calls) (i : Fin palette.length)
    (described : (palette.get i).Described) :
    ∀ made ∈ (callsMade palette buildL2l3Catalog [] calls).flatMap (palette.rowsAt i),
      described.row.InRange made := by
  intro made member
  obtain ⟨called, listed, own⟩ := List.mem_flatMap.mp member
  obtain ⟨ruleId, pkt, run, -, packetId⟩ :=
    ids_of_mem_callsMade (List.forall_mem_nil _) calls called listed
  rw [Palette.rowsAt] at own
  split at own
  · have fit : called.2.IdsFit := ⟨packetId ▸ ids pkt run, ruleId⟩
    exact described.inRange called.1 called.2 fit made own
  · contradiction

end Calls

end Nanotins.Dpar
