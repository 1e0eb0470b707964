import Mathlib.Logic.Function.Iterate
import Nanotins.Children.SomeipSd

/-!
Contract: the order keys of the children of service discovery messages.

Owns: the extent of the two arrays of a message, the number that the k-th entry
row and the k-th option row of any message hold (`getElem?_cellsOf_order`), and
for which messages that number is k (`sdOrderKept_iff`).

Does not own: the other columns of a child row.
-/

namespace Nanotins.Children

open Nanotins.Library Nanotins.Wire Nanotins.SpecDag

/-! ### The arrays of a message -/

section Extent

variable (pkt : Bytes) (off : Nat)

def IsSdMessage : Prop :=
  readUint pkt off SomeipSpec.serviceId = kSomeipSdServiceId ∧
    readUint pkt off SomeipSpec.methodId = kSomeipSdMethodId

instance : Decidable (IsSdMessage pkt off) := inferInstanceAs (Decidable (_ ∧ _))

/-- The end of the message, cut at the end of the packet. -/
def sdMessageEnd : Nat := clampEnd (off + 8 + readUint pkt off SomeipSpec.length) pkt.length

def sdEntriesStart : Nat := off + kSomeipHeaderLen + kSomeipSdPreambleLen

/-- The declared end of the entries. -/
def sdDeclaredEntriesEnd : Nat :=
  sdEntriesStart off + readUint pkt (off + kSomeipHeaderLen) SomeipSdHeaderSpec.entriesLength

def sdEntriesEnd : Nat := clampEnd (sdDeclaredEntriesEnd pkt off) (sdMessageEnd pkt off)

def sdOptionsStart : Nat := sdDeclaredEntriesEnd pkt off + 4

def sdOptionsEnd : Nat :=
  clampEnd (sdOptionsStart pkt off + readBig pkt (sdDeclaredEntriesEnd pkt off) 4)
    (sdMessageEnd pkt off)

/-- Where the option number `k` starts, by the lengths of the options before. -/
def sdOptionStart (opt k : Nat) : Nat := (fun opt => opt + 3 + readBig pkt opt 2)^[k] opt

end Extent

section Children

variable {pkt : Bytes} {off : Nat}

theorem forEachSdChild_of_not_isSdMessage (other : ¬ IsSdMessage pkt off) :
    forEachSdChild pkt off = [] := by
  unfold IsSdMessage at other
  rw [forEachSdChild_eq]
  dsimp only
  split
  · rfl
  · rw [if_pos (by omega)]

theorem sdOptions_of_le {optEnd opt : Nat} (empty : optEnd ≤ opt) :
    sdOptions pkt optEnd opt = [] := by
  rw [sdOptions, Nat.sub_eq_zero_of_le empty]
  rfl

/-- Where a message is too short for an array, its array has no room. -/
theorem forEachSdChild_of_isSdMessage (sd : IsSdMessage pkt off) :
    forEachSdChild pkt off =
      sdEntries (sdEntriesStart off)
          ((sdEntriesEnd pkt off - sdEntriesStart off) / kSomeipSdEntrySize) ++
        sdOptions pkt (sdOptionsEnd pkt off) (sdOptionsStart pkt off) := by
  have cut : sdMessageEnd pkt off ≤ pkt.length := clampEnd_le _ _
  have entriesCut : sdEntriesEnd pkt off ≤ sdMessageEnd pkt off := clampEnd_le _ _
  have optionsCut : sdOptionsEnd pkt off ≤ sdMessageEnd pkt off := clampEnd_le _ _
  have noEntries (short : sdMessageEnd pkt off ≤ sdEntriesStart off) :
      sdEntries (sdEntriesStart off)
        ((sdEntriesEnd pkt off - sdEntriesStart off) / kSomeipSdEntrySize) = [] := by
    rw [Nat.sub_eq_zero_of_le (Nat.le_trans entriesCut short), Nat.zero_div]
    rfl
  have noOptions (short : sdMessageEnd pkt off ≤ sdOptionsStart pkt off) :
      sdOptions pkt (sdOptionsEnd pkt off) (sdOptionsStart pkt off) = [] :=
    sdOptions_of_le (Nat.le_trans optionsCut short)
  have behind : sdEntriesStart off ≤ sdOptionsStart pkt off := by
    unfold sdOptionsStart sdDeclaredEntriesEnd
    omega
  have start : off + kSomeipHeaderLen ≤ sdEntriesStart off := Nat.le_add_right _ _
  rw [forEachSdChild_eq]
  change (if pkt.length < off + kSomeipHeaderLen then [] else if _ then [] else
    if sdMessageEnd pkt off < sdEntriesStart off then [] else
    if sdMessageEnd pkt off < sdOptionsStart pkt off then _ else _) = _
  split_ifs with header other preamble options
  · rw [noEntries (by omega), noOptions (by omega)]
    rfl
  · exact absurd sd (by unfold IsSdMessage; omega)
  · rw [noEntries (by omega), noOptions (by omega)]
    rfl
  · rw [noOptions (by omega), List.append_nil]
    rfl
  · rfl

theorem sdOptionStart_succ (pkt : Bytes) (opt k : Nat) :
    sdOptionStart pkt opt (k + 1) = sdOptionStart pkt (opt + 3 + readBig pkt opt 2) k :=
  Function.iterate_succ_apply _ _ _

theorem le_sdOptionStart (pkt : Bytes) (opt k : Nat) : opt ≤ sdOptionStart pkt opt k := by
  induction k generalizing opt with
  | zero => exact Nat.le_refl _
  | succ k inductionHypothesis =>
      have behind := inductionHypothesis (opt + 3 + readBig pkt opt 2)
      rw [sdOptionStart_succ]
      omega

/-- One round of the option loop; `i` options have been taken before. -/
theorem drain_sdNextOption_cons (pkt : Bytes) (optEnd i opt : Nat) :
    drain (sdNextOption pkt optEnd) (optEnd - opt) (i, opt) =
      if opt + 3 + readBig pkt opt 2 ≤ optEnd then
        .option (UInt8.ofNat i) opt (readBig pkt opt 2) (byteAt pkt (opt + 2)) ::
          drain (sdNextOption pkt optEnd) (optEnd - (opt + 3 + readBig pkt opt 2))
            (i + 1, opt + 3 + readBig pkt opt 2)
      else [] := by
  rw [drain_sdNextOption (i, opt), sdNextOption_eq]
  dsimp only
  by_cases inside : opt + 3 + readBig pkt opt 2 ≤ optEnd
  · rw [if_neg (by omega), if_neg (by omega), if_pos inside]
  · rw [if_pos (by omega : optEnd < opt + 3 + readBig pkt opt 2), if_neg inside, ite_self]

theorem getElem?_drain_sdNextOption (pkt : Bytes) (optEnd i opt k : Nat) :
    (drain (sdNextOption pkt optEnd) (optEnd - opt) (i, opt))[k]? =
      if sdOptionStart pkt opt (k + 1) ≤ optEnd then
        some (.option (UInt8.ofNat (i + k)) (sdOptionStart pkt opt k)
          (readBig pkt (sdOptionStart pkt opt k) 2) (byteAt pkt (sdOptionStart pkt opt k + 2)))
      else none := by
  induction k generalizing i opt with
  | zero =>
      rw [drain_sdNextOption_cons, sdOptionStart_succ]
      change _ = if opt + 3 + readBig pkt opt 2 ≤ optEnd then _ else none
      split <;> rfl
  | succ k inductionHypothesis =>
      rw [drain_sdNextOption_cons, sdOptionStart_succ, sdOptionStart_succ pkt opt k]
      by_cases inside : opt + 3 + readBig pkt opt 2 ≤ optEnd
      · rw [if_pos inside, List.getElem?_cons_succ, inductionHypothesis,
          Nat.add_assoc i, Nat.add_comm 1]
      · have beyond := le_sdOptionStart pkt (opt + 3 + readBig pkt opt 2) (k + 1)
        rw [if_neg inside, if_neg (by omega)]
        rfl

/-- The option number `k` is reported if it ends inside the region. -/
theorem getElem?_sdOptions (pkt : Bytes) (optEnd opt k : Nat) :
    (sdOptions pkt optEnd opt)[k]? =
      if sdOptionStart pkt opt (k + 1) ≤ optEnd then
        some (.option (UInt8.ofNat k) (sdOptionStart pkt opt k)
          (readBig pkt (sdOptionStart pkt opt k) 2) (byteAt pkt (sdOptionStart pkt opt k + 2)))
      else none := by
  have all := getElem?_drain_sdNextOption pkt optEnd 0 opt k
  rw [Nat.zero_add] at all
  exact all

end Children

/-! ### The order column -/

/-- The column that holds the place of a child in its message. -/
def SomeipSdChildTable.order : SomeipSdChildTable → SomeipSdChildColumn
  | .entry => .entryIndex
  | .option => .optionIndex

/-- The message has a whole child number `k` in the array of this table. -/
def HasSdChild (pkt : Bytes) (off : Nat) (table : SomeipSdChildTable) (k : Nat) : Prop :=
  IsSdMessage pkt off ∧
    match table with
    | .entry => sdEntriesStart off + (k + 1) * kSomeipSdEntrySize ≤ sdEntriesEnd pkt off
    | .option => sdOptionStart pkt (sdOptionsStart pkt off) (k + 1) ≤ sdOptionsEnd pkt off

instance (pkt : Bytes) (off : Nat) (table : SomeipSdChildTable) (k : Nat) :
    Decidable (HasSdChild pkt off table k) :=
  match table with
  | .entry => inferInstanceAs (Decidable (_ ∧ _ ≤ _))
  | .option => inferInstanceAs (Decidable (_ ∧ _ ≤ _))

section Order

variable {packetId : Nat} {pkt : Bytes} {off : Nat} {table : SomeipSdChildTable} {j k : Nat}

theorem sdOptionStart_mono (opt : Nat) (before : j ≤ k) :
    sdOptionStart pkt opt j ≤ sdOptionStart pkt opt k := by
  obtain ⟨further, rfl⟩ := Nat.exists_eq_add_of_le before
  unfold sdOptionStart
  rw [Nat.add_comm, Function.iterate_add_apply]
  exact le_sdOptionStart pkt _ further

theorem HasSdChild.of_le (present : HasSdChild pkt off table k) (before : j ≤ k) :
    HasSdChild pkt off table j := by
  refine ⟨present.1, ?_⟩
  have whole := present.2
  cases table with
  | entry =>
      have shorter := Nat.mul_le_mul_right kSomeipSdEntrySize (Nat.succ_le_succ before)
      exact Nat.le_trans (Nat.add_le_add_left shorter _) whole
  | option =>
      exact Nat.le_trans (sdOptionStart_mono _ (Nat.succ_le_succ before)) whole

theorem table_of_mem_sdEntries {start n : Nat} {row : Row someipSdChildSchema}
    (member : row ∈ (sdEntries start n).map (sdRow packetId pkt)) : row.table = .entry := by
  rw [sdEntries, List.map_map, List.mem_map] at member
  obtain ⟨i, -, rfl⟩ := member
  rfl

theorem table_of_mem_sdOptions {optEnd opt : Nat} {row : Row someipSdChildSchema}
    (member : row ∈ (sdOptions pkt optEnd opt).map (sdRow packetId pkt)) :
    row.table = .option := by
  obtain ⟨child, reported, rfl⟩ := List.mem_map.mp member
  obtain ⟨k, found⟩ := List.mem_iff_getElem?.mp reported
  rw [getElem?_sdOptions] at found
  split at found
  · cases found
    rfl
  · contradiction

/-- The number that a child row holds is its place modulo 256. -/
theorem getElem?_cellsOf_order (packetId : Nat) (pkt : Bytes) (off : Nat)
    (table : SomeipSdChildTable) (k : Nat) :
    (cellsOf table.order ((forEachSdChild pkt off).map (sdRow packetId pkt)))[k]? =
      if HasSdChild pkt off table k then some (.uint (k % 256)) else none := by
  by_cases sd : IsSdMessage pkt off
  · rw [forEachSdChild_of_isSdMessage sd, List.map_append, cellsOf_append]
    cases table with
    | entry =>
        have present : HasSdChild pkt off .entry k ↔
            k < (sdEntriesEnd pkt off - sdEntriesStart off) / kSomeipSdEntrySize := by
          apply (and_iff_right sd).trans
          dsimp only
          rw [kSomeipSdEntrySize]
          omega
        rw [cellsOf_eq_map fun row => table_of_mem_sdEntries,
          cellsOf_eq_nil fun row member => by rw [table_of_mem_sdOptions member]; decide,
          List.append_nil, sdEntries, List.map_map, List.map_map, List.getElem?_map]
        by_cases below : k < (sdEntriesEnd pkt off - sdEntriesStart off) / kSomeipSdEntrySize
        · rw [if_pos (present.mpr below), List.getElem?_range below]
          rfl
        · rw [if_neg (mt present.mp below), List.getElem?_eq_none]
          · rfl
          · rw [List.length_range]
            exact Nat.not_lt.mp below
    | option =>
        have present : HasSdChild pkt off .option k ↔
            sdOptionStart pkt (sdOptionsStart pkt off) (k + 1) ≤ sdOptionsEnd pkt off :=
          and_iff_right sd
        rw [cellsOf_eq_nil fun row member => by rw [table_of_mem_sdEntries member]; decide,
          cellsOf_eq_map fun row => table_of_mem_sdOptions, List.nil_append, List.map_map,
          List.getElem?_map, getElem?_sdOptions, if_congr present rfl rfl]
        split <;> rfl
  · rw [forEachSdChild_of_not_isSdMessage sd, if_neg fun present => sd present.1]
    rfl

end Order

/-! ### Order keys -/

/-- The k-th child row of either table that the message at `off` gives holds k,
both as the serial decoder appends the rows and as the scatter pass writes them;
so its number identifies a row of the message. -/
structure SdOrderKept (packetId : Nat) (pkt : Bytes) (off : Nat) : Prop where
  serial : ∀ (kids : SomeipSdChildTables) (table : SomeipSdChildTable) (k : Nat)
    (value : FieldValue),
    (emitSdChildren packetId pkt off kids table.order)[(kids table.order).length + k]? =
      some value → value = .uint k
  scatter : ∀ (base : SomeipSdChildCounts) (table : SomeipSdChildTable) (k : Nat)
    (write : Nat × FieldValue),
    (writesTo table.order
      ((forEachSdChild pkt off).foldl (scatterSdChild packetId pkt) ⟨base, []⟩).issued)[k]? =
        some write → write.2 = .uint k
  identified : ∀ (kids : SomeipSdChildTables) (table : SomeipSdChildTable) (j k : Nat)
    (value : FieldValue),
    (emitSdChildren packetId pkt off kids table.order)[(kids table.order).length + j]? =
      some value →
    (emitSdChildren packetId pkt off kids table.order)[(kids table.order).length + k]? =
      some value → j = k

section OrderKept

variable (packetId : Nat) (pkt : Bytes) (off : Nat)

theorem getElem?_emitSdChildren_order (kids : SomeipSdChildTables) (table : SomeipSdChildTable)
    (k : Nat) :
    (emitSdChildren packetId pkt off kids table.order)[(kids table.order).length + k]? =
      if HasSdChild pkt off table k then some (.uint (k % 256)) else none := by
  rw [emitSdChildren_eq, Store.appendAll_apply, List.getElem?_append_right (Nat.le_add_right _ _),
    Nat.add_sub_cancel_left, getElem?_cellsOf_order]

theorem getElem?_scatterSdChild_order (base : SomeipSdChildCounts) (table : SomeipSdChildTable)
    (k : Nat) :
    ((writesTo table.order ((forEachSdChild pkt off).foldl (scatterSdChild packetId pkt)
      ⟨base, []⟩).issued)[k]?).map Prod.snd =
      if HasSdChild pkt off table k then some (.uint (k % 256)) else none := by
  have issued : ((forEachSdChild pkt off).foldl (scatterSdChild packetId pkt) ⟨base, []⟩).issued =
      scatterRows counterModulus base ((forEachSdChild pkt off).map (sdRow packetId pkt)) := by
    rw [scatterSdChild_eq]
    refine (congrArg Scatter.issued (List.foldl_map (f := sdRow packetId pkt)
      (g := fun state row => state.row counterModulus row.table row.writes)).symm).trans ?_
    exact Scatter.issued_rows _ _
  rw [issued, ← List.getElem?_map, map_snd_writesTo_scatterRows, getElem?_cellsOf_order]

variable {packetId pkt off}

theorem not_hasSdChild_of_sdOrderKept (kept : SdOrderKept packetId pkt off)
    (table : SomeipSdChildTable) : ¬ HasSdChild pkt off table 256 := by
  intro present
  have last := getElem?_emitSdChildren_order packetId pkt off (fun _ => []) table 256
  rw [if_pos present] at last
  have number := kept.serial (fun _ => []) table 256 _ last
  exact absurd number (by decide)

theorem number_of_getElem?_order {table : SomeipSdChildTable} {k : Nat} {value : FieldValue}
    (few : ¬ HasSdChild pkt off table 256)
    (found : (if HasSdChild pkt off table k then some (.uint (k % 256)) else none) = some value) :
    value = .uint k := by
  split at found
  · next present =>
    have below : k < 256 := by
      by_contra beyond
      exact few (present.of_le (Nat.not_lt.mp beyond))
    cases found
    rw [Nat.mod_eq_of_lt below]
  · contradiction

theorem sdOrderKept_of_few (few : ∀ table, ¬ HasSdChild pkt off table 256) :
    SdOrderKept packetId pkt off where
  serial kids table k value found := by
    rw [getElem?_emitSdChildren_order] at found
    exact number_of_getElem?_order (few table) found
  scatter base table k write found := by
    have number := getElem?_scatterSdChild_order packetId pkt off base table k
    rw [found] at number
    exact number_of_getElem?_order (few table) number.symm
  identified kids table j k value first second := by
    rw [getElem?_emitSdChildren_order] at first second
    have same := number_of_getElem?_order (few table) first
    rw [number_of_getElem?_order (few table) second] at same
    exact (FieldValue.uint.inj same).symm

end OrderKept

/-- The order keys are kept unless a 257th entry or option is whole. -/
theorem sdOrderKept_iff (packetId : Nat) (pkt : Bytes) (off : Nat) :
    SdOrderKept packetId pkt off ↔ ∀ table, ¬ HasSdChild pkt off table 256 :=
  ⟨not_hasSdChild_of_sdOrderKept, sdOrderKept_of_few⟩

/-- An Ethernet frame with a service discovery message of 257 entries, which are
all zero. -/
def crowdedSdFrame : Bytes :=
  List.replicate 12 0 ++ [0x08, 0x00] ++
    ([0x45, 0, 0x10, 0x44, 0, 0, 0, 0, 64, 17] ++ List.replicate 10 0) ++
    ([0x77, 0x1A, 0x77, 0x1A, 0x10, 0x30, 0, 0]) ++
    ([0xFF, 0xFF, 0x81, 0x00, 0, 0, 0x10, 0x20] ++ List.replicate 8 1) ++
    (List.replicate 4 0 ++ [0, 0, 0x10, 0x10] ++ List.replicate (257 * 16) 0)

theorem length_crowdedSdFrame : crowdedSdFrame.length = 4178 := by
  simp only [crowdedSdFrame, List.length_append, List.length_replicate, List.length_cons,
    List.length_nil]

/-- The entry number 256 of the message gets the number 0. -/
theorem sdOrderKept_fails : ¬ SdOrderKept 0 crowdedSdFrame 42 := by
  intro kept
  apply not_hasSdChild_of_sdOrderKept kept .entry
  refine ⟨by decide, ?_⟩
  have messageLength : readUint crowdedSdFrame 42 SomeipSpec.length = 4128 := by decide
  have entriesLength : readUint crowdedSdFrame 58 SomeipSdHeaderSpec.entriesLength = 4112 := by
    decide
  change 42 + 16 + 8 + 257 * 16 ≤ clampEnd (42 + 16 + 8 +
    readUint crowdedSdFrame 58 SomeipSdHeaderSpec.entriesLength)
      (clampEnd (42 + 8 + readUint crowdedSdFrame 42 SomeipSpec.length) crowdedSdFrame.length)
  rw [messageLength, entriesLength, length_crowdedSdFrame]
  decide

end Nanotins.Children
