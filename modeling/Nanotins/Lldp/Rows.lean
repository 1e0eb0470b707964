import Nanotins.Dpar.TableRows
import Nanotins.Lldp.Cursor

/-!
Contract: the rows that `LldpKind` makes of a region.

Owns: the row of a TLV, with the typed columns of the TLVs that have any, that the
rows of a region are those of the TLVs it is decoded to (`lldpRows_eq`), and that
reading them stays inside the region.

Does not own: when the Kind is called.
-/

namespace Nanotins.Lldp

open Nanotins.Library Nanotins.Dpar

/-- A row of zeros is what the source fills in. -/
structure LldpTlvRow where
  packetId : Nat := 0
  ruleId : Nat := 0
  tlvIndex : Nat := 0
  tlvType : Nat := 0
  tlvLength : Nat := 0
  subtype : Nat := 0
  valueOffset : Nat := 0
  ttlSeconds : Nat := 0
  capsSupported : Nat := 0
  capsEnabled : Nat := 0
  mgmtAddrSubtype : Nat := 0
  mgmtIfaceSubtype : Nat := 0
  mgmtIfaceNumber : Nat := 0
  valueHead : Vector UInt8 32 := Vector.replicate 32 0
deriving DecidableEq, Repr

/-- The bytes of a value that the snapshot shows, and zeros behind them. -/
def headOf (shown : Bytes) : Vector UInt8 32 := Vector.ofFn fun i => shown.getD i 0

section Reader

variable {m : Type → Type} [Monad m] (rd : Nat → m UInt8)

/-- Read a word that the guard keeps inside the value; else the column stays. -/
def readWithinM (inside : Prop) [Decidable inside] (off n kept : Nat) : m Nat :=
  if inside then readBigM rd off n else pure kept

def decodeMgmtAddrM (length v : Nat) (row : LldpTlvRow) : m LldpTlvRow := do
  if length < 1 then
    return row
  else
    -- counts the subtype octet and the address
    let addrStrLen ← readBigM rd v 1
    if addrStrLen < 1 ∨ length < 1 + addrStrLen then
      return row
    else
      let afterAddr := 1 + addrStrLen
      let family ← readBigM rd (v + 1) 1
      let ifaceSubtype ←
        readWithinM rd (afterAddr + 1 ≤ length) (v + afterAddr) 1 row.mgmtIfaceSubtype
      let ifaceNumber ←
        readWithinM rd (afterAddr + 1 + 4 ≤ length) (v + afterAddr + 1) 4 row.mgmtIfaceNumber
      return { row with
        mgmtAddrSubtype := family
        mgmtIfaceSubtype := ifaceSubtype
        mgmtIfaceNumber := ifaceNumber }

/-- A TLV that is too short leaves its columns as they are. -/
def decodeTypedM (r : LldpTlvRecord) (row : LldpTlvRow) : m LldpTlvRow := do
  match r.value with
  | none => return row
  | some v =>
      if r.type = kLldpTtl then
        let seconds ← readWithinM rd (2 ≤ r.length) v 2 row.ttlSeconds
        return { row with ttlSeconds := seconds }
      else if r.type = kLldpSysCaps then
        let supported ← readWithinM rd (4 ≤ r.length) v 2 row.capsSupported
        let enabled ← readWithinM rd (4 ≤ r.length) (v + 2) 2 row.capsEnabled
        return { row with capsSupported := supported, capsEnabled := enabled }
      else if r.type = kLldpMgmtAddr then
        decodeMgmtAddrM rd r.length v row
      else
        return row

def subtypeM (r : LldpTlvRecord) : m Nat :=
  match r.value with
  | none => pure 0
  | some v => readWithinM rd ((r.type = kLldpChassisId ∨ r.type = kLldpPortId) ∧ 1 ≤ r.length) v 1 0

/-- The first bytes of the value. -/
def shownM (r : LldpTlvRecord) : m Bytes :=
  match r.value with
  | none => pure []
  | some v => readBytesM rd v (min r.length 32)

/-- The columns that depend on the value. -/
def fillM (r : LldpTlvRecord) (row : LldpTlvRow) : m LldpTlvRow := do
  let subtype ← subtypeM rd r
  let shown ← shownM rd r
  decodeTypedM rd r { row with subtype := subtype, valueHead := headOf shown }

/-- The row of the TLV with the number `idx`, in a region from `p` on. -/
def rowM (pid ruleId p : Nat) (r : LldpTlvRecord) (idx : Nat) : m LldpTlvRow :=
  fillM rd r
    { packetId := pid
      ruleId := ruleId
      tlvIndex := idx % 2 ^ 32
      tlvType := r.type
      tlvLength := r.length
      valueOffset := (r.value.elim 0 fun value => value - p) % 2 ^ 16 }

def lldpRowsM (pid ruleId p stop : Nat) : m (List LldpTlvRow) := do
  let records ← LldpCursor.recordsM rd ⟨p, stop⟩
  records.zipIdx.mapM fun (r, idx) => rowM rd pid ruleId p r idx

end Reader

def fill (bytes : Bytes) (r : LldpTlvRecord) (row : LldpTlvRow) : LldpTlvRow :=
  Id.run (fillM (byteAt bytes) r row)

def lldpRows (pid ruleId : Nat) (pkt : Bytes) (p stop : Nat) : List LldpTlvRow :=
  (LldpCursor.records pkt ⟨p, stop⟩).zipIdx.map fun (r, idx) =>
    Id.run (rowM (byteAt pkt) pid ruleId p r idx)

@[simp] theorem length_lldpRows (pid ruleId : Nat) (pkt : Bytes) (p stop : Nat) :
    (lldpRows pid ruleId pkt p stop).length = (LldpCursor.records pkt ⟨p, stop⟩).length := by
  rw [lldpRows, List.length_map, List.length_zipIdx]

/-- One row for each TLV. -/
def LldpKind : Kind where
  Row := LldpTlvRow
  name := "lldp".toList
  emit pid ruleId pkt p stop out :=
    ((LldpCursor.records pkt ⟨p, stop⟩).length, out ++ lldpRows pid ruleId pkt p stop)

theorem lldpKind_appends : LldpKind.Appends := by
  intro pid ruleId pkt p stop out
  exact congrArg (fun n => (n, List.append out (lldpRows pid ruleId pkt p stop)))
    (length_lldpRows pid ruleId pkt p stop).symm

def LldpPalette : Palette := [LldpKind]

theorem lldpPalette_appends : ∀ kind ∈ LldpPalette, kind.Appends :=
  List.forall_mem_singleton.mpr lldpKind_appends

/-! ### Values by themselves -/

/-- A management address TLV names an address family, and its value has the address. -/
def HasAddress (bytes : Bytes) (v length : Nat) : Prop :=
  1 ≤ length ∧ 1 ≤ readBig bytes v 1 ∧ 1 + readBig bytes v 1 ≤ length

instance (bytes : Bytes) (v length : Nat) : Decidable (HasAddress bytes v length) :=
  inferInstanceAs (Decidable (_ ∧ _))

def readWithin (bytes : Bytes) (inside : Prop) [Decidable inside] (off n kept : Nat) : Nat :=
  if inside then readBig bytes off n else kept

section Fill

variable {bytes left right : Bytes} {v w type length : Nat} {row : LldpTlvRow}

theorem fill_of_none : fill bytes ⟨type, length, none⟩ row =
    { row with subtype := 0, valueHead := headOf [] } :=
  rfl

theorem run_readWithinM (inside : Prop) [Decidable inside] (off n kept : Nat) :
    Id.run (readWithinM (byteAt bytes) inside off n kept) = readWithin bytes inside off n kept :=
  apply_ite Id.run _ _ _

theorem run_decodeMgmtAddrM :
    Id.run (decodeMgmtAddrM (byteAt bytes) length v row) =
      let afterAddr := 1 + readBig bytes v 1
      if length < 1 then row
      else if readBig bytes v 1 < 1 ∨ length < 1 + readBig bytes v 1 then row
      else
        { row with
          mgmtAddrSubtype := readBig bytes (v + 1) 1
          mgmtIfaceSubtype := Id.run (readWithinM (byteAt bytes) (afterAddr + 1 ≤ length)
            (v + afterAddr) 1 row.mgmtIfaceSubtype)
          mgmtIfaceNumber := Id.run (readWithinM (byteAt bytes) (afterAddr + 1 + 4 ≤ length)
            (v + afterAddr + 1) 4 row.mgmtIfaceNumber) } :=
  rfl

theorem decodeMgmtAddr_eq :
    Id.run (decodeMgmtAddrM (byteAt bytes) length v row) =
      let afterAddr := 1 + readBig bytes v 1
      if HasAddress bytes v length then
        { row with
          mgmtAddrSubtype := readBig bytes (v + 1) 1
          mgmtIfaceSubtype := readWithin bytes (afterAddr + 1 ≤ length) (v + afterAddr) 1
            row.mgmtIfaceSubtype
          mgmtIfaceNumber := readWithin bytes (afterAddr + 1 + 4 ≤ length) (v + afterAddr + 1) 4
            row.mgmtIfaceNumber }
      else row := by
  rw [run_decodeMgmtAddrM]
  dsimp only
  rw [run_readWithinM, run_readWithinM]
  by_cases present : HasAddress bytes v length
  · rw [if_pos present]
    obtain ⟨long, named, inside⟩ := present
    rw [if_neg (by omega), if_neg (by omega)]
  · rw [if_neg present]
    unfold HasAddress at present
    by_cases empty : length < 1
    · rw [if_pos empty]
    · rw [if_neg empty, if_pos (by omega)]

/-- The columns of a TLV with a value, in closed form. -/
theorem fill_of_some :
    fill bytes ⟨type, length, some v⟩ row =
      let address := type = kLldpMgmtAddr ∧ HasAddress bytes v length
      let afterAddr := 1 + readBig bytes v 1
      { row with
        subtype := readWithin bytes ((type = kLldpChassisId ∨ type = kLldpPortId) ∧ 1 ≤ length) v 1 0
        valueHead := headOf (readBytes bytes v (min length 32))
        ttlSeconds := readWithin bytes (type = kLldpTtl ∧ 2 ≤ length) v 2 row.ttlSeconds
        capsSupported := readWithin bytes (type = kLldpSysCaps ∧ 4 ≤ length) v 2 row.capsSupported
        capsEnabled :=
          readWithin bytes (type = kLldpSysCaps ∧ 4 ≤ length) (v + 2) 2 row.capsEnabled
        mgmtAddrSubtype := readWithin bytes address (v + 1) 1 row.mgmtAddrSubtype
        mgmtIfaceSubtype := readWithin bytes (address ∧ afterAddr + 1 ≤ length) (v + afterAddr) 1
          row.mgmtIfaceSubtype
        mgmtIfaceNumber := readWithin bytes (address ∧ afterAddr + 1 + 4 ≤ length)
          (v + afterAddr + 1) 4 row.mgmtIfaceNumber } := by
  have parts : fill bytes ⟨type, length, some v⟩ row =
      Id.run (decodeTypedM (byteAt bytes) ⟨type, length, some v⟩ { row with
        subtype := Id.run (subtypeM (byteAt bytes) ⟨type, length, some v⟩)
        valueHead := headOf (readBytes bytes v (min length 32)) }) := rfl
  have typed : ∀ row, Id.run (decodeTypedM (byteAt bytes) ⟨type, length, some v⟩ row) =
      if type = kLldpTtl then
        { row with ttlSeconds := Id.run (readWithinM (byteAt bytes) (2 ≤ length) v 2 row.ttlSeconds) }
      else if type = kLldpSysCaps then
        { row with
          capsSupported :=
            Id.run (readWithinM (byteAt bytes) (4 ≤ length) v 2 row.capsSupported)
          capsEnabled :=
            Id.run (readWithinM (byteAt bytes) (4 ≤ length) (v + 2) 2 row.capsEnabled) }
      else if type = kLldpMgmtAddr then Id.run (decodeMgmtAddrM (byteAt bytes) length v row)
      else row := fun _ => rfl
  have subtype : Id.run (subtypeM (byteAt bytes) ⟨type, length, some v⟩) = _ :=
    run_readWithinM _ _ _ _
  rw [parts, typed, subtype]
  simp only [run_readWithinM, decodeMgmtAddr_eq]
  by_cases ttl : type = kLldpTtl
  · simp [ttl, kLldpTtl, kLldpSysCaps, kLldpMgmtAddr, readWithin]
  by_cases caps : type = kLldpSysCaps
  · simp [caps, kLldpTtl, kLldpSysCaps, kLldpMgmtAddr, readWithin]
  by_cases mgmt : type = kLldpMgmtAddr
  · by_cases present : HasAddress bytes v length
    · simp [mgmt, present, kLldpTtl, kLldpSysCaps, kLldpMgmtAddr, readWithin]
    · simp [mgmt, present, kLldpTtl, kLldpSysCaps, kLldpMgmtAddr, readWithin]
  · simp [ttl, caps, mgmt, readWithin]

/-- The columns depend on the bytes of the value only. -/
theorem fill_congr (agree : ∀ i < length, byteAt left (v + i) = byteAt right (w + i)) :
    fill left ⟨type, length, some v⟩ row = fill right ⟨type, length, some w⟩ row := by
  have word : ∀ i n, i + n ≤ length → readBig left (v + i) n = readBig right (w + i) n := by
    intro i n inside
    apply readBig_congr
    intro j below
    rw [Nat.add_assoc, Nat.add_assoc]
    exact agree _ (by omega)
  have within : ∀ {inside : Prop} [Decidable inside] (i n kept : Nat),
      (inside → i + n ≤ length) →
        readWithin left inside (v + i) n kept = readWithin right inside (w + i) n kept := by
    intro inside _ i n kept bounded
    unfold readWithin
    split
    · next holds => exact word i n (bounded holds)
    · rfl
  have start : ∀ {inside : Prop} [Decidable inside] (n kept : Nat), (inside → n ≤ length) →
      readWithin left inside v n kept = readWithin right inside w n kept := by
    intro inside _ n kept bounded
    exact within 0 n kept fun holds => Nat.le_trans (Nat.le_of_eq (Nat.zero_add n)) (bounded holds)
  have shown : readBytes left v (min length 32) = readBytes right w (min length 32) :=
    readBytes_eq_iff.mpr fun i below => agree i (Nat.lt_of_lt_of_le below (Nat.min_le_left _ _))
  by_cases empty : length = 0
  · subst empty
    have none : ∀ bytes v, ¬ HasAddress bytes v 0 := fun _ _ address => absurd address.1 (by decide)
    rw [fill_of_some, fill_of_some, shown]
    simp [readWithin, none]
  · have counted : readBig left v 1 = readBig right w 1 := word 0 1 (by omega)
    have present : HasAddress left v length ↔ HasAddress right w length := by
      rw [HasAddress, HasAddress, counted]
    rw [fill_of_some, fill_of_some, shown]
    simp only [present, counted]
    rw [start 1 0 And.right, start 2 row.ttlSeconds And.right,
      start 2 row.capsSupported (by omega), within 2 2 _ (by omega),
      within 1 1 _ (by unfold HasAddress; omega), within (1 + readBig right w 1) 1 _ And.right,
      Nat.add_assoc v _ 1, within (1 + readBig right w 1 + 1) 4 _ And.right]
    rfl

end Fill

/-! ### Rows of TLVs -/

/-- The row of a TLV by itself; `off` is where its value starts. -/
def LldpTlv.row (pid ruleId idx off : Nat) (tlv : LldpTlv) : LldpTlvRow :=
  let length := tlv.value.length
  fill tlv.value ⟨tlv.type, length, if length = 0 then none else some 0⟩
    { packetId := pid
      ruleId := ruleId
      tlvIndex := idx % 2 ^ 32
      tlvType := tlv.type
      tlvLength := length
      valueOffset := if length = 0 then 0 else off % 2 ^ 16 }

/-- The rows of TLVs that stand one behind the other from `off` on. -/
def tlvRows (pid ruleId : Nat) : Nat → Nat → List LldpTlv → List LldpTlvRow
  | _, _, [] => []
  | idx, off, tlv :: tlvs =>
      tlv.row pid ruleId idx (off + 2) ::
        tlvRows pid ruleId (idx + 1) (off + 2 + tlv.value.length) tlvs

section Rows

variable {pid ruleId p stop : Nat} {pkt : Bytes}

theorem row_of_next (pid ruleId : Nat) {cursor behind : LldpCursor} {record : LldpTlvRecord}
    (idx : Nat) (above : p ≤ cursor.p) (taken : cursor.next pkt = some (record, behind)) :
    Id.run (rowM (byteAt pkt) pid ruleId p record idx) =
      (record.tlv pkt).row pid ruleId idx (cursor.p - p + 2) ∧
    behind.p = cursor.p + 2 + (record.tlv pkt).value.length := by
  obtain ⟨type, length, value⟩ := record
  obtain ⟨-, -, -, place, start⟩ := LldpCursor.next_some taken
  dsimp only at place start
  rw [start, LldpCursor.tlv_of_pointer, LldpTlv.row]
  dsimp only
  rw [length_readBytes]
  refine ⟨?_, place⟩
  by_cases empty : length = 0
  · simp only [empty, if_true]
    rfl
  · have offset : cursor.p + 2 - p = cursor.p - p + 2 := by omega
    have copy := readBytes_self (readBytes pkt (cursor.p + 2) length)
    rw [length_readBytes] at copy
    have value := readBytes_eq_iff.mp copy
    have row : Id.run (rowM (byteAt pkt) pid ruleId p ⟨type, length, some (cursor.p + 2)⟩ idx) =
        fill pkt ⟨type, length, some (cursor.p + 2)⟩
          { packetId := pid
            ruleId := ruleId
            tlvIndex := idx % 2 ^ 32
            tlvType := type
            tlvLength := length
            valueOffset := (cursor.p + 2 - p) % 2 ^ 16 } := rfl
    rw [if_neg empty, if_neg empty, if_neg empty, fill_congr value, row, offset]

theorem rows_of_walk (pid ruleId : Nat) {cursor final : LldpCursor}
    {records : List LldpTlvRecord} (idx : Nat) (above : p ≤ cursor.p) (walk : Walk (LldpCursor.next pkt) cursor records final) :
    (records.zipIdx idx).map (fun (r, idx) => Id.run (rowM (byteAt pkt) pid ruleId p r idx)) =
      tlvRows pid ruleId idx (cursor.p - p) (records.map (LldpTlvRecord.tlv pkt)) := by
  induction walk generalizing idx with
  | stop ended => rfl
  | @step cursor behind final record records taken continued inductionHypothesis =>
      obtain ⟨row, place⟩ := row_of_next pid ruleId idx above taken
      have later := inductionHypothesis (idx + 1) (by omega)
      have offset : behind.p - p = cursor.p - p + 2 + (record.tlv pkt).value.length := by omega
      rw [offset] at later
      rw [List.zipIdx_cons, List.map_cons, List.map_cons, tlvRows, later]
      exact congrArg (· :: _) row

/-- The rows of a region are those of the TLVs that it is decoded to. -/
theorem lldpRows_eq (pid ruleId : Nat) (pkt : Bytes) (p stop : Nat) :
    lldpRows pid ruleId pkt p stop =
      tlvRows pid ruleId 0 0 ((LldpCursor.records pkt ⟨p, stop⟩).map (LldpTlvRecord.tlv pkt)) := by
  let start : LldpCursor := ⟨p, stop⟩
  obtain ⟨records, final, walk⟩ : ∃ records final, Walk (LldpCursor.next pkt) start records final :=
    (LldpCursor.readBy pkt).exists_walk trivial
  have rows := rows_of_walk pid ruleId 0 (Nat.le_refl p) walk
  rw [Nat.sub_self] at rows
  rw [lldpRows, LldpCursor.records_of_walk walk]
  exact rows

end Rows

/-! ### Reads -/

section Guarded

variable {pkt : Bytes} {lo hi : Nat}

theorem readWithinM_guarded {inside : Prop} [Decidable inside] {off n kept : Nat}
    (bounds : inside → lo ≤ off ∧ off + n ≤ hi) :
    readWithinM (guardedByte pkt lo hi) inside off n kept =
      some (Id.run (readWithinM (byteAt pkt) inside off n kept)) := by
  unfold readWithinM
  split
  · next holds => exact readBigM_guarded (bounds holds).1 (bounds holds).2
  · rfl

theorem decodeMgmtAddrM_guarded {length v : Nat} (row : LldpTlvRow) (above : lo ≤ v)
    (below : v + length ≤ hi) :
    decodeMgmtAddrM (guardedByte pkt lo hi) length v row =
      some (Id.run (decodeMgmtAddrM (byteAt pkt) length v row)) := by
  rw [run_decodeMgmtAddrM]
  dsimp only
  by_cases empty : length < 1
  · rw [decodeMgmtAddrM, if_pos empty, if_pos empty]
    rfl
  rw [decodeMgmtAddrM, if_neg empty, if_neg empty, readBigM_guarded above (by omega)]
  dsimp only [bind, Option.bind]
  by_cases absent : readBig pkt v 1 < 1 ∨ length < 1 + readBig pkt v 1
  · rw [if_pos absent, if_pos absent]
    rfl
  · rw [if_neg absent, if_neg absent, readBigM_guarded (by omega) (by omega),
      readWithinM_guarded fun holds => ⟨by omega, by omega⟩,
      readWithinM_guarded fun holds => ⟨by omega, by omega⟩]
    rfl

theorem fillM_guarded {r : LldpTlvRecord} (row : LldpTlvRow)
    (inside : ∀ v, r.value = some v → lo ≤ v ∧ v + r.length ≤ hi) :
    fillM (guardedByte pkt lo hi) r row = some (fill pkt r row) := by
  obtain ⟨type, length, _ | v⟩ := r
  · rfl
  obtain ⟨above, below⟩ := inside v rfl
  dsimp only at below
  have subtype : subtypeM (guardedByte pkt lo hi) ⟨type, length, some v⟩ =
      some (Id.run (subtypeM (byteAt pkt) ⟨type, length, some v⟩)) :=
    readWithinM_guarded fun guard => ⟨above, Nat.le_trans (Nat.add_le_add_left guard.2 v) below⟩
  have shown : shownM (guardedByte pkt lo hi) ⟨type, length, some v⟩ =
      some (Id.run (shownM (byteAt pkt) ⟨type, length, some v⟩)) :=
    readBytesM_guarded above
      (Nat.le_trans (Nat.add_le_add_left (Nat.min_le_left length 32) v) below)
  have typed : ∀ row, decodeTypedM (guardedByte pkt lo hi) ⟨type, length, some v⟩ row =
      some (Id.run (decodeTypedM (byteAt pkt) ⟨type, length, some v⟩ row)) := by
    intro row
    rw [decodeTypedM, decodeTypedM]
    dsimp only
    split
    · rw [readWithinM_guarded fun guard => ⟨above, by omega⟩]
      rfl
    · split
      · rw [readWithinM_guarded fun guard => ⟨above, by omega⟩,
          readWithinM_guarded fun guard => ⟨by omega, by omega⟩]
        rfl
      · split
        · exact decodeMgmtAddrM_guarded row above below
        · rfl
  rw [fillM, subtype, shown]
  exact typed _

/-- Making the rows of a region reads the region only. -/
theorem lldpRowsM_guarded (pid ruleId : Nat) (pkt : Bytes) (p stop : Nat) :
    lldpRowsM (guardedByte pkt p stop) pid ruleId p stop =
      some (lldpRows pid ruleId pkt p stop) := by
  have walked : LldpCursor.recordsM (guardedByte pkt p stop) ⟨p, stop⟩ =
      some (LldpCursor.records pkt ⟨p, stop⟩) :=
    LldpCursor.recordsM_guarded (Nat.le_refl p) (Nat.le_refl stop)
  rw [lldpRowsM, walked]
  apply mapM_eq_some
  intro entry member
  apply fillM_guarded
  exact LldpCursor.value_of_mem_records (List.fst_mem_of_mem_zipIdx member)

end Guarded

end Nanotins.Lldp
