import Nanotins.Lldp.Rows

/-!
Contract: what an LLDP row says of the TLV it was made of.

Owns: the contents that LLDP gives its TLVs, the rows they should have, and that
`LldpKind` emits exactly these rows for the LLDPDUs that carry them
(`lldpKind_emits`).

Does not own: the decoding of TLVs that are not written in this way.
-/

namespace Nanotins.Lldp

open Nanotins.Library Nanotins.Dpar

/-- What a TLV says; `other` are the types whose value has no columns of its own. -/
inductive LldpInfo where
  | chassisId (subtype : UInt8) (id : Bytes)
  | portId (subtype : UInt8) (id : Bytes)
  | ttl (seconds : Nat)
  | sysCaps (supported enabled : Nat)
  | mgmtAddr (family : UInt8) (address : Bytes) (ifaceSubtype : UInt8) (ifaceNumber : Nat)
      (oid : Bytes)
  | other (type : Nat) (value : Bytes)
deriving DecidableEq, Repr

namespace LldpInfo

/-- The TLV types with columns of their own, and that of the End TLV. -/
def typedTypes : List Nat :=
  [kLldpEnd, kLldpChassisId, kLldpPortId, kLldpTtl, kLldpSysCaps, kLldpMgmtAddr]

def tlv : LldpInfo → LldpTlv
  | chassisId subtype id => ⟨kLldpChassisId, subtype :: id⟩
  | portId subtype id => ⟨kLldpPortId, subtype :: id⟩
  | ttl seconds => ⟨kLldpTtl, bigBytes 2 seconds⟩
  | sysCaps supported enabled => ⟨kLldpSysCaps, bigBytes 2 supported ++ bigBytes 2 enabled⟩
  | mgmtAddr family address ifaceSubtype ifaceNumber oid =>
      ⟨kLldpMgmtAddr, bigBytes 1 (1 + address.length) ++
        (family :: address ++ (ifaceSubtype :: (bigBytes 4 ifaceNumber ++ oid)))⟩
  | other type value => ⟨type, value⟩

/-- Numbers and lengths fit their places. -/
def Fits : LldpInfo → Prop
  | ttl seconds => seconds < 2 ^ 16
  | sysCaps supported enabled => supported < 2 ^ 16 ∧ enabled < 2 ^ 16
  | mgmtAddr _ address _ ifaceNumber _ => address.length < 255 ∧ ifaceNumber < 2 ^ 32
  | other type _ => type ∉ typedTypes
  | _ => True

instance : DecidablePred Fits
  | ttl seconds => inferInstanceAs (Decidable (seconds < 2 ^ 16))
  | sysCaps supported enabled =>
      inferInstanceAs (Decidable (supported < 2 ^ 16 ∧ enabled < 2 ^ 16))
  | mgmtAddr _ address _ ifaceNumber _ =>
      inferInstanceAs (Decidable (address.length < 255 ∧ ifaceNumber < 2 ^ 32))
  | other type _ => inferInstanceAs (Decidable (type ∉ typedTypes))
  | chassisId .. | portId .. => .isTrue trivial

structure Legal (info : LldpInfo) : Prop where
  tlv : info.tlv.Legal
  fits : info.Fits

instance (info : LldpInfo) : Decidable info.Legal :=
  decidable_of_iff (info.tlv.Legal ∧ info.Fits)
    ⟨fun ⟨tlv, fits⟩ => ⟨tlv, fits⟩, fun legal => ⟨legal.tlv, legal.fits⟩⟩

/-- The row with the columns of this content. -/
def columns (row : LldpTlvRow) : LldpInfo → LldpTlvRow
  | chassisId subtype _ => { row with subtype := subtype.toNat }
  | portId subtype _ => { row with subtype := subtype.toNat }
  | ttl seconds => { row with ttlSeconds := seconds }
  | sysCaps supported enabled => { row with capsSupported := supported, capsEnabled := enabled }
  | mgmtAddr family _ ifaceSubtype ifaceNumber _ =>
      { row with
        mgmtAddrSubtype := family.toNat
        mgmtIfaceSubtype := ifaceSubtype.toNat
        mgmtIfaceNumber := ifaceNumber }
  | other _ _ => row

/-- The row of the content number `idx`, whose value starts at `off`. -/
def row (pid ruleId idx off : Nat) (info : LldpInfo) : LldpTlvRow :=
  info.columns
    { packetId := pid
      ruleId := ruleId
      tlvIndex := idx % 2 ^ 32
      tlvType := info.tlv.type
      tlvLength := info.tlv.value.length
      valueOffset := if info.tlv.value = [] then 0 else off % 2 ^ 16
      valueHead := headOf (info.tlv.value.take 32) }

def rows (pid ruleId : Nat) : Nat → Nat → List LldpInfo → List LldpTlvRow
  | _, _, [] => []
  | idx, off, info :: infos =>
      info.row pid ruleId idx (off + 2) ::
        rows pid ruleId (idx + 1) (off + 2 + info.tlv.value.length) infos

@[simp] theorem length_rows (pid ruleId idx off : Nat) (infos : List LldpInfo) :
    (rows pid ruleId idx off infos).length = infos.length := by
  induction infos generalizing idx off with
  | nil => rfl
  | cons info infos inductionHypothesis =>
      rw [rows, List.length_cons, List.length_cons, inductionHypothesis]

end LldpInfo

section Row

variable {pid ruleId idx off : Nat}

theorem readBytes_take (bytes : Bytes) (n : Nat) :
    readBytes bytes 0 (min bytes.length n) = bytes.take n := by
  have stands : StandsAt bytes 0 (bytes.take n) :=
    ⟨[], bytes.drop n, by rw [List.nil_append, List.take_append_drop], rfl⟩
  have read := stands.readBytes_eq
  rwa [List.length_take, Nat.min_comm] at read

/-- An octet, read where it stands. -/
theorem readBig_octet {bytes rest : Bytes} {octet : UInt8} {off : Nat}
    (stands : StandsAt bytes off (octet :: rest)) : readBig bytes off 1 = octet.toNat := by
  rw [readBig_succ, readBig_zero, Nat.zero_mul, Nat.zero_add, Nat.add_zero, stands.head]

/-- A word, read where it stands. -/
theorem readBig_word {bytes : Bytes} {off n value : Nat} (rest : Bytes) (small : value < 256 ^ n)
    (stands : StandsAt bytes off (bigBytes n value ++ rest)) : readBig bytes off n = value := by
  rw [stands.left.readBig_eq, Nat.mod_eq_of_lt small]

theorem standsAt_self (bytes : Bytes) : StandsAt bytes 0 bytes :=
  ⟨[], [], by rw [List.nil_append, List.append_nil], rfl⟩

/-- The parts of a management address. -/
theorem mgmtAddr_reads (family ifaceSubtype : UInt8) {address : Bytes} (oid : Bytes) {ifaceNumber : Nat}
    (address_lt : address.length < 255) (number_lt : ifaceNumber < 2 ^ 32) :
    let value := (LldpInfo.mgmtAddr family address ifaceSubtype ifaceNumber oid).tlv.value
    let afterAddr := 1 + (1 + address.length)
    value.length = afterAddr + 1 + 4 + oid.length ∧ readBig value 0 1 = 1 + address.length ∧
      readBig value 1 1 = family.toNat ∧ readBig value afterAddr 1 = ifaceSubtype.toNat ∧
      readBig value (afterAddr + 1) 4 = ifaceNumber := by
  intro value afterAddr
  have whole : StandsAt value 0 (bigBytes 1 (1 + address.length) ++
      (family :: address ++ (ifaceSubtype :: (bigBytes 4 ifaceNumber ++ oid)))) :=
    standsAt_self value
  have behindLength := whole.right
  have behindAddress := behindLength.right
  have behindSubtype := behindAddress.tail
  rw [length_bigBytes] at behindLength behindAddress behindSubtype
  have place : 0 + 1 + (family :: address).length = afterAddr := by
    rw [List.length_cons]
    omega
  rw [place] at behindAddress behindSubtype
  refine ⟨?_, readBig_word _ (by omega) whole, readBig_octet behindLength,
    readBig_octet behindAddress, readBig_word _ number_lt behindSubtype⟩
  change List.length (_ ++ _) = _
  simp only [List.length_append, List.length_cons, length_bigBytes, afterAddr]
  omega

/-- Every content has the row it should have. -/
theorem row_of_info {info : LldpInfo} (legal : info.Legal) :
    info.tlv.row pid ruleId idx off = info.row pid ruleId idx off := by
  by_cases empty : info.tlv.value = []
  · cases info with
    | other type value =>
        obtain rfl : value = [] := empty
        rfl
    | _ => contradiction
  have nonzero : info.tlv.value.length ≠ 0 := mt List.length_eq_zero_iff.mp empty
  have fits := legal.fits
  rw [LldpTlv.row, LldpInfo.row, if_neg empty, if_neg nonzero, if_neg nonzero, fill_of_some,
    readBytes_take]
  cases info with
  | chassisId subtype id =>
      have first : readBig (subtype :: id) 0 1 = subtype.toNat := readBig_octet (standsAt_self _)
      simp [LldpInfo.tlv, LldpInfo.columns, readWithin, first, kLldpChassisId, kLldpTtl,
        kLldpSysCaps, kLldpMgmtAddr]
  | portId subtype id =>
      have first : readBig (subtype :: id) 0 1 = subtype.toNat := readBig_octet (standsAt_self _)
      simp [LldpInfo.tlv, LldpInfo.columns, readWithin, first, kLldpChassisId, kLldpPortId,
        kLldpTtl, kLldpSysCaps, kLldpMgmtAddr]
  | ttl seconds =>
      have first : readBig (bigBytes 2 seconds) 0 2 = seconds :=
        readBig_word [] fits (by rw [List.append_nil]; exact standsAt_self _)
      simp [LldpInfo.tlv, LldpInfo.columns, readWithin, first, kLldpChassisId, kLldpPortId,
        kLldpTtl, kLldpSysCaps, kLldpMgmtAddr]
  | sysCaps supported enabled =>
      have whole : StandsAt (bigBytes 2 supported ++ bigBytes 2 enabled) 0
          (bigBytes 2 supported ++ bigBytes 2 enabled) := standsAt_self _
      have first := readBig_word _ fits.1 whole
      have second : readBig (bigBytes 2 supported ++ bigBytes 2 enabled) 2 2 = enabled :=
        readBig_word [] fits.2 (by rw [List.append_nil]; exact whole.right)
      simp [LldpInfo.tlv, LldpInfo.columns, readWithin, first, second, kLldpChassisId, kLldpPortId,
        kLldpTtl, kLldpSysCaps, kLldpMgmtAddr]
  | mgmtAddr family address ifaceSubtype ifaceNumber oid =>
      obtain ⟨length, counted, first, second, third⟩ := 
        mgmtAddr_reads family ifaceSubtype oid fits.1 fits.2
      have present : HasAddress (LldpInfo.mgmtAddr family address ifaceSubtype ifaceNumber oid).tlv.value
          0 (LldpInfo.mgmtAddr family address ifaceSubtype ifaceNumber oid).tlv.value.length := by
        rw [HasAddress, counted, length]
        omega
      simp only [counted, present, Nat.zero_add, first, second, third, readWithin, LldpInfo.columns]
      simp [LldpInfo.tlv, kLldpChassisId, kLldpPortId, kLldpTtl, kLldpSysCaps, kLldpMgmtAddr]
      omega
  | other type value =>
      have untyped : type ∉ LldpInfo.typedTypes := fits
      simp only [LldpInfo.typedTypes, List.mem_cons, List.not_mem_nil, or_false, not_or] at untyped
      simp [LldpInfo.tlv, LldpInfo.columns, readWithin, untyped]

end Row

theorem tlvRows_of_infos {pid ruleId : Nat} {infos : List LldpInfo}
    (legal : ∀ info ∈ infos, info.Legal) (idx off : Nat) :
    tlvRows pid ruleId idx off (infos.map LldpInfo.tlv) =
      LldpInfo.rows pid ruleId idx off infos := by
  induction infos generalizing idx off with
  | nil => rfl
  | cons info infos inductionHypothesis =>
      obtain ⟨first, later⟩ := List.forall_mem_cons.mp legal
      rw [List.map_cons, tlvRows, LldpInfo.rows, row_of_info first, inductionHypothesis later]

/-- An LLDPDU of given contents. -/
def lldpdu (infos : List LldpInfo) : Bytes :=
  infos.flatMap fun info => info.tlv.encode

theorem lldpRows_of_region (pid ruleId : Nat) {p stop : Nat} {pkt left : Bytes} {infos : List LldpInfo}
    (legal : ∀ info ∈ infos, info.Legal) (ended : EndsLldpdu left)
    (carried : LldpCursor.region pkt ⟨p, stop⟩ = lldpdu infos ++ left) :
    lldpRows pid ruleId pkt p stop = LldpInfo.rows pid ruleId 0 0 infos := by
  have tlvs : ∀ tlv ∈ infos.map LldpInfo.tlv, tlv.Legal :=
    List.forall_mem_map.mpr fun info member => (legal info member).tlv
  have split : LldpCursor.region pkt ⟨p, stop⟩ =
      (infos.map LldpInfo.tlv).flatMap LldpTlv.encode ++ left := by
    rw [carried, lldpdu, List.flatMap_map]
  rw [lldpRows_eq, LldpCursor.records_of_region tlvs ended split, tlvRows_of_infos legal]

/-- The Kind has a row for every content of the LLDPDU it is called for, in their
order, and reads nothing but the LLDPDU. -/
theorem lldpKind_emits {pid ruleId p stop : Nat} {pkt left : Bytes} {infos : List LldpInfo}
    (legal : ∀ info ∈ infos, info.Legal) (ended : EndsLldpdu left)
    (carried : LldpCursor.region pkt ⟨p, stop⟩ = lldpdu infos ++ left) (out : List LldpTlvRow) :
    LldpKind.emit pid ruleId pkt p stop out =
        (infos.length, out ++ LldpInfo.rows pid ruleId 0 0 infos) ∧
      lldpRowsM (guardedByte pkt p stop) pid ruleId p stop =
        some (LldpInfo.rows pid ruleId 0 0 infos) := by
  have rows := lldpRows_of_region pid ruleId legal ended carried
  have count := length_lldpRows pid ruleId pkt p stop
  rw [rows, LldpInfo.length_rows] at count
  rw [lldpRowsM_guarded, rows]
  refine ⟨?_, rfl⟩
  change ((LldpCursor.records pkt ⟨p, stop⟩).length, out ++ lldpRows pid ruleId pkt p stop) = _
  rw [← count, rows]

/-- What a switch says of a port. -/
def switchInfos : List LldpInfo :=
  [.chassisId 4 [2, 0, 0, 0, 0, 1], .portId 5 [101, 116, 104, 48], .ttl 120,
    .other 5 [115, 119], .sysCaps 0x14 0x04, .mgmtAddr 1 [10, 0, 0, 1] 2 7 [],
    .other 127 [0, 0x80, 0xC2, 1, 0, 9]]

/-- Behind an Ethernet header, with an End TLV and padding behind it. -/
theorem lldpKind_emits_switch :
    let pkt := List.replicate 14 0 ++ (lldpdu switchInfos ++ [0, 0, 0xFF, 0xFF])
    LldpKind.emit 7 0 pkt 14 pkt.length [] =
        (7, [] ++ LldpInfo.rows 7 0 0 0 switchInfos) ∧
      lldpRowsM (guardedByte pkt 14 pkt.length) 7 0 14 pkt.length =
        some (LldpInfo.rows 7 0 0 0 switchInfos) :=
  lldpKind_emits (by decide : ∀ info ∈ switchInfos, info.Legal)
    (endsLldpdu_end (by decide : 0 < 2 ^ 9) [0xFF, 0xFF]) (by decide +kernel) []

end Nanotins.Lldp
