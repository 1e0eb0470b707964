import Nanotins.Library.HexText
import Nanotins.Lldp.Frames

/-!
Contract: the NDJSON that the LLDP tool prints of its table.

Owns: the text of a row and of the table, that the text is one JSON document a
line, how rows are read back from it, and that the table of any run reads back whole
(`lldpDump_reads`).

Does not own: the rows.
-/

namespace Nanotins.Lldp

open Nanotins.Library Nanotins.Dpar

/-! ### The text -/

def lldpTypeNames : List (Nat × String) :=
  [(kLldpEnd, "end"), (kLldpChassisId, "chassis_id"), (kLldpPortId, "port_id"), (kLldpTtl, "ttl"),
    (kLldpPortDesc, "port_desc"), (kLldpSysName, "system_name"), (kLldpSysDesc, "system_desc"),
    (kLldpSysCaps, "system_caps"), (kLldpMgmtAddr, "mgmt_address"),
    (kLldpOrgSpecific, "org_specific")]

def lldpTypeName (t : Nat) : String := (lldpTypeNames.lookup t).getD "unknown"

/-- The format `"\"key\":%u,"`. -/
def numberFormat (key : String) (value : Nat) : Text :=
  quoted key.toList ++ ':' :: (Nat.toDigits 10 value ++ [','])

/-- The bytes of the value that are in the row. -/
def LldpTlvRow.shown (r : LldpTlvRow) : Bytes :=
  r.valueHead.toList.take (if r.tlvLength < 32 then r.tlvLength else 32)

/-- Only characters that need no escape are shown. -/
def printable (b : UInt8) : Char :=
  if 0x20 ≤ b ∧ b < 0x7F ∧ b ≠ 0x22 ∧ b ≠ 0x5C then Char.ofNat b.toNat else '.'

/-- What is appended for the value, piece by piece. -/
def valueHeadPieces (r : LldpTlvRow) : List Text :=
  ["\"hex\":\"".toList, r.shown.flatMap fun b => snprintf 3 (paddedHex 2 b.toNat),
    "\",\"ascii\":\"".toList, r.shown.map printable, "\"".toList]

def appendValueHead (r : LldpTlvRow) : Text := (valueHeadPieces r).flatten

def kNames : List String :=
  ["Other", "Repeater", "Bridge", "WLAN-AP", "Router", "Telephone", "DOCSIS", "Station", "C-VLAN",
    "S-VLAN", "TPMR"]

def appendCaps (key : String) (bits : Nat) : Text :=
  let listed := (List.range 11).foldl
    (fun state i => if bits.testBit i then appendPart state (quoted (kNames.getD i "").toList)
      else state)
    ([], true)
  quoted key.toList ++ ":[".toList ++ listed.1 ++ "]".toList

def appendDecoded (r : LldpTlvRow) : Text :=
  if r.tlvType = kLldpTtl then
    snprintf 96 (numberFormat "ttl_seconds" r.ttlSeconds)
  else if r.tlvType = kLldpSysCaps then
    snprintf 96 (numberFormat "caps_supported" r.capsSupported ++
        numberFormat "caps_enabled" r.capsEnabled) ++
      appendCaps "caps" r.capsEnabled ++ ",".toList
  else if r.tlvType = kLldpMgmtAddr then
    snprintf 96 (numberFormat "mgmt_addr_subtype" r.mgmtAddrSubtype ++
      numberFormat "mgmt_iface_subtype" r.mgmtIfaceSubtype ++
      numberFormat "mgmt_iface_number" r.mgmtIfaceNumber)
  else []

/-- What is appended for a row, piece by piece. -/
def rowPieces (r : LldpTlvRow) : List Text :=
  ["\x7b".toList, snprintf 64 (numberFormat "packet_id" r.packetId),
    snprintf 64 (numberFormat "rule_id" r.ruleId), snprintf 64 (numberFormat "tlv_index" r.tlvIndex),
    snprintf 64 (numberFormat "type" r.tlvType), "\"type_name\":\"".toList,
    (lldpTypeName r.tlvType).toList, "\",".toList, snprintf 64 (numberFormat "length" r.tlvLength),
    snprintf 64 (numberFormat "subtype" r.subtype),
    snprintf 64 (numberFormat "value_offset" r.valueOffset), appendDecoded r, appendValueHead r,
    "\x7d".toList]

def rowToJson (r : LldpTlvRow) : Text := (rowPieces r).flatten

def dumpNdjson (table : List LldpTlvRow) : Text :=
  table.flatMap fun row => "\x7b\"table\":\"lldp\",\"row\":".toList ++ rowToJson row ++ "\x7d\n".toList

/-! ### The documents -/

/-- The names of the capabilities that are set. -/
def capabilities (bits : Nat) : List Text :=
  ((List.range 11).filter bits.testBit).map fun i => (kNames.getD i "").toList

namespace LldpTlvRow

/-- The columns that are printed for the type of the TLV. -/
def decoded (r : LldpTlvRow) : List (Text × Json) :=
  if r.tlvType = kLldpTtl then
    [("ttl_seconds".toList, .num r.ttlSeconds)]
  else if r.tlvType = kLldpSysCaps then
    [("caps_supported".toList, .num r.capsSupported), ("caps_enabled".toList, .num r.capsEnabled),
      ("caps".toList, .arr ((capabilities r.capsEnabled).map .str))]
  else if r.tlvType = kLldpMgmtAddr then
    [("mgmt_addr_subtype".toList, .num r.mgmtAddrSubtype),
      ("mgmt_iface_subtype".toList, .num r.mgmtIfaceSubtype),
      ("mgmt_iface_number".toList, .num r.mgmtIfaceNumber)]
  else []

/-- The columns up to those of the value. -/
def members (r : LldpTlvRow) : List (Text × Json) :=
  [("packet_id".toList, .num r.packetId), ("rule_id".toList, .num r.ruleId),
    ("tlv_index".toList, .num r.tlvIndex), ("type".toList, .num r.tlvType),
    ("type_name".toList, .str (lldpTypeName r.tlvType).toList), ("length".toList, .num r.tlvLength),
    ("subtype".toList, .num r.subtype), ("value_offset".toList, .num r.valueOffset)] ++ r.decoded

def document (r : LldpTlvRow) : Json :=
  .obj (r.members ++
    [("hex".toList, .str (hexBytes r.shown)), ("ascii".toList, .str (r.shown.map printable))])

/-- The line of a row. -/
def line (r : LldpTlvRow) : Json :=
  .obj [("table".toList, .str "lldp".toList), ("row".toList, r.document)]

/-- Every column has a value of its type. -/
structure Fits (r : LldpTlvRow) : Prop where
  packetId : r.packetId < 2 ^ 64
  ruleId : r.ruleId < 2 ^ 32
  tlvIndex : r.tlvIndex < 2 ^ 32
  tlvType : r.tlvType < 2 ^ 16
  tlvLength : r.tlvLength < 2 ^ 16
  subtype : r.subtype < 2 ^ 8
  valueOffset : r.valueOffset < 2 ^ 16
  ttlSeconds : r.ttlSeconds < 2 ^ 16
  capsSupported : r.capsSupported < 2 ^ 16
  capsEnabled : r.capsEnabled < 2 ^ 16
  mgmtAddrSubtype : r.mgmtAddrSubtype < 2 ^ 8
  mgmtIfaceSubtype : r.mgmtIfaceSubtype < 2 ^ 8
  mgmtIfaceNumber : r.mgmtIfaceNumber < 2 ^ 32

end LldpTlvRow

section Render

variable {r : LldpTlvRow}

theorem length_numberFormat (key : String) {value : Nat} (digits : Nat) (positive : 0 < digits)
    (bounded : value < 10 ^ digits) :
    (numberFormat key value).length ≤ key.toList.length + digits + 4 := by
  have := (Nat.length_toDigits_le_iff (by decide) positive).mpr bounded
  simp only [numberFormat, quoted, List.length_append, List.length_cons, List.length_nil]
  omega

/-- A format that fits its buffer is the text of a member. -/
theorem renderMember_number (key : String) (value : Nat) :
    Json.renderMember (key.toList, .num value) ++ [','] = numberFormat key value := by
  rw [Json.renderMember, numberFormat, Json.render, List.append_assoc, List.cons_append]

theorem snprintf_numberFormat (key : String) (short : key.toList.length ≤ 36) {value : Nat}
    (bounded : value < 2 ^ 64) :
    snprintf 64 (numberFormat key value) = Json.renderMember (key.toList, .num value) ++ [','] := by
  have := length_numberFormat key 20 (by decide) (Nat.lt_trans bounded (by decide))
  rw [snprintf_of_lt (by omega), renderMember_number]

theorem appendCaps_eq (key : String) (bits : Nat) :
    appendCaps key bits =
      Json.renderMember (key.toList, .arr ((capabilities bits).map .str)) := by
  have listed : ((List.range 11).foldl
      (fun state i => if bits.testBit i then appendPart state (quoted (kNames.getD i "").toList)
        else state) ([], true)).1 = joined ((capabilities bits).map quoted) := by
    rw [← List.foldl_filter, ← foldl_appendPart, capabilities, List.map_map, List.foldl_map]
    rfl
  have items : Json.renderItems ((capabilities bits).map .str) = (capabilities bits).map quoted := by
    rw [Json.renderItems_eq, List.map_map]
    rfl
  rw [appendCaps, listed, Json.renderMember, Json.render, items]
  simp

theorem appendDecoded_eq (fits : r.Fits) :
    appendDecoded r = r.decoded.flatMap fun member => Json.renderMember member ++ [','] := by
  rw [appendDecoded, LldpTlvRow.decoded]
  split
  · have := length_numberFormat "ttl_seconds" 20 (by decide)
      (Nat.lt_trans fits.ttlSeconds (by decide))
    have key : "ttl_seconds".toList.length = 11 := rfl
    rw [snprintf_of_lt (by omega), List.flatMap_singleton, renderMember_number]
  split
  · have first := length_numberFormat "caps_supported" 5 (by decide)
      (Nat.lt_trans fits.capsSupported (by decide))
    have second := length_numberFormat "caps_enabled" 5 (by decide)
      (Nat.lt_trans fits.capsEnabled (by decide))
    have keys : "caps_supported".toList.length = 14 ∧ "caps_enabled".toList.length = 12 := ⟨rfl, rfl⟩
    have short : (numberFormat "caps_supported" r.capsSupported ++
        numberFormat "caps_enabled" r.capsEnabled).length < 96 := by
      rw [List.length_append]
      omega
    rw [snprintf_of_lt short, appendCaps_eq]
    simp only [List.flatMap_cons, List.flatMap_nil, renderMember_number, List.append_nil,
      List.append_assoc]
    rfl
  split
  · have first := length_numberFormat "mgmt_addr_subtype" 3 (by decide)
      (Nat.lt_trans fits.mgmtAddrSubtype (by decide))
    have second := length_numberFormat "mgmt_iface_subtype" 3 (by decide)
      (Nat.lt_trans fits.mgmtIfaceSubtype (by decide))
    have third := length_numberFormat "mgmt_iface_number" 10 (by decide)
      (Nat.lt_trans fits.mgmtIfaceNumber (by decide))
    have keys : "mgmt_addr_subtype".toList.length = 17 ∧ "mgmt_iface_subtype".toList.length = 18 ∧
        "mgmt_iface_number".toList.length = 17 := ⟨rfl, rfl, rfl⟩
    have short : (numberFormat "mgmt_addr_subtype" r.mgmtAddrSubtype ++
        numberFormat "mgmt_iface_subtype" r.mgmtIfaceSubtype ++
        numberFormat "mgmt_iface_number" r.mgmtIfaceNumber).length < 96 := by
      rw [List.length_append, List.length_append]
      omega
    rw [snprintf_of_lt short]
    simp only [List.flatMap_cons, List.flatMap_nil, renderMember_number, List.append_nil,
      List.append_assoc]
  · rfl

theorem hex_shown :
    r.shown.flatMap (fun b => snprintf 3 (paddedHex 2 b.toNat)) = hexBytes r.shown := by
  rw [hexBytes]
  congr 1
  funext b
  apply snprintf_of_lt
  rw [length_paddedHex (by decide) b.toNat_lt]
  decide

/-- The text of a row is its document. -/
theorem rowToJson_eq (fits : r.Fits) : rowToJson r = r.document.render := by
  have word : ∀ {value : Nat}, value < 2 ^ 32 → value < 2 ^ 64 :=
    fun small => Nat.lt_trans small (by decide)
  have half : ∀ {value : Nat}, value < 2 ^ 16 → value < 2 ^ 64 :=
    fun small => Nat.lt_trans small (by decide)
  have packetId := snprintf_numberFormat "packet_id" (by simp) fits.packetId
  have ruleId := snprintf_numberFormat "rule_id" (by simp) (word fits.ruleId)
  have tlvIndex := snprintf_numberFormat "tlv_index" (by simp) (word fits.tlvIndex)
  have tlvType := snprintf_numberFormat "type" (by simp) (half fits.tlvType)
  have tlvLength := snprintf_numberFormat "length" (by simp) (half fits.tlvLength)
  have subtype := snprintf_numberFormat "subtype" (by simp) (Nat.lt_trans fits.subtype (by decide))
  have valueOffset := snprintf_numberFormat "value_offset" (by simp) (half fits.valueOffset)
  have typeName : "\"type_name\":\"".toList = quoted "type_name".toList ++ [':', '"'] := rfl
  have hex : "\"hex\":\"".toList = quoted "hex".toList ++ [':', '"'] := rfl
  have ascii : "\",\"ascii\":\"".toList = '"' :: ',' :: (quoted "ascii".toList ++ [':', '"']) := rfl
  have document : r.document = .obj ((r.members ++ [("hex".toList, .str (hexBytes r.shown))]) ++
      [("ascii".toList, .str (r.shown.map printable))]) := by
    rw [LldpTlvRow.document, List.append_cons]
  rw [document, Json.render_obj_concat, rowToJson, rowPieces, packetId, ruleId, tlvIndex, tlvType,
    tlvLength, subtype, valueOffset, appendDecoded_eq fits, appendValueHead, valueHeadPieces,
    hex_shown, LldpTlvRow.members, typeName, hex, ascii]
  simp

end Render

/-! ### The documents need no escapes -/

section Plain

variable {r : LldpTlvRow}

theorem plainChar_printable (b : UInt8) : Json.plainChar (printable b) = true := by
  have all : ∀ n < 256, Json.plainChar (printable (UInt8.ofNat n)) = true := by decide +kernel
  have own := all b.toNat b.toNat_lt
  rwa [UInt8.ofNat_toNat] at own

theorem plainText_lldpTypeName (t : Nat) : Json.PlainText (lldpTypeName t).toList := by
  have all : ∀ entry ∈ lldpTypeNames, Json.PlainText entry.2.toList := by decide +kernel
  rw [lldpTypeName]
  cases found : lldpTypeNames.lookup t with
  | none => exact (by decide +kernel : Json.PlainText "unknown".toList)
  | some name =>
      obtain ⟨front, back, split, -⟩ := List.lookup_eq_some_iff.mp found
      exact all (t, name) (split ▸ List.mem_append_right front List.mem_cons_self)

theorem plain_capabilities (bits : Nat) : ∀ name ∈ capabilities bits, Json.PlainText name := by
  have all : ∀ i ∈ List.range 11, Json.PlainText (kNames.getD i "").toList := by decide +kernel
  intro name member
  obtain ⟨i, set, rfl⟩ := List.mem_map.mp member
  exact all i (List.mem_of_mem_filter set)

theorem plain_decoded : ∀ member ∈ r.decoded, Json.PlainText member.1 ∧ member.2.Plain := by
  have caps : Json.Plain (.arr ((capabilities r.capsEnabled).map .str)) := by
    refine .arr (List.forall_mem_map.mpr fun name member => ?_)
    exact .str (plain_capabilities r.capsEnabled name member)
  rw [LldpTlvRow.decoded]
  split
  · exact List.forall_mem_singleton.mpr
      ⟨(by decide +kernel : Json.PlainText "ttl_seconds".toList), .num _⟩
  split
  · simp only [List.forall_mem_cons, List.not_mem_nil, false_implies, implies_true, and_true]
    exact ⟨⟨by decide +kernel, .num _⟩, ⟨by decide +kernel, .num _⟩, by decide +kernel, caps⟩
  split
  · simp only [List.forall_mem_cons, List.not_mem_nil, false_implies, implies_true, and_true]
    exact ⟨⟨by decide +kernel, .num _⟩, ⟨by decide +kernel, .num _⟩, by decide +kernel, .num _⟩
  · exact List.forall_mem_nil _

theorem plain_document : r.document.Plain := by
  refine Json.plain_obj (List.forall_mem_append.mpr ⟨?_, ?_⟩)
  · refine List.forall_mem_append.mpr ⟨?_, plain_decoded⟩
    simp only [List.forall_mem_cons, List.not_mem_nil, false_implies, implies_true, and_true]
    exact ⟨⟨by decide +kernel, .num _⟩, ⟨by decide +kernel, .num _⟩, ⟨by decide +kernel, .num _⟩,
      ⟨by decide +kernel, .num _⟩, ⟨by decide +kernel, .str (plainText_lldpTypeName _)⟩,
      ⟨by decide +kernel, .num _⟩, ⟨by decide +kernel, .num _⟩, by decide +kernel, .num _⟩
  · have ascii : Json.PlainText (r.shown.map printable) :=
      List.forall_mem_map.mpr fun b _ => plainChar_printable b
    simp only [List.forall_mem_cons, List.not_mem_nil, false_implies, implies_true, and_true]
    exact ⟨⟨by decide +kernel, .str (plainText_hexBytes _)⟩, by decide +kernel, .str ascii⟩

theorem plain_line : r.line.Plain := by
  refine Json.plain_obj ?_
  simp only [List.forall_mem_cons, List.not_mem_nil, false_implies, implies_true, and_true]
  exact ⟨⟨by decide +kernel, .str (by decide +kernel)⟩, by decide +kernel, plain_document⟩

theorem dumpNdjson_eq {table : List LldpTlvRow} (fits : ∀ row ∈ table, row.Fits) :
    dumpNdjson table = Json.writeLines (table.map LldpTlvRow.line) := by
  have opening : "\x7b\"table\":\"lldp\",\"row\":".toList =
      '{' :: (Json.renderMember ("table".toList, .str "lldp".toList) ++
        ',' :: (quoted "row".toList ++ [':'])) := rfl
  rw [dumpNdjson, Json.writeLines, List.flatMap_map]
  apply List.flatMap_congr
  intro row member
  rw [rowToJson_eq (fits row member), opening, LldpTlvRow.line]
  simp [Json.render, Json.renderMembers_eq, joined, Json.renderMember]

end Plain

/-! ### Rows have values of their types -/

section Fits

variable {pid ruleId : Nat}

theorem readWithin_lt {bytes : Bytes} {inside : Prop} [Decidable inside] {off n kept : Nat}
    (before : kept < 256 ^ n) : readWithin bytes inside off n kept < 256 ^ n := by
  rw [readWithin]
  split
  · exact readBig_lt bytes off n
  · exact before

theorem fits_row {tlv : LldpTlv} (legal : tlv.Legal) (packet : pid < 2 ^ 64) (rule : ruleId < 2 ^ 32)
    (idx off : Nat) : (tlv.row pid ruleId idx off).Fits := by
  have type : tlv.type < 2 ^ 16 := Nat.lt_trans legal.type_lt (by decide)
  have length : tlv.value.length < 2 ^ 16 := Nat.lt_trans legal.length_lt (by decide)
  have index : idx % 2 ^ 32 < 2 ^ 32 := Nat.mod_lt _ (by decide)
  have byte : 0 < 2 ^ 8 := Nat.two_pow_pos 8
  have word : 0 < 2 ^ 16 := Nat.two_pow_pos 16
  have four : 0 < 2 ^ 32 := Nat.two_pow_pos 32
  rw [LldpTlv.row]
  by_cases empty : tlv.value.length = 0
  · rw [if_pos empty, if_pos empty, fill_of_none]
    exact ⟨packet, rule, index, type, length, byte, word, word, word, word, byte, byte, four⟩
  · have offset : off % 2 ^ 16 < 2 ^ 16 := Nat.mod_lt _ word
    rw [if_neg empty, if_neg empty, fill_of_some]
    exact ⟨packet, rule, index, type, length, readWithin_lt (n := 1) byte, offset,
      readWithin_lt (n := 2) word, readWithin_lt (n := 2) word, readWithin_lt (n := 2) word,
      readWithin_lt (n := 1) byte, readWithin_lt (n := 1) byte, readWithin_lt (n := 4) four⟩

theorem row_of_mem_tlvRows {tlvs : List LldpTlv} {idx off : Nat} {row : LldpTlvRow}
    (member : row ∈ tlvRows pid ruleId idx off tlvs) :
    ∃ tlv ∈ tlvs, ∃ idx off, row = tlv.row pid ruleId idx off := by
  induction tlvs generalizing idx off with
  | nil => contradiction
  | cons tlv tlvs inductionHypothesis =>
      rcases List.mem_cons.mp member with first | later
      · exact ⟨tlv, List.mem_cons_self, idx, off + 2, first⟩
      · obtain ⟨other, listed, same⟩ := inductionHypothesis later
        exact ⟨other, List.mem_cons_of_mem _ listed, same⟩

/-- Every row of a region is the row of a legal TLV. -/
theorem row_of_mem_lldpRows {pkt : Bytes} {p stop : Nat} {row : LldpTlvRow}
    (member : row ∈ lldpRows pid ruleId pkt p stop) :
    ∃ tlv : LldpTlv, tlv.Legal ∧ ∃ idx off, row = tlv.row pid ruleId idx off := by
  rw [lldpRows_eq] at member
  obtain ⟨tlv, listed, same⟩ := row_of_mem_tlvRows member
  obtain ⟨record, found, rfl⟩ := List.mem_map.mp listed
  exact ⟨_, LldpCursor.legal_of_mem_records found, same⟩

end Fits

/-! ### Columns that are not printed -/

/-- The columns that the document leaves out are zero. -/
structure LldpTlvRow.Sparse (r : LldpTlvRow) : Prop where
  ttl : r.tlvType ≠ kLldpTtl → r.ttlSeconds = 0
  caps : r.tlvType ≠ kLldpSysCaps → r.capsSupported = 0 ∧ r.capsEnabled = 0
  mgmt : r.tlvType ≠ kLldpMgmtAddr →
    r.mgmtAddrSubtype = 0 ∧ r.mgmtIfaceSubtype = 0 ∧ r.mgmtIfaceNumber = 0
  head : headOf r.shown = r.valueHead

section Sparse

variable {pid ruleId : Nat}

theorem headOf_take {bytes : Bytes} {n : Nat} (covered : bytes.length ≤ n) :
    headOf ((headOf bytes).toList.take n) = headOf bytes := by
  have value : ∀ i, i < 32 → ((headOf bytes).toList.take n).getD i 0 = bytes.getD i 0 := by
    intro i below
    rw [List.getD_eq_getElem?_getD, List.getElem?_take]
    split
    · rw [headOf, Vector.toList_ofFn, List.getElem?_ofFn, dif_pos below, Option.getD_some]
    · rw [List.getD_eq_default _ _ (by omega), Option.getD_none]
  rw [headOf, headOf]
  congr 1
  funext i
  exact value i i.isLt

theorem readWithin_of_not {bytes : Bytes} {inside : Prop} [Decidable inside] {off n kept : Nat}
    (outside : ¬ inside) : readWithin bytes inside off n kept = kept :=
  if_neg outside

theorem sparse_row (tlv : LldpTlv) (idx off : Nat) : (tlv.row pid ruleId idx off).Sparse := by
  rw [LldpTlv.row]
  by_cases empty : tlv.value.length = 0
  · rw [if_pos empty, if_pos empty, fill_of_none]
    refine ⟨fun _ => rfl, fun _ => ⟨rfl, rfl⟩, fun _ => ⟨rfl, rfl, rfl⟩, ?_⟩
    exact headOf_take (Nat.zero_le _)
  · rw [if_neg empty, if_neg empty, fill_of_some]
    refine ⟨fun other => ?_, fun other => ⟨?_, ?_⟩, fun other => ⟨?_, ?_, ?_⟩, ?_⟩
    · exact readWithin_of_not fun holds => other holds.1
    · exact readWithin_of_not fun holds => other holds.1
    · exact readWithin_of_not fun holds => other holds.1
    · exact readWithin_of_not fun holds => other holds.1
    · exact readWithin_of_not fun holds => other holds.1.1
    · exact readWithin_of_not fun holds => other holds.1.1
    · refine headOf_take ?_
      rw [length_readBytes]
      dsimp only
      split <;> omega

end Sparse

/-! ### Reading rows -/

/-- The row that a document describes; a column that it leaves out is zero. -/
def readRow (json : Json) : Option LldpTlvRow := do
  let sparse := fun key => (json.getNum key).getD 0
  return {
    packetId := ← json.getNum "packet_id"
    ruleId := ← json.getNum "rule_id"
    tlvIndex := ← json.getNum "tlv_index"
    tlvType := ← json.getNum "type"
    tlvLength := ← json.getNum "length"
    subtype := ← json.getNum "subtype"
    valueOffset := ← json.getNum "value_offset"
    ttlSeconds := sparse "ttl_seconds"
    capsSupported := sparse "caps_supported"
    capsEnabled := sparse "caps_enabled"
    mgmtAddrSubtype := sparse "mgmt_addr_subtype"
    mgmtIfaceSubtype := sparse "mgmt_iface_subtype"
    mgmtIfaceNumber := sparse "mgmt_iface_number"
    valueHead := headOf (← readHexBytes (← json.getStr "hex")) }

def readLine (json : Json) : Option LldpTlvRow :=
  if json.getStr "table" = some "lldp".toList then (json.getMember "row").bind readRow else none

/-- The table that a text has one line a row of. -/
def readDump (text : Text) : Option (List LldpTlvRow) := do
  (← Json.readLines text).mapM readLine

section Reading

variable {r : LldpTlvRow}

/-- A row that is read has the columns that are printed for its type. -/
theorem readRow_decoded {columns : List (Text × Json)} (printed : r.decoded = columns)
    (hexless : (Json.obj columns).getMember "hex" = none) :
    let sparse := fun key => ((Json.obj columns).getNum key).getD 0
    readRow r.document = some { r with
      ttlSeconds := sparse "ttl_seconds"
      capsSupported := sparse "caps_supported"
      capsEnabled := sparse "caps_enabled"
      mgmtAddrSubtype := sparse "mgmt_addr_subtype"
      mgmtIfaceSubtype := sparse "mgmt_iface_subtype"
      mgmtIfaceNumber := sparse "mgmt_iface_number"
      valueHead := headOf r.shown } := by
  have absent : ∀ key, (Json.obj []).getMember key = none := fun _ => rfl
  rw [LldpTlvRow.document, LldpTlvRow.members, printed]
  simp only [readRow, Json.getNum, Json.getStr, List.cons_append, List.nil_append,
    Json.getMember_obj_cons, Json.getMember_obj_append, String.reduceEq,
    ↓reduceIte, absent, hexless, Option.or_none, Option.none_or, bind, Option.bind, pure,
    readHexBytes_hexBytes]

theorem decoded_ttl (type : r.tlvType = kLldpTtl) :
    r.decoded = [("ttl_seconds".toList, .num r.ttlSeconds)] :=
  if_pos type

theorem decoded_sysCaps (type : r.tlvType = kLldpSysCaps) :
    r.decoded =
      [("caps_supported".toList, .num r.capsSupported), ("caps_enabled".toList, .num r.capsEnabled),
        ("caps".toList, .arr ((capabilities r.capsEnabled).map .str))] := by
  rw [LldpTlvRow.decoded, type]
  rfl

theorem decoded_mgmtAddr (type : r.tlvType = kLldpMgmtAddr) :
    r.decoded =
      [("mgmt_addr_subtype".toList, .num r.mgmtAddrSubtype),
        ("mgmt_iface_subtype".toList, .num r.mgmtIfaceSubtype),
        ("mgmt_iface_number".toList, .num r.mgmtIfaceNumber)] := by
  rw [LldpTlvRow.decoded, type]
  rfl

theorem decoded_other (notTtl : r.tlvType ≠ kLldpTtl) (notSysCaps : r.tlvType ≠ kLldpSysCaps)
    (notMgmtAddr : r.tlvType ≠ kLldpMgmtAddr) : r.decoded = [] := by
  rw [LldpTlvRow.decoded, if_neg notTtl, if_neg notSysCaps, if_neg notMgmtAddr]

theorem readRow_document (sparse : r.Sparse) : readRow r.document = some r := by
  obtain ⟨ttl, caps, mgmt, head⟩ := sparse
  by_cases isTtl : r.tlvType = kLldpTtl
  · have noCaps := caps (by rw [isTtl]; decide)
    have noMgmt := mgmt (by rw [isTtl]; decide)
    rw [readRow_decoded (decoded_ttl isTtl) rfl, head]
    obtain ⟨⟩ := r
    obtain ⟨⟨rfl, rfl⟩, rfl, rfl, rfl⟩ := And.intro noCaps noMgmt
    rfl
  by_cases isCaps : r.tlvType = kLldpSysCaps
  · have noMgmt := mgmt (by rw [isCaps]; decide)
    rw [readRow_decoded (decoded_sysCaps isCaps) rfl, head]
    obtain ⟨⟩ := r
    obtain ⟨rfl, rfl, rfl, rfl⟩ := And.intro (ttl isTtl) noMgmt
    rfl
  by_cases isMgmt : r.tlvType = kLldpMgmtAddr
  · rw [readRow_decoded (decoded_mgmtAddr isMgmt) rfl, head]
    obtain ⟨⟩ := r
    obtain ⟨rfl, rfl, rfl⟩ := And.intro (ttl isTtl) (caps isCaps)
    rfl
  · rw [readRow_decoded (decoded_other isTtl isCaps isMgmt) rfl, head]
    obtain ⟨⟩ := r
    obtain ⟨rfl, ⟨rfl, rfl⟩, rfl, rfl, rfl⟩ :=
      And.intro (ttl isTtl) (And.intro (caps isCaps) (mgmt isMgmt))
    rfl

theorem readLine_line (sparse : r.Sparse) : readLine r.line = some r := by
  have row : r.line.getMember "row" = some r.document := by
    rw [LldpTlvRow.line, Json.getMember_obj_cons, if_neg (by decide), Json.getMember_obj_cons,
      if_pos rfl]
  have table : r.line.getStr "table" = some "lldp".toList := rfl
  rw [readLine, if_pos table, row, Option.bind_some, readRow_document sparse]

end Reading

/-- What the tool prints of its table, after any loads and runs, is one document for
each row, and all columns of all rows are read back from it. -/
theorem lldpDump_reads (calls : List EngineCall)
    (ids : ∀ pkt, EngineCall.run pkt ∈ calls → pkt.packetId < 2 ^ 64) :
    ∃ engine, Engine.after LldpPalette buildL2l3Catalog calls = some engine ∧
      let table : List LldpTlvRow := LldpPalette.table engine.tables ⟨0, Nat.one_pos⟩
      Json.readLines (dumpNdjson table) = some (table.map LldpTlvRow.line) ∧
        readDump (dumpNdjson table) = some table := by
  obtain ⟨engine, reached, tables⟩ := exists_after lldpPalette_appends calls
  have printed : ∀ row ∈ (LldpPalette.table engine.tables ⟨0, Nat.one_pos⟩ : List LldpTlvRow),
      row.Fits ∧ row.Sparse := by
    rw [tables]
    intro row member
    obtain ⟨⟨pkt, call⟩, made, own⟩ := List.mem_flatMap.mp member
    obtain ⟨rule, packet, run, -, same⟩ :=
      ids_of_mem_callsMade (List.forall_mem_nil _) calls (pkt, call) made
    rw [Palette.rowsAt] at own
    split at own
    · obtain ⟨tlv, legal, idx, off, rfl⟩ := row_of_mem_lldpRows own
      exact ⟨fits_row legal (same ▸ ids packet run) rule idx off, sparse_row tlv idx off⟩
    · contradiction
  refine ⟨engine, reached, ?_⟩
  intro table
  have lines : Json.readLines (dumpNdjson table) = some (table.map LldpTlvRow.line) := by
    rw [dumpNdjson_eq fun row member => (printed row member).1, Json.readLines_writeLines]
    exact List.forall_mem_map.mpr fun row _ => plain_line
  have rows : (table.map LldpTlvRow.line).mapM readLine = some (table.map id) := by
    rw [List.mapM_map]
    exact mapM_eq_some fun row member => readLine_line (printed row member).2
  rw [List.map_id] at rows
  refine ⟨lines, ?_⟩
  rw [readDump, lines]
  exact rows

theorem lldpDump_reads_trunkFrame :
    let calls := [.loadRules exampleRules, .run (packetOf (9, .lldp trunkFrame))]
    ∃ engine, Engine.after LldpPalette buildL2l3Catalog calls = some engine ∧
      let table : List LldpTlvRow := LldpPalette.table engine.tables ⟨0, Nat.one_pos⟩
      Json.readLines (dumpNdjson table) = some (table.map LldpTlvRow.line) ∧
        readDump (dumpNdjson table) = some table := by
  refine lldpDump_reads _ fun pkt member => ?_
  simp only [List.mem_cons, List.not_mem_nil, or_false, reduceCtorEq, false_or] at member
  cases member
  exact (by decide : 9 < 2 ^ 64)

end Nanotins.Lldp
