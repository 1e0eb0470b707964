import Nanotins.PcapBlocks.LegacyPhases
import Nanotins.Pcapng2json.Capture

/-!
Contract: what pcapng2json prints of a legacy pcap capture that was written from
its contents.

Owns: the global header with its records, in either byte order and either
resolution, and that converting inverts writing (`toNdjson_legacy`).

Does not own: pcapng captures.
-/

namespace Nanotins.Pcapng2json

open Nanotins.Library Nanotins.PcapBlocks Nanotins.ProtocolDecode

/-! ### Contents -/

/-- A record of a legacy capture. -/
structure PcapRecord where
  seconds : Nat
  fraction : Nat
  origlen : Nat
  data : Bytes
  seconds_lt : seconds < 2 ^ 32
  fraction_lt : fraction < 2 ^ 32
  origlen_lt : origlen < 2 ^ 32
  total_lt : 16 + data.length < 2 ^ 32

def PcapRecord.encode (le : Bool) (record : PcapRecord) : Bytes :=
  u32 le record.seconds ++ (u32 le record.fraction ++ (u32 le record.data.length ++
    (u32 le record.origlen ++ record.data)))

/-- What a record says.  It has no interface of its own. -/
def PcapRecord.content (linkType : Nat) (record : PcapRecord) : PacketContent :=
  ⟨0, record.seconds * 2 ^ 32 + record.fraction, record.origlen, linkType, record.data⟩

/-- A legacy capture: the fields between its magic and its network word are not
read. -/
structure LegacyCapture where
  littleEndian : Bool
  nanos : Bool
  unread : Bytes
  network : Nat
  records : List PcapRecord
  length_unread : unread.length = 16
  network_lt : network < 2 ^ 32

namespace LegacyCapture

variable (capture : LegacyCapture)

def magic : Nat := if capture.nanos then kPcapMagicNanosLE else kPcapMagicMicrosLE

def header : Bytes :=
  u32 capture.littleEndian capture.magic ++
    (capture.unread ++ u32 capture.littleEndian capture.network)

def encode : Bytes :=
  capture.header ++ capture.records.flatMap (PcapRecord.encode capture.littleEndian)

theorem length_header : capture.header.length = 24 := by
  rw [header, List.length_append, List.length_append, length_u32, length_u32,
    capture.length_unread]

theorem standsAt_header : StandsAt capture.encode 0 capture.header := ⟨[], _, rfl, rfl⟩

/-- The magic is known in either byte order. -/
theorem magic_known :
    isPcapMagic (rd32 capture.encode 0 true) = true ∧
      legacyOrder capture.encode = capture.littleEndian := by
  have stands := capture.standsAt_header.left
  rw [legacyOrder]
  rw [magic] at stands
  cases le : capture.littleEndian with
  | true =>
      rw [le] at stands
      cases nanos : capture.nanos with
      | true =>
          rw [nanos] at stands
          rw [rd32_of_standsAt stands (by decide)]
          decide
      | false =>
          rw [nanos] at stands
          rw [rd32_of_standsAt stands (by decide)]
          decide
  | false =>
      have micros : u32 false kPcapMagicMicrosLE = u32 true kPcapMagicMicrosBE := by decide
      have nanosBytes : u32 false kPcapMagicNanosLE = u32 true kPcapMagicNanosBE := by decide
      rw [le] at stands
      cases nanos : capture.nanos with
      | true =>
          rw [nanos, if_pos rfl, nanosBytes] at stands
          rw [rd32_of_standsAt stands (by decide)]
          decide
      | false =>
          rw [nanos, if_neg Bool.false_ne_true, micros] at stands
          rw [rd32_of_standsAt stands (by decide)]
          decide

theorem networkWord_eq : networkWord capture.encode = capture.network := by
  have stands := capture.standsAt_header.right.right
  rw [length_u32, capture.length_unread] at stands
  rw [networkWord, capture.magic_known.2]
  exact rd32_of_standsAt stands capture.network_lt

end LegacyCapture

/-! ### Records -/

section Records

variable {file : Bytes} {pos : Nat} {st : ScanState}

theorem PcapRecord.length_encode (le : Bool) (record : PcapRecord) :
    (record.encode le).length = 16 + record.data.length := by
  simp only [PcapRecord.encode, List.length_append, length_u32]
  omega

/-- A record that stands in the file is taken and parsed as it was written. -/
theorem packetAt_record (before : List BlockRef) (record : PcapRecord)
    (stands : StandsAt file pos (record.encode st.littleEndian)) :
    inclLen file st.littleEndian pos = record.data.length ∧
      ∃ view, packetAt file before (recordRef st file pos) = some view ∧
        ReadAs file view (record.content ((interfaces file before).getD 0 0)) := by
  have bounded := record.total_lt
  have inside := stands.length_le
  rw [record.length_encode] at inside
  have fraction := stands.right.left
  have caplen := stands.right.right.left
  have origlen := stands.right.right.right.left
  have payload := stands.right.right.right.right
  simp only [length_u32, Nat.add_assoc, Nat.reduceAdd] at fraction caplen origlen payload
  have incl : inclLen file st.littleEndian pos = record.data.length :=
    rd32_of_standsAt caplen (by omega)
  refine ⟨incl, ?_⟩
  have parsed : parseEpb file (recordRef st file pos) = some {
      interfaceId := 0
      tsRaw := rd32 file pos st.littleEndian * 2 ^ 32 + rd32 file (pos + 4) st.littleEndian
      caplen := rd32 file (pos + 8) st.littleEndian
      origlen := rd32 file (pos + 12) st.littleEndian
      payloadFileOffset := pos + 16
      epbFlags := 0
      options := ⟨none, 0, st.littleEndian⟩ } := by
    rw [recordRef, incl, Nat.mod_eq_of_lt bounded, parseEpb]
    dsimp only
    rw [if_neg (by omega), if_pos rfl, if_neg (by omega)]
  refine ⟨_, packetAt_of_packet parsed, rfl, ?_, incl, ?_, rfl, payload,
    optionsInside_of_within (within_of_null rfl)⟩
  · exact congrArg₂ (fun high low => high * 2 ^ 32 + low)
      (rd32_of_standsAt stands.left record.seconds_lt) (rd32_of_standsAt fraction record.fraction_lt)
  · exact rd32_of_standsAt origlen record.origlen_lt

theorem interfaces_record (before : List BlockRef) :
    interfaces file (before ++ [recordRef st file pos]) = interfaces file before := by
  have kind : (recordRef st file pos).kind = .pcapRecord := rfl
  rw [interfaces_concat (by rw [kind]; decide), parseIdb_of_other (by rw [kind]; decide),
    Option.map_none, Option.toList_none, List.append_nil]

/-- The loop over records that end the file takes all of them. -/
theorem pcapLoop_records (before : List BlockRef) (records : List PcapRecord)
    (stands : StandsAt file pos (records.flatMap (PcapRecord.encode st.littleEndian)))
    (ends : pos + (records.flatMap (PcapRecord.encode st.littleEndian)).length = file.length) :
    (pcapLoop st file pos).1 = file.length ∧
      ∃ views, packets file (before ++ (pcapLoop st file pos).2) = packets file before ++ views ∧
        List.Forall₂ (ReadAs file) views
          (records.map (PcapRecord.content ((interfaces file before).getD 0 0))) := by
  induction records generalizing before pos with
  | nil =>
      have last : pos = file.length := ends
      have cut : ¬ pos + (16 + inclLen file st.littleEndian pos) ≤ file.length := by omega
      rw [pcapLoop_of_cut cut]
      exact ⟨last, [], by rw [List.append_nil, List.append_nil], .nil⟩
  | cons record records inductionHypothesis =>
      rw [List.flatMap_cons] at stands ends
      obtain ⟨incl, view, found, read⟩ := packetAt_record before record stands.left
      have inside := stands.left.length_le
      have later := stands.right
      rw [List.length_append, record.length_encode] at ends
      rw [record.length_encode] at inside later
      have whole : pos + (16 + inclLen file st.littleEndian pos) ≤ file.length := by
        rw [incl]
        exact inside
      obtain ⟨ended, views, packets, others⟩ := inductionHypothesis
        (before ++ [recordRef st file pos]) later (by omega)
      rw [interfaces_record] at others
      rw [pcapLoop_of_whole whole, incl]
      refine ⟨ended, view :: views, ?_, .cons read others⟩
      rw [List.append_cons, packets, packets_concat, found, Option.toList_some, List.append_assoc]
      rfl

end Records

/-! ### The capture -/

section Capture

variable (capture : LegacyCapture)

/-- The scan starts the record loop behind the header. -/
theorem scan_legacy :
    scanBlocks capture.encode =
      scanFrom (legacyState capture.encode) capture.encode true 24 [headerRef capture.encode] := by
  have legacy := capture.magic_known.1
  have long := capture.standsAt_header.length_le
  rw [capture.length_header] at long
  have notShb : rd32 capture.encode 0 true ≠ kBlockTypeShb := by
    intro shb
    rw [shb] at legacy
    exact absurd legacy (by decide)
  have tooShort : ¬ capture.encode.length < 4 := by omega
  have shorter : ¬ capture.encode.length < 24 := by omega
  rw [scanBlocks, scanWindow, if_neg Bool.false_ne_true, if_neg tooShort]
  dsimp only
  rw [if_neg notShb, if_pos legacy, if_neg shorter]
  rfl

/-- Converting inverts writing: of a legacy capture, in either byte order and
resolution, one line is printed for each record, in order, and the line reads
back to the record's number, timestamp and lengths, the low 16 bits of the
network word, and the layers that the walk finds in its data. -/
theorem toNdjson_legacy :
    ∃ text, toNdjson capture.encode = some (.ok text) ∧
      readNdjson text = some ((capture.records.map
        (PcapRecord.content (capture.network % 2 ^ 16))).mapIdx PacketLine.ofContent) := by
  have long := capture.standsAt_header.length_le
  rw [capture.length_header] at long
  obtain ⟨idb, parsed, linkType⟩ := parseIdb_headerRef capture.magic_known.1 (by omega)
  have kind : (headerRef capture.encode).kind = .idb := rfl
  have table : interfaces capture.encode [headerRef capture.encode] =
      [capture.network % 2 ^ 16] := by
    rw [← List.nil_append [headerRef capture.encode], interfaces_concat (by rw [kind]; decide),
      parsed, Option.map_some, linkType, capture.networkWord_eq]
    rfl
  have noPacket : packets capture.encode [headerRef capture.encode] = [] := by
    rw [← List.nil_append [headerRef capture.encode],
      packets_of_no_packet (parseEpb_of_other (by rw [kind]; decide) (by rw [kind]; decide))]
    rfl
  have order : (legacyState capture.encode).littleEndian = capture.littleEndian :=
    capture.magic_known.2
  have ends : 24 + (capture.records.flatMap (PcapRecord.encode capture.littleEndian)).length =
      capture.encode.length := by
    rw [LegacyCapture.encode, List.length_append, capture.length_header]
  have stands : StandsAt capture.encode 24
      (capture.records.flatMap (PcapRecord.encode capture.littleEndian)) :=
    ⟨capture.header, [], by rw [List.append_nil, LegacyCapture.encode], capture.length_header⟩
  rw [← order] at stands ends
  obtain ⟨ended, views, whole, read⟩ :=
    pcapLoop_records [headerRef capture.encode] capture.records stands ends
  have scanned := scan_legacy capture
  rw [scanFrom] at scanned
  rw [table] at read
  rw [noPacket, List.nil_append] at whole
  have accepted : (scanBlocks capture.encode).error = none := by
    have whole : ¬ (pcapLoop (legacyState capture.encode) capture.encode 24).1 <
        capture.encode.length := by omega
    rw [scanned]
    show (if true && decide ((pcapLoop (legacyState capture.encode) capture.encode 24).1 <
      capture.encode.length) then some ScanError.trailingTruncatedBlock else none) = none
    rw [decide_eq_false whole, Bool.and_false]
    rfl
  have refs : (scanBlocks capture.encode).refs = [headerRef capture.encode] ++
      (pcapLoop (legacyState capture.encode) capture.encode 24).2 := by
    rw [scanned]
    rfl
  apply toNdjson_of_readAs accepted
  rw [refs, whole]
  exact read

end Capture

end Nanotins.Pcapng2json
