import Mathlib.Data.List.DropRight
import Nanotins.PcapBlocks.ParseReads
import Nanotins.PcapBlocks.SectionBlocks
import Nanotins.Pcapng2json.Layers
import Nanotins.ProtocolDecode.WalkReads

/-!
Contract: `to_ndjson`, the conversion of a whole capture.

Owns: the loop over the blocks with its interface table, the packets of a list
of blocks, when converting a packet reads outside the file, and that the text reads
back to the packets (`toNdjson_reads`).

Does not own: the scan, the block parsers, or the walk over a packet.
-/

namespace Nanotins.Pcapng2json

open Nanotins.Library Nanotins.PcapBlocks Nanotins.ProtocolDecode

/-! ### The loop -/

/-- What is appended for a packet, piece by piece. -/
def linePieces (packetId linkType : Nat) (e : EpbView) (pdus : List Pdu) : List Text :=
  ["\x7b".toList, appendU64 "packet_id" packetId, ",".toList, appendU64 "interface_id" e.interfaceId,
    ",".toList, appendU64 "timestamp_raw" e.tsRaw, ",".toList, appendU64 "caplen" e.caplen,
    ",".toList, appendU64 "origlen" e.origlen, ",".toList, appendU64 "link_type" linkType,
    ",\"layers\":[".toList,
    (pdus.foldl (fun layers x => appendPart layers (Layer.ofPdu x).text) ([], true)).1,
    "]\x7d".toList]

structure ConvertState where
  ifaceLink : List Nat := []
  packetId : Nat := 0
  out : Text := []
deriving DecidableEq, Repr

/-- One round of the loop.  The options of a packet may lie outside the file and its span
may end past it, which the source does not check for; `none` is a read there. -/
def convertRef (file : Bytes) (state : ConvertState) (ref : BlockRef) : Option ConvertState :=
  if ref.kind = .shb then some { state with ifaceLink := [] }
  else if ref.kind = .idb then
    match parseIdb file ref with
    | some idb => some { state with ifaceLink := state.ifaceLink ++ [idb.linkType] }
    | none => some state
  else if ref.kind ≠ .epb ∧ ref.kind ≠ .pcapRecord then some state
  else do
    let rd := guardedByte file 0 file.length
    match ← parseEpbM rd file.length ref with
    | none => return state
    | some e =>
        let linkType := state.ifaceLink.getD e.interfaceId 0
        let walked ← walkPacketM rd linkType e.payloadFileOffset e.caplen
        let line := (linePieces state.packetId linkType e walked.1).flatten
        return { state with
          packetId := (state.packetId + 1) % 2 ^ 64
          out := state.out ++ line ++ ['\n'] }

def toNdjson (file : Bytes) : Option (Except ScanError Text) :=
  match (scanBlocks file).error with
  | some error => some (.error error)
  | none =>
      ((scanBlocks file).refs.foldlM (convertRef file) {}).map fun state => .ok state.out

/-! ### The packets of a capture -/

/-- The span over the payload of a packet, where bytes past the end of the file count
as zero. -/
def span (file : Bytes) (e : EpbView) : Bytes := readBytes file e.payloadFileOffset e.caplen

/-- The link types of the interfaces that the last section has described. -/
def interfaces (file : Bytes) (refs : List BlockRef) : List Nat :=
  (refs.rtakeWhile fun ref => ref.kind ≠ .shb).filterMap fun ref =>
    (parseIdb file ref).map IdbView.linkType

/-- The packet of a block, with the link type of its interface. -/
def packetAt (file : Bytes) (before : List BlockRef) (ref : BlockRef) : Option (EpbView × Nat) :=
  (parseEpb file ref).map fun e => (e, (interfaces file before).getD e.interfaceId 0)

def packets (file : Bytes) (refs : List BlockRef) : List (EpbView × Nat) :=
  refs.zipIdx.filterMap fun entry => packetAt file (refs.take entry.2) entry.1

/-- What is printed of a packet. -/
structure PacketLine where
  packetId : Nat
  interfaceId : Nat
  timestampRaw : Nat
  caplen : Nat
  origlen : Nat
  linkType : Nat
  layers : List Layer
deriving DecidableEq, Repr

namespace PacketLine

def ofPacket (file : Bytes) (i : Nat) (packet : EpbView × Nat) : PacketLine where
  packetId := i % 2 ^ 64
  interfaceId := packet.1.interfaceId
  timestampRaw := packet.1.tsRaw
  caplen := packet.1.caplen
  origlen := packet.1.origlen
  linkType := packet.2
  layers := (walkPacket packet.2 (span file packet.1)).1.map Layer.ofPdu

def members (line : PacketLine) : List (Text × Json) :=
  [("packet_id".toList, .num line.packetId), ("interface_id".toList, .num line.interfaceId),
    ("timestamp_raw".toList, .num line.timestampRaw), ("caplen".toList, .num line.caplen),
    ("origlen".toList, .num line.origlen), ("link_type".toList, .num line.linkType),
    ("layers".toList, .arr (line.layers.map Layer.document))]

def document (line : PacketLine) : Json := .obj line.members

/-- Every field has a value of its type. -/
structure Fits (line : PacketLine) : Prop where
  packetId : line.packetId < 2 ^ 64
  interfaceId : line.interfaceId < 2 ^ 32
  timestampRaw : line.timestampRaw < 2 ^ 64
  caplen : line.caplen < 2 ^ 32
  origlen : line.origlen < 2 ^ 32
  linkType : line.linkType < 2 ^ 16
  layers : ∀ layer ∈ line.layers, layer.Fits

end PacketLine

/-- The lines of a capture. -/
def lines (file : Bytes) : List PacketLine :=
  (packets file (scanBlocks file).refs).mapIdx (PacketLine.ofPacket file)

def readPacketLine (json : Json) : Option PacketLine := do
  return {
    packetId := ← json.getNum "packet_id"
    interfaceId := ← json.getNum "interface_id"
    timestampRaw := ← json.getNum "timestamp_raw"
    caplen := ← json.getNum "caplen"
    origlen := ← json.getNum "origlen"
    linkType := ← json.getNum "link_type"
    layers := ← (← json.getArr "layers").mapM readLayer }

def readNdjson (text : Text) : Option (List PacketLine) := do
  (← Json.readLines text).mapM readPacketLine

/-! ### The text of a line -/

section Line

variable {file : Bytes} {line : PacketLine}

/-- The text of a line is its document. -/
theorem linePieces_eq {i : Nat} {packet : EpbView × Nat}
    (fits : (PacketLine.ofPacket file i packet).Fits) :
    (linePieces (i % 2 ^ 64) packet.2 packet.1 (walkPacket packet.2 (span file packet.1)).1).flatten =
      (PacketLine.ofPacket file i packet).document.render := by
  obtain ⟨packetFits, interfaceFits, timestampFits, caplenFits, origlenFits, linkFits, -⟩ := fits
  change i % 2 ^ 64 < 2 ^ 64 at packetFits
  change packet.1.interfaceId < 2 ^ 32 at interfaceFits
  change packet.1.tsRaw < 2 ^ 64 at timestampFits
  change packet.1.caplen < 2 ^ 32 at caplenFits
  change packet.1.origlen < 2 ^ 32 at origlenFits
  change packet.2 < 2 ^ 16 at linkFits
  have word : ∀ {v : Nat}, v < 2 ^ 32 → v < 2 ^ 64 := fun small => Nat.lt_trans small (by decide)
  have layers (pdus : List Pdu) :
      (pdus.foldl (fun layers x => appendPart layers (Layer.ofPdu x).text) ([], true)).1 =
        joined (((pdus.map Layer.ofPdu).map Layer.document).map Json.render) := by
    have documents : ((pdus.map Layer.ofPdu).map Layer.document).map Json.render =
        pdus.map fun x => (Layer.ofPdu x).text := by
      rw [List.map_map, List.map_map]
      exact List.map_congr_left fun x _ => (text_eq (Layer.fits_ofPdu x)).symm
    rw [documents, ← foldl_appendPart, List.foldl_map]
  rw [linePieces, layers, appendU64_eq _ packetFits, appendU64_eq _ (word interfaceFits),
    appendU64_eq _ timestampFits, appendU64_eq _ (word caplenFits),
    appendU64_eq _ (word origlenFits), appendU64_eq _ (Nat.lt_trans linkFits (by decide))]
  simp [PacketLine.document, PacketLine.members, PacketLine.ofPacket, Json.render,
    Json.renderMembers_eq, Json.renderItems_eq, Json.renderMember, joined, quoted]

theorem plain_line (fits : line.Fits) : line.document.Plain := by
  have layers : Json.Plain (.arr (line.layers.map Layer.document)) :=
    .arr (List.forall_mem_map.mpr fun layer member => plain_document (fits.layers layer member))
  refine Json.plain_obj ?_
  simp only [PacketLine.members, List.forall_mem_cons, List.not_mem_nil, false_implies,
    implies_true, and_true]
  exact ⟨⟨by decide +kernel, .num _⟩, ⟨by decide +kernel, .num _⟩, ⟨by decide +kernel, .num _⟩,
    ⟨by decide +kernel, .num _⟩, ⟨by decide +kernel, .num _⟩, ⟨by decide +kernel, .num _⟩,
    by decide +kernel, layers⟩

theorem readPacketLine_document (fits : line.Fits) : readPacketLine line.document = some line := by
  have each : ∀ layer ∈ line.layers, (readLayer ∘ Layer.document) layer = some layer :=
    fun layer member => readLayer_document (fits.layers layer member)
  have layers : (line.layers.map Layer.document).mapM readLayer = some line.layers := by
    rw [List.mapM_map, mapM_eq_some each, List.map_id']
  simp only [readPacketLine, PacketLine.document, PacketLine.members, Json.getNum, Json.getArr,
    Json.getMember_obj_cons, String.reduceEq, ↓reduceIte, bind, Option.bind, layers]
  rfl

theorem readNdjson_writeLines {lines : List PacketLine} (fits : ∀ line ∈ lines, line.Fits) :
    readNdjson (Json.writeLines (lines.map PacketLine.document)) = some lines := by
  have plain : ∀ json ∈ lines.map PacketLine.document, json.Plain :=
    List.forall_mem_map.mpr fun line member => plain_line (fits line member)
  have each : ∀ line ∈ lines, (readPacketLine ∘ PacketLine.document) line = some line :=
    fun line member => readPacketLine_document (fits line member)
  have read : (lines.map PacketLine.document).mapM readPacketLine = some lines := by
    rw [List.mapM_map, mapM_eq_some each, List.map_id']
  rw [readNdjson, Json.readLines_writeLines plain]
  exact read

end Line

/-! ### The packets, block by block -/

section Packets

variable {file : Bytes} {refs : List BlockRef} {ref : BlockRef}

theorem packets_concat (file : Bytes) (refs : List BlockRef) (ref : BlockRef) :
    packets file (refs ++ [ref]) = packets file refs ++ (packetAt file refs ref).toList := by
  have before : refs.zipIdx.filterMap (fun entry => packetAt file ((refs ++ [ref]).take entry.2) entry.1)
      = packets file refs := by
    refine List.filterMap_congr fun entry member => ?_
    have below := List.snd_lt_of_mem_zipIdx member
    rw [List.take_append_of_le_length (by omega)]
  have last : [(ref, 0 + refs.length)].filterMap
      (fun entry => packetAt file ((refs ++ [ref]).take entry.2) entry.1) =
        (packetAt file refs ref).toList := by
    rw [List.filterMap_cons, Nat.zero_add, List.take_left]
    cases packetAt file refs ref <;> rfl
  rw [packets, List.zipIdx_append, List.filterMap_append, before, List.zipIdx_singleton, last]

theorem packetAt_of_no_packet (noPacket : parseEpb file ref = none) :
    packetAt file refs ref = none := by
  rw [packetAt, noPacket, Option.map_none]

theorem packetAt_of_packet {e : EpbView} (parsed : parseEpb file ref = some e) :
    packetAt file refs ref = some (e, (interfaces file refs).getD e.interfaceId 0) := by
  rw [packetAt, parsed, Option.map_some]

theorem packets_of_no_packet (noPacket : parseEpb file ref = none) :
    packets file (refs ++ [ref]) = packets file refs := by
  rw [packets_concat, packetAt_of_no_packet noPacket, Option.toList_none, List.append_nil]

theorem interfaces_shb (shb : ref.kind = .shb) : interfaces file (refs ++ [ref]) = [] := by
  rw [interfaces, List.rtakeWhile_concat_neg]
  · rfl
  · simp [shb]

theorem interfaces_concat (behind : ref.kind ≠ .shb) :
    interfaces file (refs ++ [ref]) =
      interfaces file refs ++ ((parseIdb file ref).map IdbView.linkType).toList := by
  rw [interfaces, List.rtakeWhile_concat_pos _ _ _ (by simp [behind]), List.filterMap_append]
  rfl

theorem parseIdb_of_other (other : ref.kind ≠ .idb) : parseIdb file ref = none :=
  if_pos (.inl other)

theorem parseEpb_of_other (notEpb : ref.kind ≠ .epb) (notRecord : ref.kind ≠ .pcapRecord) :
    parseEpb file ref = none := by
  have rejected : ref.kind ≠ .epb ∨ ref.length < 32 := .inl notEpb
  rw [parseEpb]
  dsimp only
  rw [if_neg notRecord, if_pos rejected, ite_self]

theorem kind_of_parsed {e : EpbView} (parsed : parseEpb file ref = some e) :
    ref.kind = .epb ∨ ref.kind = .pcapRecord := by
  by_contra other
  rw [parseEpb_of_other (not_or.mp other).1 (not_or.mp other).2] at parsed
  contradiction

theorem interfaces_of_packet {e : EpbView} (parsed : parseEpb file ref = some e) :
    interfaces file (refs ++ [ref]) = interfaces file refs := by
  have notShb : ref.kind ≠ .shb := by
    rcases kind_of_parsed parsed with kind | kind <;> rw [kind] <;> decide
  have notIdb : ref.kind ≠ .idb := by
    rcases kind_of_parsed parsed with kind | kind <;> rw [kind] <;> decide
  rw [interfaces_concat notShb, parseIdb_of_other notIdb, Option.map_none, Option.toList_none,
    List.append_nil]

theorem linkType_lt : ∀ linkType ∈ interfaces file refs, linkType < 2 ^ 16 := by
  intro linkType member
  obtain ⟨ref, -, parsed⟩ := List.mem_filterMap.mp member
  obtain ⟨idb, parsed, rfl⟩ := Option.map_eq_some_iff.mp parsed
  rw [parseIdb] at parsed
  split at parsed
  · contradiction
  dsimp only at parsed
  split at parsed
  · rw [← Option.some.inj parsed]
    exact Nat.mod_lt _ (Nat.two_pow_pos 16)
  split at parsed
  · contradiction
  · rw [← Option.some.inj parsed]
    exact rd16_lt _ _ _

theorem fits_view {e : EpbView} (parsed : parseEpb file ref = some e) :
    e.interfaceId < 2 ^ 32 ∧ e.tsRaw < 2 ^ 64 ∧ e.caplen < 2 ^ 32 ∧ e.origlen < 2 ^ 32 := by
  have word : ∀ off, rd32 file off ref.littleEndian < 2 ^ 32 := fun off => rd32_lt file off _
  have timestamp : ∀ high low, rd32 file high ref.littleEndian * 2 ^ 32 +
      rd32 file low ref.littleEndian < 2 ^ 64 := by
    intro high low
    have := word high
    have := word low
    omega
  rw [parseEpb] at parsed
  split at parsed
  · contradiction
  dsimp only at parsed
  split at parsed
  · split at parsed
    · contradiction
    · cases parsed
      exact ⟨Nat.two_pow_pos 32, timestamp _ _, word _, word _⟩
  split at parsed
  · contradiction
  · cases parsed
    exact ⟨word _, timestamp _ _, word _, word _⟩

theorem fits_ofPacket {packet : EpbView × Nat} (member : packet ∈ packets file refs) (i : Nat) :
    (PacketLine.ofPacket file i packet).Fits := by
  obtain ⟨entry, -, found⟩ := List.mem_filterMap.mp member
  obtain ⟨e, parsed, rfl⟩ := Option.map_eq_some_iff.mp found
  obtain ⟨interfaceId, timestampRaw, caplen, origlen⟩ := fits_view parsed
  refine ⟨Nat.mod_lt _ (Nat.two_pow_pos 64), interfaceId, timestampRaw, caplen, origlen, ?_, ?_⟩
  · show (interfaces file (refs.take entry.2)).getD e.interfaceId 0 < 2 ^ 16
    rw [List.getD_eq_getElem?_getD]
    cases known : (interfaces file (refs.take entry.2))[e.interfaceId]? with
    | none => exact Nat.two_pow_pos 16
    | some linkType => exact linkType_lt linkType (List.mem_of_getElem? known)
  · exact List.forall_mem_map.mpr fun pdu _ => Layer.fits_ofPdu pdu

/-- The span of a packet lies in the file. -/
def Inside (file : Bytes) (packet : EpbView × Nat) : Prop :=
  packet.1.payloadFileOffset + packet.1.caplen ≤ file.length

/-- The headers that the walk over a packet finds lie in the file. -/
def WalkInside (file : Bytes) (packet : EpbView × Nat) : Prop :=
  HeadersInside file.length packet.1.payloadFileOffset (walkPacket packet.2 (span file packet.1)).1

theorem walkInside_of_inside {packet : EpbView × Nat} (inside : Inside file packet) :
    WalkInside file packet :=
  headersInside_walkPacket packet.2 (by rw [span, length_readBytes]; exact inside)

/-- What converting a packet reads lies in the file. -/
structure ReadsInside (file : Bytes) (packet : EpbView × Nat) : Prop where
  options : OptionsInside file packet.1
  walk : WalkInside file packet

/-- The lines of the packets of the first blocks. -/
def linesOf (file : Bytes) (refs : List BlockRef) : List PacketLine :=
  (packets file refs).mapIdx (PacketLine.ofPacket file)

/-- What the loop leaves behind after the first blocks. -/
def stateOf (file : Bytes) (refs : List BlockRef) : ConvertState where
  ifaceLink := interfaces file refs
  packetId := (packets file refs).length % 2 ^ 64
  out := Json.writeLines ((linesOf file refs).map PacketLine.document)

theorem stateOf_of_no_packet (none : parseEpb file ref = none) :
    stateOf file (refs ++ [ref]) =
      { stateOf file refs with ifaceLink := interfaces file (refs ++ [ref]) } := by
  rw [stateOf, linesOf, packets_of_no_packet none]
  rfl

/-- A block that is no packet changes the interface table only. -/
theorem convertRef_of_no_packet (none : parseEpb file ref = none) :
    convertRef file (stateOf file refs) ref = some (stateOf file (refs ++ [ref])) := by
  rw [stateOf_of_no_packet none, convertRef]
  by_cases shb : ref.kind = .shb
  · rw [if_pos shb, interfaces_shb shb]
  by_cases idb : ref.kind = .idb
  · rw [if_neg shb, if_pos idb, interfaces_concat shb]
    cases parseIdb file ref with
    | none =>
        rw [Option.map_none, Option.toList_none, List.append_nil]
        rfl
    | some view => rfl
  · have same : interfaces file (refs ++ [ref]) = interfaces file refs := by
      rw [interfaces_concat shb, parseIdb_of_other idb, Option.map_none, Option.toList_none,
        List.append_nil]
    rw [if_neg shb, if_neg idb, same]
    dsimp only
    rw [parseEpbM_guarded, none]
    split_ifs <;> rfl

theorem convertRef_of_packet {e : EpbView} (parsed : parseEpb file ref = some e)
    (state : ConvertState) :
    let linkType := state.ifaceLink.getD e.interfaceId 0
    let pdus := (walkPacket linkType (span file e)).1
    (ReadsInside file (e, linkType) → convertRef file state ref = some { state with
      packetId := (state.packetId + 1) % 2 ^ 64
      out := state.out ++ (linePieces state.packetId linkType e pdus).flatten ++ ['\n'] }) ∧
    (¬ ReadsInside file (e, linkType) → convertRef file state ref = none) := by
  have packet : ref.kind = .epb ∨ ref.kind = .pcapRecord := kind_of_parsed parsed
  have shb : ref.kind ≠ .shb := by
    rcases packet with kind | kind <;> rw [kind] <;> decide
  have idb : ref.kind ≠ .idb := by
    rcases packet with kind | kind <;> rw [kind] <;> decide
  have taken : ¬ (ref.kind ≠ .epb ∧ ref.kind ≠ .pcapRecord) := by
    rintro ⟨notEpb, notRecord⟩
    exact packet.elim notEpb notRecord
  rw [convertRef, if_neg shb, if_neg idb, if_neg taken]
  dsimp only
  rw [parseEpbM_guarded, parsed]
  dsimp only
  by_cases options : OptionsInside file e
  · rw [if_pos options, Option.bind_eq_bind, Option.bind_some]
    have headers : WalkInside file (e, state.ifaceLink.getD e.interfaceId 0) ↔
        HeadersInside file.length e.payloadFileOffset
          (walkPacket (state.ifaceLink.getD e.interfaceId 0)
            (readBytes file e.payloadFileOffset e.caplen)).1 := Iff.rfl
    dsimp only
    rw [walkPacketM_guarded, whenInside]
    refine ⟨fun inside => ?_, fun outside => ?_⟩
    · rw [if_pos (headers.mp inside.walk)]
      rfl
    · rw [if_neg fun walk => outside ⟨options, headers.mpr walk⟩]
      rfl
  · rw [if_neg options]
    exact ⟨fun inside => absurd inside.options options, fun _ => rfl⟩

/-- A round of the loop takes the state of the earlier blocks to the state of
one more, or reads outside the file. -/
theorem convertRef_stateOf (file : Bytes) (refs : List BlockRef) (ref : BlockRef) :
    (convertRef file (stateOf file refs) ref = none ∧
      ∃ packet, packetAt file refs ref = some packet ∧ ¬ ReadsInside file packet) ∨
    (convertRef file (stateOf file refs) ref = some (stateOf file (refs ++ [ref])) ∧
      ∀ packet, packetAt file refs ref = some packet → ReadsInside file packet) := by
  cases parsed : parseEpb file ref with
  | none =>
      refine .inr ⟨convertRef_of_no_packet parsed, fun packet found => ?_⟩
      rw [packetAt_of_no_packet parsed] at found
      contradiction
  | some e =>
      have found : packetAt file refs ref =
          some (e, (interfaces file refs).getD e.interfaceId 0) := packetAt_of_packet parsed
      obtain ⟨goesOn, faults⟩ := convertRef_of_packet parsed (stateOf file refs)
      by_cases inside : ReadsInside file (e, (interfaces file refs).getD e.interfaceId 0)
      · have here : packets file (refs ++ [ref]) =
            packets file refs ++ [(e, (interfaces file refs).getD e.interfaceId 0)] := by
          rw [packets_concat, found, Option.toList_some]
        have line : PacketLine.Fits (PacketLine.ofPacket file (packets file refs).length
            (e, (interfaces file refs).getD e.interfaceId 0)) :=
          fits_ofPacket (here ▸ List.mem_append_right _ List.mem_cons_self) _
        have text := linePieces_eq line
        refine .inr ⟨?_, fun packet other => ?_⟩
        · rw [goesOn inside]
          dsimp only [stateOf]
          rw [interfaces_of_packet parsed, linesOf, linesOf, here,
            List.mapIdx_concat, List.length_append, List.length_singleton, List.map_append,
            Json.writeLines, Json.writeLines, List.flatMap_append, Nat.mod_add_mod]
          simp only [text, List.map_cons, List.map_nil, List.flatMap_cons, List.flatMap_nil,
            List.append_assoc, List.append_nil]
        · rw [found] at other
          rw [← Option.some.inj other]
          exact inside
      · exact .inl ⟨faults inside, _, found, inside⟩

/-- The run over the blocks. -/
theorem foldlM_convertRef (file : Bytes) (refs : List BlockRef) :
    (refs.foldlM (convertRef file) {} = none ∧
      ∃ packet ∈ packets file refs, ¬ ReadsInside file packet) ∨
    (refs.foldlM (convertRef file) {} = some (stateOf file refs) ∧
      ∀ packet ∈ packets file refs, ReadsInside file packet) := by
  induction refs using List.reverseRecOn with
  | nil => exact .inr ⟨rfl, List.forall_mem_nil _⟩
  | append_singleton refs ref inductionHypothesis =>
      rw [List.foldlM_append, packets_concat]
      rcases inductionHypothesis with ⟨fault, packet, member, outside⟩ | ⟨run, inside⟩
      · rw [fault]
        exact .inl ⟨rfl, packet, List.mem_append_left _ member, outside⟩
      · have last : (some (stateOf file refs) >>= fun state =>
            [ref].foldlM (convertRef file) state) =
            convertRef file (stateOf file refs) ref := by
          rw [Option.bind_eq_bind, Option.bind_some, List.foldlM_cons]
          exact bind_pure _
        rw [run, last]
        rcases convertRef_stateOf file refs ref with
          ⟨fault, packet, found, outside⟩ | ⟨step, here⟩
        · have member : packet ∈ (packetAt file refs ref).toList := Option.mem_toList.mpr found
          exact .inl ⟨fault, packet, List.mem_append_right _ member, outside⟩
        · refine .inr ⟨step, List.forall_mem_append.mpr ⟨inside, fun packet member => ?_⟩⟩
          exact here packet (Option.mem_toList.mp member)

/-- A packet block that claims more captured bytes than the file has behind its
fixed fields. -/
structure Overlong (file : Bytes) (ref : BlockRef) : Prop where
  epb : ref.kind = .epb
  long : 32 ≤ ref.length
  cut : file.length < ref.fileOffset + 28 + epbCaplen file ref

/-- The record of a legacy capture is whole. -/
theorem record_inside {e : EpbView} (emitted : ref ∈ (scanBlocks file).refs)
    (record : ref.kind = .pcapRecord) (parsed : parseEpb file ref = some e) :
    e.payloadFileOffset + e.caplen ≤ file.length := by
  obtain ⟨long, payload, caplen⟩ := parseEpb_record record parsed
  have inside := (emitted_sound emitted).inside
  have stored := (emitted_sound emitted).record record
  have bounded := rd32_lt file (ref.fileOffset + 8) ref.littleEndian
  omega

/-- A packet of the capture was parsed from a block that was scanned. -/
theorem exists_ref_of_packet {packet : EpbView × Nat}
    (member : packet ∈ packets file (scanBlocks file).refs) :
    ∃ ref ∈ (scanBlocks file).refs, parseEpb file ref = some packet.1 := by
  obtain ⟨entry, listed, found⟩ := List.mem_filterMap.mp member
  obtain ⟨e, parsed, rfl⟩ := Option.map_eq_some_iff.mp found
  exact ⟨entry.1, List.fst_mem_of_mem_zipIdx listed, parsed⟩

theorem packet_of_parsed {e : EpbView} (scanned : ref ∈ refs) (parsed : parseEpb file ref = some e) :
    ∃ linkType, (e, linkType) ∈ packets file refs := by
  obtain ⟨i, below, rfl⟩ := List.mem_iff_getElem.mp scanned
  have listed : (refs[i], i) ∈ refs.zipIdx := List.mem_zipIdx_iff_getElem?.mpr
    (List.getElem?_eq_getElem below)
  exact ⟨(interfaces file (refs.take i)).getD e.interfaceId 0, List.mem_filterMap.mpr
    ⟨_, listed, packetAt_of_packet parsed⟩⟩

/-- Only an enhanced packet block has options outside the file, or a span that ends
past it. -/
theorem cause_of_not_readsInside {packet : EpbView × Nat}
    (member : packet ∈ packets file (scanBlocks file).refs)
    (outside : ¬ ReadsInside file packet) :
    ∃ ref ∈ (scanBlocks file).refs, Overlong file ref ∨ WindowEscapes file ref := by
  obtain ⟨ref, emitted, parsed⟩ := exists_ref_of_packet member
  refine ⟨ref, emitted, ?_⟩
  by_cases options : OptionsInside file packet.1
  · have past : file.length < packet.1.payloadFileOffset + packet.1.caplen := by
      by_contra inside
      exact outside ⟨options, walkInside_of_inside (Nat.not_lt.mp inside)⟩
    rcases kind_of_parsed parsed with epb | record
    · obtain ⟨long, payload, caplen, -, -⟩ := parseEpb_epb epb parsed
      exact .inl ⟨epb, long, by omega⟩
    · have := record_inside emitted record parsed
      omega
  · exact .inr (escapes_of_outside emitted parsed options)

end Packets

theorem toNdjson_of_inside {file : Bytes} (accepted : (scanBlocks file).error = none)
    (inside : ∀ packet ∈ packets file (scanBlocks file).refs, ReadsInside file packet) :
    ∃ text, toNdjson file = some (.ok text) ∧ readNdjson text = some (lines file) := by
  rcases foldlM_convertRef file (scanBlocks file).refs with
    ⟨-, packet, member, outside⟩ | ⟨run, -⟩
  · exact absurd (inside packet member) outside
  · have fits : ∀ line ∈ lines file, line.Fits := by
      intro line member
      obtain ⟨i, below, rfl⟩ := List.mem_mapIdx.mp member
      exact fits_ofPacket (List.getElem_mem below) i
    refine ⟨_, ?_, readNdjson_writeLines fits⟩
    rw [toNdjson, accepted]
    dsimp only
    rw [run, Option.map_some]
    rfl

/-- For any file, `to_ndjson` fails as the scan does; else it reads outside the file
exactly if the option scan or the walk of some packet does, for which an enhanced packet
block has to claim more bytes than follow it or have an option window that escapes, and
in a file below 4 GiB the latter is enough; else its text is one document for each packet,
in order, that reads back to the packet's fields, the link type of its interface and the
layers of the walk. -/
theorem toNdjson_reads (file : Bytes) :
    (∀ error, (scanBlocks file).error = some error → toNdjson file = some (.error error)) ∧
    ((scanBlocks file).error = none →
      (toNdjson file = none ↔
        ∃ packet ∈ packets file (scanBlocks file).refs, ¬ ReadsInside file packet) ∧
      (toNdjson file = none →
        ∃ ref ∈ (scanBlocks file).refs, Overlong file ref ∨ WindowEscapes file ref) ∧
      (file.length < 2 ^ 32 → (∃ ref ∈ (scanBlocks file).refs, WindowEscapes file ref) →
        toNdjson file = none) ∧
      (toNdjson file ≠ none →
        ∃ text, toNdjson file = some (.ok text) ∧ readNdjson text = some (lines file))) := by
  refine ⟨fun error failed => ?_, fun accepted => ?_⟩
  · rw [toNdjson, failed]
  have escaped : file.length < 2 ^ 32 →
      (∃ ref ∈ (scanBlocks file).refs, WindowEscapes file ref) →
        ∃ packet ∈ packets file (scanBlocks file).refs, ¬ ReadsInside file packet := by
    rintro small ⟨ref, emitted, escapes⟩
    obtain ⟨e, parsed⟩ :=
      Option.isSome_iff_exists.mp (parseEpb_isSome emitted escapes.epb escapes.long)
    obtain ⟨linkType, member⟩ := packet_of_parsed emitted parsed
    exact ⟨_, member, fun inside =>
      outside_of_escapes small emitted parsed escapes inside.options⟩
  rcases foldlM_convertRef file (scanBlocks file).refs with ⟨fault, outside⟩ | ⟨-, inside⟩
  · have faults : toNdjson file = none := by
      rw [toNdjson, accepted]
      dsimp only
      rw [fault, Option.map_none]
    refine ⟨iff_of_true faults outside, fun _ => ?_, fun _ _ => faults,
      fun returned => absurd faults returned⟩
    obtain ⟨packet, member, left⟩ := outside
    exact cause_of_not_readsInside member left
  · obtain ⟨text, returned, read⟩ := toNdjson_of_inside accepted inside
    have returns : toNdjson file ≠ none := returned ▸ Option.some_ne_none _
    have stays : ¬ ∃ packet ∈ packets file (scanBlocks file).refs, ¬ ReadsInside file packet := by
      rintro ⟨packet, member, outside⟩
      exact outside (inside packet member)
    exact ⟨iff_of_false returns stays, fun faults => absurd faults returns,
      fun small escapes => absurd (escaped small escapes) stays, fun _ => ⟨text, returned, read⟩⟩

end Nanotins.Pcapng2json
