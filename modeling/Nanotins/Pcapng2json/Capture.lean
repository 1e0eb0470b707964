import Nanotins.PcapBlocks.Framing
import Nanotins.Pcapng2json.Convert

/-!
Contract: what pcapng2json prints of a pcapng capture that was written from its
contents.

Owns: sections with their interfaces and packets, and that converting inverts
writing (`toNdjson_capture`).

Does not own: legacy captures.
-/

namespace Nanotins.Pcapng2json

open Nanotins.Library Nanotins.PcapBlocks Nanotins.ProtocolDecode

/-! ### Packets -/

/-- A packet of a capture: its interface, timestamp, length before it was cut,
the link type of the interface, and the captured bytes. -/
structure PacketContent where
  interfaceId : Nat
  timestamp : Nat
  origlen : Nat
  linkType : Nat
  data : Bytes

/-- The line of the `i`-th packet. -/
def PacketLine.ofContent (i : Nat) (packet : PacketContent) : PacketLine where
  packetId := i % 2 ^ 64
  interfaceId := packet.interfaceId
  timestampRaw := packet.timestamp
  caplen := packet.data.length
  origlen := packet.origlen
  linkType := packet.linkType
  layers := (walkPacket packet.linkType packet.data).1.map Layer.ofPdu

/-- A packet that was read is the one that was written. -/
structure ReadAs (file : Bytes) (read : EpbView × Nat) (written : PacketContent) : Prop where
  interfaceId : read.1.interfaceId = written.interfaceId
  tsRaw : read.1.tsRaw = written.timestamp
  caplen : read.1.caplen = written.data.length
  origlen : read.1.origlen = written.origlen
  linkType : read.2 = written.linkType
  payload : StandsAt file read.1.payloadFileOffset written.data
  options : OptionsInside file read.1

section ReadAs

variable {file : Bytes} {read : EpbView × Nat} {written : PacketContent}

theorem ReadAs.inside (same : ReadAs file read written) : ReadsInside file read := by
  refine ⟨same.options, walkInside_of_inside ?_⟩
  rw [Inside, same.caplen]
  exact same.payload.length_le

theorem ReadAs.span_eq (same : ReadAs file read written) : span file read.1 = written.data := by
  rw [span, same.caplen, same.payload.readBytes_eq]

theorem ReadAs.ofPacket_eq (same : ReadAs file read written) (i : Nat) :
    PacketLine.ofPacket file i read = PacketLine.ofContent i written := by
  rw [PacketLine.ofPacket, PacketLine.ofContent, same.span_eq, same.interfaceId, same.tsRaw,
    same.caplen, same.origlen, same.linkType]

theorem mapIdx_eq_of_forall₂ {α β γ : Type} {related : α → β → Prop} {left : List α} {right : List β}
    (lists : List.Forall₂ related left right) {f : Nat → α → γ} {g : Nat → β → γ}
    (each : ∀ i a b, related a b → f i a = g i b) : left.mapIdx f = right.mapIdx g := by
  induction lists generalizing f g with
  | nil => rfl
  | cons head _ inductionHypothesis =>
      rw [List.mapIdx_cons, List.mapIdx_cons, each 0 _ _ head,
        inductionHypothesis fun i => each (i + 1)]

/-- A capture whose packets are those that were written is printed as they are. -/
theorem toNdjson_of_readAs {packets : List PacketContent}
    (accepted : (scanBlocks file).error = none)
    (read : List.Forall₂ (ReadAs file) (Pcapng2json.packets file (scanBlocks file).refs) packets) :
    ∃ text, toNdjson file = some (.ok text) ∧
      readNdjson text = some (packets.mapIdx PacketLine.ofContent) := by
  have both := List.Forall₂.imp (fun _ _ same => And.intro (ReadAs.inside same) same) read
  obtain ⟨inside, -⟩ := (List.forall₂_and_left _ _).mp both
  obtain ⟨text, returned, printed⟩ := toNdjson_of_inside accepted inside
  refine ⟨text, returned, printed.trans (congrArg some ?_)⟩
  exact mapIdx_eq_of_forall₂ read fun i _ _ same => same.ofPacket_eq i

end ReadAs

/-! ### Contents -/

/-- A block of a section behind its SHB. -/
inductive SectionBlock where
  | interface (idb : IdbContent) (aligned : idb.options.size % 4 = 0)
  | packet (epb : EpbContent) (aligned : epb.options.size % 4 = 0)
  | other (block : PcapngBlock)
      (skipped : classifyBlockType block.type = .simplePacket ∨
        classifyBlockType block.type = .other)

namespace SectionBlock

def wire (le : Bool) : SectionBlock → PcapngBlock
  | interface idb aligned =>
      ⟨kBlockTypeIdb, idb.body le, by decide, by
        have := idb.total_lt
        rw [idb.length_body, roundUp4]
        omega⟩
  | packet epb aligned =>
      ⟨kBlockTypeEpb, epb.body le, by decide, by
        have := epb.total_lt
        rw [epb.length_body, roundUp4]
        rw [roundUp4] at this ⊢
        omega⟩
  | other block _ => block

theorem wire_ne_shb (le : Bool) (block : SectionBlock) : (block.wire le).type ≠ kBlockTypeShb := by
  cases block with
  | interface idb aligned => exact (by decide : kBlockTypeIdb ≠ kBlockTypeShb)
  | packet epb aligned => exact (by decide : kBlockTypeEpb ≠ kBlockTypeShb)
  | other block skipped =>
      intro shb
      change block.type = kBlockTypeShb at shb
      rw [shb] at skipped
      exact absurd skipped (by decide)

end SectionBlock

/-- A section: its byte order, the SHB body behind the byte-order magic, and the
other blocks. -/
structure CaptureSection where
  littleEndian : Bool
  shbRest : Bytes
  blocks : List SectionBlock
  shb_total_lt : 12 + roundUp4 (4 + shbRest.length) < 2 ^ 32

def CaptureSection.wire (sec : CaptureSection) : PcapngSection where
  littleEndian := sec.littleEndian
  shbRest := sec.shbRest
  blocks := sec.blocks.map (SectionBlock.wire sec.littleEndian)
  shb_total_lt := sec.shb_total_lt
  not_shb := List.forall_mem_map.mpr fun block _ => block.wire_ne_shb sec.littleEndian

/-- The capture on disk. -/
def encodeCapture (sections : List CaptureSection) : Bytes :=
  buildPcapng (sections.map CaptureSection.wire)

/-- The link types that a block adds to the interface table. -/
def SectionBlock.linkTypes : SectionBlock → List Nat
  | interface idb _ => [idb.linkType]
  | _ => []

/-- The packets of a block, each with the link type of its interface. -/
def SectionBlock.packets (linkTypes : List Nat) : SectionBlock → List PacketContent
  | packet epb _ =>
      [⟨epb.interfaceId, epb.timestamp, epb.origlen, linkTypes.getD epb.interfaceId 0, epb.data⟩]
  | _ => []

/-- The packets of a section.  An interface counts from its block on. -/
def sectionPackets (linkTypes : List Nat) : List SectionBlock → List PacketContent
  | [] => []
  | block :: blocks =>
      block.packets linkTypes ++ sectionPackets (linkTypes ++ block.linkTypes) blocks

def capturePackets (sections : List CaptureSection) : List PacketContent :=
  sections.flatMap fun sec => sectionPackets [] sec.blocks

section Blocks

variable {file : Bytes} {pos : Nat} {le : Bool}

theorem padBytes_of_aligned {bytes : Bytes} (aligned : bytes.length % 4 = 0) :
    padBytes bytes = bytes := by
  have same : roundUp4 bytes.length = bytes.length := by
    rw [roundUp4]
    omega
  rw [padBytes, same, Nat.sub_self, List.replicate_zero, List.append_nil]

/-- A block whose body is a multiple of four is framed as it is. -/
theorem blockRef_of_aligned {block : PcapngBlock} (aligned : block.body.length % 4 = 0)
    (stands : StandsAt file pos (appendBlock le block)) :
    blockRef le pos block = frameRef le pos block.type block.body ∧
      StandsAt file pos (frameBlock le block.type block.body) := by
  have padded := padBytes_of_aligned aligned
  rw [appendBlock, padded] at stands
  rw [blockRef, padded]
  exact ⟨rfl, stands⟩

/-- The options of a packet that was written stand in the file. -/
theorem optionsInside_epb {epb : EpbContent} {view : EpbView}
    (framed : StandsAt file pos (frameBlock le kBlockTypeEpb (epb.body le)))
    (parsed : parseEpb file (frameRef le pos kBlockTypeEpb (epb.body le)) = some view)
    (content : epb.ParsedAs le file view) : OptionsInside file view := by
  have whole := framed.length_le
  have total := epb.total_lt
  have length := epb.length_frameRef le pos
  rw [length_frameBlock, epb.length_body] at whole
  have claimed : epbCaplen file (frameRef le pos kBlockTypeEpb (epb.body le)) =
      epb.data.length := by
    obtain ⟨-, -, caplen, -, -⟩ := parseEpb_epb (by decide : Kind.epb = .epb) parsed
    rw [← caplen, content.caplen]
  have inside : pos + (frameRef le pos kBlockTypeEpb (epb.body le)).length ≤ file.length := by
    omega
  refine optionsInside_of_stays inside (by omega) parsed fun escapes => ?_
  have above := escapes.above
  rw [claimed] at above
  unfold roundUp4 at total
  omega

/-- An IDB extends the interface table by its link type. -/
theorem packets_interface (before : List BlockRef) (idb : IdbContent)
    (stands : StandsAt file pos (frameBlock le kBlockTypeIdb (idb.body le))) :
    interfaces file (before ++ [frameRef le pos kBlockTypeIdb (idb.body le)]) =
        interfaces file before ++ [idb.linkType] ∧
      packetAt file before (frameRef le pos kBlockTypeIdb (idb.body le)) = none := by
  obtain ⟨view, parsed, content⟩ := parseIdb_encode stands
  have behind : (frameRef le pos kBlockTypeIdb (idb.body le)).kind ≠ .shb :=
    (by decide : Kind.idb ≠ .shb)
  have noPacket : parseEpb file (frameRef le pos kBlockTypeIdb (idb.body le)) = none :=
    parseEpb_of_other (by decide : Kind.idb ≠ .epb) (by decide : Kind.idb ≠ .pcapRecord)
  refine ⟨?_, packetAt_of_no_packet noPacket⟩
  rw [interfaces_concat behind, parsed, Option.map_some, Option.toList_some, content.linkType]

/-- An EPB is read as its packet was written. -/
theorem packets_packet (before : List BlockRef) (epb : EpbContent)
    (stands : StandsAt file pos (frameBlock le kBlockTypeEpb (epb.body le))) :
    interfaces file (before ++ [frameRef le pos kBlockTypeEpb (epb.body le)]) =
        interfaces file before ∧
      ∃ view, packetAt file before (frameRef le pos kBlockTypeEpb (epb.body le)) = some view ∧
        ReadAs file view ⟨epb.interfaceId, epb.timestamp, epb.origlen,
          (interfaces file before).getD epb.interfaceId 0, epb.data⟩ := by
  obtain ⟨view, parsed, content⟩ := parseEpb_encode stands
  refine ⟨interfaces_of_packet parsed, _, packetAt_of_packet parsed, content.interfaceId,
    content.tsRaw, content.caplen, content.origlen, ?_, content.payload,
    optionsInside_epb stands parsed content⟩
  rw [content.interfaceId]

/-- The tool skips a block of any other type. -/
theorem packets_other (before : List BlockRef) (block : PcapngBlock)
    (skipped : classifyBlockType block.type = .simplePacket ∨
      classifyBlockType block.type = .other) :
    interfaces file (before ++ [blockRef le pos block]) = interfaces file before ∧
      packetAt file before (blockRef le pos block) = none := by
  have differs : ∀ kind, kind ≠ .simplePacket → kind ≠ .other →
      (blockRef le pos block).kind ≠ kind := by
    intro kind notSimple notOther same
    change classifyBlockType block.type = kind at same
    rw [same] at skipped
    exact skipped.elim notSimple notOther
  have noPacket : parseEpb file (blockRef le pos block) = none :=
    parseEpb_of_other (differs _ (by decide) (by decide)) (differs _ (by decide) (by decide))
  refine ⟨?_, packetAt_of_no_packet noPacket⟩
  rw [interfaces_concat (differs _ (by decide) (by decide)),
    parseIdb_of_other (differs _ (by decide) (by decide)), Option.map_none, Option.toList_none,
    List.append_nil]

/-- One more block extends the interface table and the packets by its own. -/
theorem packets_block (before : List BlockRef) (block : SectionBlock)
    (stands : StandsAt file pos (appendBlock le (block.wire le))) :
    interfaces file (before ++ [blockRef le pos (block.wire le)]) =
        interfaces file before ++ block.linkTypes ∧
      List.Forall₂ (ReadAs file) (packetAt file before (blockRef le pos (block.wire le))).toList
        (block.packets (interfaces file before)) := by
  cases block with
  | interface idb aligned =>
      obtain ⟨ref, framed⟩ := blockRef_of_aligned (by
        show (idb.body le).length % 4 = 0
        rw [idb.length_body]
        omega) stands
      obtain ⟨table, none⟩ := packets_interface before idb framed
      rw [ref]
      refine ⟨table, ?_⟩
      show List.Forall₂ _ (packetAt file before (frameRef le pos kBlockTypeIdb (idb.body le))).toList []
      rw [none]
      exact .nil
  | packet epb aligned =>
      obtain ⟨ref, framed⟩ := blockRef_of_aligned (by
        have padded := epb.padded
        show (epb.body le).length % 4 = 0
        rw [epb.length_body, roundUp4]
        omega) stands
      obtain ⟨table, view, found, read⟩ := packets_packet before epb framed
      rw [ref]
      refine ⟨table.trans (List.append_nil _).symm, ?_⟩
      show List.Forall₂ _ (packetAt file before (frameRef le pos kBlockTypeEpb (epb.body le))).toList _
      rw [found]
      exact .cons read .nil
  | other block skipped =>
      obtain ⟨table, none⟩ := packets_other before block skipped
      refine ⟨table.trans (List.append_nil _).symm, ?_⟩
      show List.Forall₂ _ (packetAt file before (blockRef le pos block)).toList []
      rw [none]
      exact .nil

theorem packets_blocks (before : List BlockRef) (blocks : List SectionBlock)
    (stands : StandsAt file pos ((blocks.map (SectionBlock.wire le)).flatMap (appendBlock le))) :
    ∃ views, packets file (before ++ blockRefs le pos (blocks.map (SectionBlock.wire le))) =
        packets file before ++ views ∧
      List.Forall₂ (ReadAs file) views (sectionPackets (interfaces file before) blocks) := by
  induction blocks generalizing before pos with
  | nil => exact ⟨[], by rw [List.map_nil, blockRefs, List.append_nil, List.append_nil], .nil⟩
  | cons block blocks inductionHypothesis =>
      rw [List.map_cons, List.flatMap_cons] at stands
      obtain ⟨table, here⟩ := packets_block before block stands.left
      obtain ⟨views, later, read⟩ :=
        inductionHypothesis (before ++ [blockRef le pos (block.wire le)]) stands.right
      refine ⟨(packetAt file before (blockRef le pos (block.wire le))).toList ++ views, ?_, ?_⟩
      · rw [List.map_cons, blockRefs, List.append_cons, later, packets_concat, List.append_assoc]
      · rw [table] at read
        rw [sectionPackets]
        exact List.rel_append here read

/-- The packets of the sections are those that were written. -/
theorem packets_sections (before : List BlockRef) (sections : List CaptureSection)
    (stands : StandsAt file pos (encodeCapture sections)) :
    ∃ views, packets file (before ++ sectionRefs pos (sections.map CaptureSection.wire)) =
        packets file before ++ views ∧
      List.Forall₂ (ReadAs file) views (capturePackets sections) := by
  induction sections generalizing before pos with
  | nil => exact ⟨[], by rw [List.map_nil, sectionRefs, List.append_nil, List.append_nil], .nil⟩
  | cons sec sections inductionHypothesis =>
      rw [encodeCapture, List.map_cons, buildPcapng, List.flatMap_cons] at stands
      have own := stands.left
      rw [PcapngSection.encode, List.flatMap_cons] at own
      have shb : (blockRef sec.littleEndian pos sec.wire.shb).kind = .shb :=
        (by decide : classifyBlockType kBlockTypeShb = .shb)
      have noPacket : parseEpb file (blockRef sec.littleEndian pos sec.wire.shb) = none :=
        parseEpb_of_other (by rw [shb]; decide) (by rw [shb]; decide)
      obtain ⟨first, blocks, readFirst⟩ := packets_blocks
        (before ++ [blockRef sec.littleEndian pos sec.wire.shb]) sec.blocks own.right
      rw [packets_of_no_packet noPacket] at blocks
      rw [interfaces_shb shb] at readFirst
      obtain ⟨later, others, readLater⟩ := inductionHypothesis
        (before ++ blockRefs sec.littleEndian pos (sec.wire.shb :: sec.wire.blocks)) stands.right
      refine ⟨first ++ later, ?_, List.rel_append readFirst readLater⟩
      rw [List.map_cons, sectionRefs, ← List.append_assoc]
      refine others.trans ?_
      rw [blockRefs, List.append_cons]
      exact (congrArg (· ++ later) blocks).trans (List.append_assoc _ _ _)

end Blocks

/-! ### The capture -/

/-- The scan takes every block of a capture. -/
theorem scan_sections (first : PcapngSection) (later : List PcapngSection) :
    (scanBlocks (buildPcapng (first :: later))).error = none ∧
      (scanBlocks (buildPcapng (first :: later))).refs = sectionRefs 0 (first :: later) := by
  have fresh : (⟨true, true, true, 0⟩ : ScanState).started = true := rfl
  obtain ⟨last, scan⟩ := run_sections fresh rfl (first :: later)
  have started : last.started = true := by
    have still := run_started fresh (buildPcapng (first :: later))
    rwa [scan] at still
  have front : StandsAt (buildPcapng (first :: later)) 0
      (appendBlock first.littleEndian first.shb) := ⟨[], _, List.append_assoc .., rfl⟩
  have long := front.length_le
  rw [length_appendBlock, PcapngBlock.total] at long
  have detected : blockScanner.step {} (buildPcapng (first :: later)) =
      .emit [] 0 ⟨true, true, true, 0⟩ := by
    rw [step_of_fresh rfl, detectStep, if_neg (by omega)]
    exact if_pos ((rd32_eq_shb_iff _ 0 first.littleEndian).mp (rd32_appendBlock_type front))
  have run : blockScanner.run {} (buildPcapng (first :: later)) =
      ⟨sectionRefs 0 (first :: later), (buildPcapng (first :: later)).length, last, none⟩ := by
    rw [Scanner.run_of_emit detected, List.drop_zero, Scan.after_nil_zero, scan]
  rw [scanBlocks, scanWindow_eq, run, reportScan]
  refine ⟨?_, rfl⟩
  rw [if_pos rfl, List.drop_length, eofError, started]
  rfl

/-- Converting inverts writing: of a capture of at least one section, in any
byte orders, with any options and any other blocks in between, one line is
printed for each packet, in order, and the line reads back to the packet's
number, interface, timestamp and lengths, the link type of its interface in its
own section, and the layers that the walk finds in its data. -/
theorem toNdjson_capture (first : CaptureSection) (later : List CaptureSection) :
    ∃ text, toNdjson (encodeCapture (first :: later)) = some (.ok text) ∧
      readNdjson text = some ((capturePackets (first :: later)).mapIdx PacketLine.ofContent) := by
  have stands : StandsAt (encodeCapture (first :: later)) 0 (encodeCapture (first :: later)) :=
    ⟨[], [], (List.append_nil _).symm, rfl⟩
  obtain ⟨accepted, refs⟩ := scan_sections first.wire (later.map CaptureSection.wire)
  obtain ⟨views, whole, read⟩ := packets_sections [] (first :: later) stands
  apply toNdjson_of_readAs accepted
  rw [List.nil_append, List.map_cons, ← refs] at whole
  exact (congrArg (List.Forall₂ _ · _) whole).mpr read

end Nanotins.Pcapng2json
