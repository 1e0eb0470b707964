import Nanotins.PcapBlocks.EpbColumns
import Nanotins.Pcapng2json.Capture

/-!
Contract: the packet columns of a pcapng capture that was written from its
contents.

Owns: the enhanced packet blocks that a scan of the capture emits, and that
filling the columns from them inverts writing (`parseEpbsBulk_capture`).

Does not own: the loop that fills the columns, and captures that were not written.
-/

namespace Nanotins.Pcapng2json

open Nanotins.Library Nanotins.PcapBlocks

/-- The packet blocks of a section in the byte order `le`, each with that order. -/
def SectionBlock.epbs (le : Bool) : SectionBlock → List (Bool × EpbContent)
  | packet epb _ => [(le, epb)]
  | _ => []

def CaptureSection.epbs (sec : CaptureSection) : List (Bool × EpbContent) :=
  sec.blocks.flatMap (SectionBlock.epbs sec.littleEndian)

/-- A packet block that parses to what was written. -/
def ParsesTo (file : Bytes) (ref : BlockRef) (written : Bool × EpbContent) : Prop :=
  ∃ view, parseEpb file ref = some view ∧ written.2.ParsedAs written.1 file view

section Blocks

variable {file : Bytes} {pos : Nat} {le : Bool}

theorem filter_isEpb_other {ref : BlockRef} (other : ref.kind ≠ .epb) (refs : List BlockRef) :
    (ref :: refs).filter isEpb = refs.filter isEpb :=
  List.filter_cons_of_neg fun packet => other (of_decide_eq_true packet)

/-- One more block puts in front the packet that it holds. -/
theorem parsesTo_block (block : SectionBlock)
    (stands : StandsAt file pos (appendBlock le (block.wire le))) :
    List.Forall₂ (ParsesTo file) ([blockRef le pos (block.wire le)].filter isEpb)
      (block.epbs le) := by
  cases block with
  | interface idb aligned =>
      have kind : (blockRef le pos (SectionBlock.wire le (.interface idb aligned))).kind ≠ .epb :=
        (by decide : Kind.idb ≠ .epb)
      rw [filter_isEpb_other kind]
      exact .nil
  | packet epb aligned =>
      obtain ⟨ref, framed⟩ := blockRef_of_aligned (by
        have padded := epb.padded
        show (epb.body le).length % 4 = 0
        rw [epb.length_body, roundUp4]
        omega) stands
      have packet : isEpb (frameRef le pos kBlockTypeEpb (epb.body le)) = true :=
        decide_eq_true (by decide : classifyBlockType kBlockTypeEpb = .epb)
      rw [ref]
      show List.Forall₂ _ ([frameRef le pos kBlockTypeEpb (epb.body le)].filter isEpb) [(le, epb)]
      rw [List.filter_cons_of_pos packet]
      exact .cons (parseEpb_encode framed) .nil
  | other block skipped =>
      have kind : (blockRef le pos block).kind ≠ .epb := by
        have same : (blockRef le pos block).kind = classifyBlockType block.type := rfl
        rw [same]
        rcases skipped with kind | kind <;> rw [kind] <;> decide
      show List.Forall₂ _ ([blockRef le pos block].filter isEpb) []
      rw [filter_isEpb_other kind]
      exact .nil

theorem parsesTo_blocks (blocks : List SectionBlock)
    (stands : StandsAt file pos ((blocks.map (SectionBlock.wire le)).flatMap (appendBlock le))) :
    List.Forall₂ (ParsesTo file)
      ((blockRefs le pos (blocks.map (SectionBlock.wire le))).filter isEpb)
      (blocks.flatMap (SectionBlock.epbs le)) := by
  induction blocks generalizing pos with
  | nil => exact .nil
  | cons block blocks inductionHypothesis =>
      rw [List.map_cons, List.flatMap_cons] at stands
      rw [List.map_cons, blockRefs, ← List.singleton_append, List.filter_append, List.flatMap_cons]
      exact List.rel_append (parsesTo_block block stands.left) (inductionHypothesis stands.right)

theorem parsesTo_sections (sections : List CaptureSection)
    (stands : StandsAt file pos (encodeCapture sections)) :
    List.Forall₂ (ParsesTo file)
      ((sectionRefs pos (sections.map CaptureSection.wire)).filter isEpb)
      (sections.flatMap CaptureSection.epbs) := by
  induction sections generalizing pos with
  | nil => exact .nil
  | cons sec sections inductionHypothesis =>
      rw [encodeCapture, List.map_cons, buildPcapng, List.flatMap_cons] at stands
      have own := stands.left
      rw [PcapngSection.encode, List.flatMap_cons] at own
      have shb : (blockRef sec.wire.littleEndian pos sec.wire.shb).kind ≠ .epb :=
        (by decide : classifyBlockType kBlockTypeShb ≠ .epb)
      rw [List.map_cons, sectionRefs, List.filter_append, blockRefs, filter_isEpb_other shb,
        List.flatMap_cons]
      exact List.rel_append (parsesTo_blocks sec.blocks own.right)
        (inductionHypothesis stands.right)

end Blocks

/-- Blocks that parse to what was written have views of it. -/
theorem views_of_parsesTo {file : Bytes} {refs : List BlockRef}
    {written : List (Bool × EpbContent)} (parses : List.Forall₂ (ParsesTo file) refs written) :
    ∃ views, refs.map (parseEpb file) = views.map some ∧
      List.Forall₂ (fun view epb => epb.2.ParsedAs epb.1 file view) views written := by
  induction parses with
  | nil => exact ⟨[], rfl, .nil⟩
  | cons head _ inductionHypothesis =>
      obtain ⟨view, parsed, content⟩ := head
      obtain ⟨views, all, contents⟩ := inductionHypothesis
      refine ⟨view :: views, ?_, .cons content contents⟩
      rw [List.map_cons, List.map_cons, parsed, all]

/-- Filling columns inverts writing: of a capture of at least one section, in any
byte orders and with any other blocks in between, the columns of the scanned
packet blocks hold one row for each packet, in order, with its interface,
timestamp, lengths, the place of its data in the file and its `epb_flags`; the
loop succeeds, and the rows behind are left as they were. -/
theorem parseEpbsBulk_capture (first : CaptureSection) (later : List CaptureSection)
    (out : EpbColumns) (sized : out.Sized)
    (room : ((first :: later).flatMap CaptureSection.epbs).length ≤ out.count) :
    let file := encodeCapture (first :: later)
    ∃ views, parseEpbsBulk file (scannedEpbs file) out = (out.overwrite views, none) ∧
      List.Forall₂ (fun view epb => epb.2.ParsedAs epb.1 file view) views
        ((first :: later).flatMap CaptureSection.epbs) := by
  intro file
  have stands : StandsAt file 0 (encodeCapture (first :: later)) :=
    ⟨[], [], (List.append_nil _).symm, rfl⟩
  obtain ⟨-, refs⟩ := scan_sections first.wire (later.map CaptureSection.wire)
  have parses := parsesTo_sections (first :: later) stands
  rw [List.map_cons, ← refs] at parses
  have scanned : List.Forall₂ (ParsesTo file) (scannedEpbs file)
      ((first :: later).flatMap CaptureSection.epbs) := parses
  obtain ⟨views, all, contents⟩ := views_of_parsesTo scanned
  have length := contents.length_eq
  have count : (scannedEpbs file).length = views.length := by
    have same := congrArg List.length all
    rwa [List.length_map, List.length_map] at same
  refine ⟨views, ?_, contents⟩
  rw [parseEpbsBulk_of_room sized (by omega), parsedPrefix_of_all all, if_pos count.symm]

/-- A big-endian section with an interface and a packet, and a little-endian one of
two packets with a skipped block between them, the second with `epb_flags`. -/
theorem parseEpbsBulk_capture_two :
    ∃ (big little : CaptureSection) (one two three : EpbView),
      let out : EpbColumns := ⟨fun _ => [7, 7, 7, 7], 4⟩
      let file := encodeCapture [big, little]
      parseEpbsBulk file (scannedEpbs file) out = (out.overwrite [one, two, three], none) ∧
        [one.tsRaw, two.tsRaw, three.tsRaw] = [5, 6, 2 ^ 32] ∧
        [one.epbFlags, two.epbFlags, three.epbFlags] = [0, 0, 2] ∧
        StandsAt file one.payloadFileOffset [1, 2, 3] ∧
        StandsAt file two.payloadFileOffset [] ∧
        StandsAt file three.payloadFileOffset [4, 5, 6, 7] := by
  let flagsOption : WireOption := ⟨2, [2, 0, 0, 0], [], by decide, by decide, by decide, by decide⟩
  let idb : IdbContent := ⟨1, 0, 65535, ⟨[], .blockEnd⟩, by decide, by decide, by decide⟩
  let first : EpbContent :=
    ⟨0, 5, 60, [1, 2, 3], [0], ⟨[], .blockEnd⟩, by decide, by decide, by decide, by decide,
      by decide⟩
  let second : EpbContent :=
    ⟨0, 6, 64, [], [], ⟨[], .blockEnd⟩, by decide, by decide, by decide, by decide, by decide⟩
  let third : EpbContent :=
    ⟨1, 2 ^ 32, 4, [4, 5, 6, 7], [], ⟨[flagsOption], .endOfOpt []⟩, by decide, by decide, by decide,
      by decide, by decide⟩
  let skipped : PcapngBlock := ⟨5, [1, 2, 3, 4], by decide, by decide⟩
  let big : CaptureSection :=
    ⟨false, [], [.interface idb (by decide), .packet first (by decide)], by decide⟩
  let little : CaptureSection :=
    ⟨true, [1, 0, 0, 0], [.packet second (by decide), .other skipped (by decide),
      .packet third (by decide)], by decide⟩
  obtain ⟨views, filled, contents⟩ :=
    parseEpbsBulk_capture big [little] ⟨fun _ => [7, 7, 7, 7], 4⟩ (fun _ => rfl) (by decide)
  cases contents with
  | cons content contents =>
    cases contents with
    | cons content' contents =>
      cases contents with
      | cons content'' contents =>
        cases contents
        refine ⟨big, little, _, _, _, filled, ?_, ?_, content.payload, content'.payload,
          content''.payload⟩
        · rw [content.tsRaw, content'.tsRaw, content''.tsRaw]
        · rw [content.epbFlags, content'.epbFlags, content''.epbFlags]
          decide

end Nanotins.Pcapng2json
