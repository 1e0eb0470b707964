import Nanotins.Library.ByteWriter
import Nanotins.PcapBlocks.PacketBlocks
import Nanotins.PcapBlocks.Tiling

/-!
Contract: scanning inverts the framing of pcapng blocks.

Owns: the framing of a block and of a file of sections, the references such a
file should give, and that `scanBlocks` returns exactly these
(`scanBlocks_buildPcapng`).

Does not own: the layout of block bodies.
-/

namespace Nanotins.PcapBlocks

open Nanotins.Library

/-! ### Words in either byte order -/

/-- `n` bytes of `value` in the byte order `le`. -/
def wordBytes (le : Bool) (n value : Nat) : Bytes :=
  if le then littleBytes n value else bigBytes n value

def u16 (le : Bool) (value : Nat) : Bytes := wordBytes le 2 value

def u32 (le : Bool) (value : Nat) : Bytes := wordBytes le 4 value

def u64 (le : Bool) (value : Nat) : Bytes := wordBytes le 8 value

@[simp] theorem length_wordBytes (le : Bool) (n value : Nat) :
    (wordBytes le n value).length = n := by
  cases le
  · exact length_bigBytes n value
  · exact length_littleBytes n value

@[simp] theorem length_u16 (le : Bool) (value : Nat) : (u16 le value).length = 2 :=
  length_wordBytes le 2 value

@[simp] theorem length_u32 (le : Bool) (value : Nat) : (u32 le value).length = 4 :=
  length_wordBytes le 4 value

@[simp] theorem length_u64 (le : Bool) (value : Nat) : (u64 le value).length = 8 :=
  length_wordBytes le 8 value

section Words

variable {file : Bytes} {off value : Nat} {le : Bool}

theorem rd16_of_standsAt (stands : StandsAt file off (u16 le value)) (bounded : value < 2 ^ 16) :
    rd16 file off le = value := by
  have fits : value % 256 ^ 2 = value := Nat.mod_eq_of_lt bounded
  cases le
  · exact stands.readBig_eq.trans fits
  · exact stands.readLittle_eq.trans fits

theorem rd32_of_standsAt (stands : StandsAt file off (u32 le value)) (bounded : value < 2 ^ 32) :
    rd32 file off le = value := by
  have fits : value % 256 ^ 4 = value := Nat.mod_eq_of_lt bounded
  cases le
  · exact stands.readBig_eq.trans fits
  · exact stands.readLittle_eq.trans fits

end Words

/-! ### Blocks -/

/-- A block around `body`: type, total length, body, total length. -/
def frameBlock (le : Bool) (type : Nat) (body : Bytes) : Bytes :=
  u32 le type ++ (u32 le (12 + body.length) ++ (body ++ u32 le (12 + body.length)))

theorem length_frameBlock (le : Bool) (type : Nat) (body : Bytes) :
    (frameBlock le type body).length = 12 + body.length := by
  simp only [frameBlock, List.length_append, length_u32]
  omega

/-- The reference to a block framed at `pos`. -/
def frameRef (le : Bool) (pos type : Nat) (body : Bytes) : BlockRef :=
  ⟨pos, (frameBlock le type body).length, type, classifyBlockType type, le⟩

@[simp] theorem length_frameRef (le : Bool) (pos type : Nat) (body : Bytes) :
    (frameRef le pos type body).length = 12 + body.length :=
  length_frameBlock le type body

section Frame

variable {file : Bytes} {pos type : Nat} {le : Bool} {body : Bytes}

theorem rd32_type (stands : StandsAt file pos (frameBlock le type body)) (bounded : type < 2 ^ 32) :
    rd32 file pos le = type :=
  rd32_of_standsAt stands.left bounded

theorem rd32_total (stands : StandsAt file pos (frameBlock le type body))
    (bounded : 12 + body.length < 2 ^ 32) : rd32 file (pos + 4) le = 12 + body.length := by
  have total := stands.right.left
  rw [length_u32] at total
  exact rd32_of_standsAt total bounded

theorem standsAt_body (stands : StandsAt file pos (frameBlock le type body)) :
    StandsAt file (pos + 8) body := by
  have inner := stands.right.right.left
  rwa [length_u32, length_u32] at inner

end Frame

/-- A block: its type and its body before padding. -/
structure PcapngBlock where
  type : Nat
  body : Bytes
  type_lt : type < 2 ^ 32
  total_lt : 12 + roundUp4 body.length < 2 ^ 32

/-- `bytes` filled up with zeros to a multiple of four. -/
def padBytes (bytes : Bytes) : Bytes :=
  bytes ++ List.replicate (roundUp4 bytes.length - bytes.length) 0

theorem le_roundUp4 (n : Nat) : n ≤ roundUp4 n := by
  unfold roundUp4
  omega

@[simp] theorem length_padBytes (bytes : Bytes) : (padBytes bytes).length = roundUp4 bytes.length := by
  have := le_roundUp4 bytes.length
  simp only [padBytes, List.length_append, List.length_replicate]
  omega

/-- The total length field of a block. -/
def PcapngBlock.total (block : PcapngBlock) : Nat := 12 + roundUp4 block.body.length

/-- A block on the wire. -/
def appendBlock (le : Bool) (block : PcapngBlock) : Bytes :=
  frameBlock le block.type (padBytes block.body)

theorem length_appendBlock (le : Bool) (block : PcapngBlock) :
    (appendBlock le block).length = block.total := by
  rw [appendBlock, length_frameBlock, length_padBytes, PcapngBlock.total]

section Header

variable {file : Bytes} {pos : Nat} {le : Bool} {block : PcapngBlock}

theorem rd32_appendBlock_type (stands : StandsAt file pos (appendBlock le block)) :
    rd32 file pos le = block.type :=
  rd32_type stands block.type_lt

theorem rd32_appendBlock_total (stands : StandsAt file pos (appendBlock le block)) :
    rd32 file (pos + 4) le = block.total := by
  have bounded := block.total_lt
  rw [← length_padBytes] at bounded
  rw [rd32_total stands bounded, length_padBytes, PcapngBlock.total]

/-- A block that is no SHB is read in the current byte order. -/
theorem blockHeader_of_standsAt {st : ScanState}
    (stands : StandsAt file pos (appendBlock st.littleEndian block))
    (notShb : block.type ≠ kBlockTypeShb) :
    blockHeader st file pos = (false, block.type, block.total, st.littleEndian) := by
  have lead : rd32 file pos true ≠ kBlockTypeShb := by
    rw [Ne, ← rd32_eq_shb_iff file pos st.littleEndian, rd32_appendBlock_type stands]
    exact notShb
  have isShb : (rd32 file pos true == kBlockTypeShb) = false := beq_eq_false_iff_ne.mpr lead
  simp only [blockHeader, isShb, if_false, Bool.false_eq_true,
    rd32_appendBlock_type stands, rd32_appendBlock_total stands]

/-- The magic of a big-endian section does not read as the magic. -/
theorem rd32_magic (stands : StandsAt file pos (u32 le kPcapngByteOrderMagic)) :
    (rd32 file pos true == kPcapngByteOrderMagic) = le := by
  cases le with
  | true =>
      rw [rd32_of_standsAt stands (by decide)]
      decide
  | false =>
      have swapped : u32 false kPcapngByteOrderMagic = u32 true 0x4D3C2B1A := by decide
      rw [swapped] at stands
      rw [rd32_of_standsAt stands (by decide)]
      decide

/-- An SHB is read in its own byte order, whatever the current one is. -/
theorem blockHeader_of_shb (st : ScanState) {rest : Bytes}
    (stands : StandsAt file pos (appendBlock le block)) (shb : block.type = kBlockTypeShb)
    (body : block.body = u32 le kPcapngByteOrderMagic ++ rest) :
    blockHeader st file pos = (true, kBlockTypeShb, block.total, le) := by
  have lead : rd32 file pos true = kBlockTypeShb :=
    (rd32_eq_shb_iff file pos le).mp ((rd32_appendBlock_type stands).trans shb)
  have magic := (standsAt_body stands).left
  rw [body] at magic
  simp only [blockHeader, lead, beq_self_eq_true, if_true, rd32_magic magic.left,
    rd32_appendBlock_total stands]

end Header

/-! ### Sections -/

/-- A section: its byte order, the SHB body behind the byte-order magic, and the
other blocks. -/
structure PcapngSection where
  littleEndian : Bool
  shbRest : Bytes
  blocks : List PcapngBlock
  shb_total_lt : 12 + roundUp4 (4 + shbRest.length) < 2 ^ 32
  not_shb : ∀ block ∈ blocks, block.type ≠ kBlockTypeShb

namespace PcapngSection

variable (sec : PcapngSection)

def shb : PcapngBlock where
  type := kBlockTypeShb
  body := u32 sec.littleEndian kPcapngByteOrderMagic ++ sec.shbRest
  type_lt := by decide
  total_lt := by
    rw [List.length_append, length_u32]
    exact sec.shb_total_lt

def encode : Bytes := (sec.shb :: sec.blocks).flatMap (appendBlock sec.littleEndian)

end PcapngSection

def buildPcapng (sections : List PcapngSection) : Bytes := sections.flatMap PcapngSection.encode

def blockRef (le : Bool) (pos : Nat) (block : PcapngBlock) : BlockRef :=
  frameRef le pos block.type (padBytes block.body)

/-- One reference for each block of a run of blocks framed from `pos` on. -/
def blockRefs (le : Bool) : Nat → List PcapngBlock → List BlockRef
  | _, [] => []
  | pos, block :: blocks =>
      blockRef le pos block :: blockRefs le (pos + (appendBlock le block).length) blocks

/-- The references of a file of sections framed from `pos` on. -/
def sectionRefs : Nat → List PcapngSection → List BlockRef
  | _, [] => []
  | pos, sec :: sections =>
      blockRefs sec.littleEndian pos (sec.shb :: sec.blocks) ++
        sectionRefs (pos + sec.encode.length) sections

theorem map_vadd_blockRefs (le : Bool) (n pos : Nat) (blocks : List PcapngBlock) :
    (blockRefs le pos blocks).map (n +ᵥ ·) = blockRefs le (n + pos) blocks := by
  induction blocks generalizing pos with
  | nil => rfl
  | cons block blocks inductionHypothesis =>
      rw [blockRefs, List.map_cons, inductionHypothesis, ← Nat.add_assoc]
      rfl

theorem map_vadd_sectionRefs (n pos : Nat) (sections : List PcapngSection) :
    (sectionRefs pos sections).map (n +ᵥ ·) = sectionRefs (n + pos) sections := by
  induction sections generalizing pos with
  | nil => rfl
  | cons sec sections inductionHypothesis =>
      rw [sectionRefs, List.map_append, map_vadd_blockRefs, inductionHypothesis, ← Nat.add_assoc]
      rfl

/-! ### The scan -/

section Run

variable {st : ScanState} {le : Bool} {block : PcapngBlock}

/-- The scanner takes a framed block whose header reads as it was written. -/
theorem step_appendBlock (started : st.started = true) (isPcapng : st.isPcapng = true)
    (rest : Bytes) {isShb : Bool}
    (header : blockHeader st (appendBlock le block ++ rest) 0 =
      (isShb, block.type, block.total, le)) :
    blockScanner.step st (appendBlock le block ++ rest) =
      .emit [blockRef le 0 block] (appendBlock le block).length (commitByteOrder st isShb le) := by
  have total := length_appendBlock le block
  have long : 12 ≤ block.total := Nat.le_add_right 12 _
  have inside : (appendBlock le block).length ≤ (appendBlock le block ++ rest).length := by simp
  rw [step_of_pcapng started isPcapng, blockStep, header, if_neg (by omega)]
  dsimp only
  rw [if_neg (by omega), if_neg (by omega), ← total]
  rfl

/-- The run over the blocks of a section behind its SHB. -/
theorem run_blocks (st : ScanState) (started : st.started = true) (isPcapng : st.isPcapng = true)
    {blocks : List PcapngBlock} (notShb : ∀ block ∈ blocks, block.type ≠ kBlockTypeShb)
    (rest : Bytes) :
    let framed := blocks.flatMap (appendBlock st.littleEndian)
    blockScanner.run st (framed ++ rest) =
      (blockScanner.run st rest).after (blockRefs st.littleEndian 0 blocks) framed.length := by
  induction blocks with
  | nil => simp [blockRefs]
  | cons block blocks inductionHypothesis =>
      have tail := inductionHypothesis fun later member => notShb later (by simp [member])
      have stands : StandsAt (appendBlock st.littleEndian block ++
          (blocks.flatMap (appendBlock st.littleEndian) ++ rest)) 0
          (appendBlock st.littleEndian block) := ⟨[], _, rfl, rfl⟩
      have covered := step_appendBlock started isPcapng _
        (blockHeader_of_standsAt stands (notShb block (by simp)))
      dsimp only at tail ⊢
      rw [List.flatMap_cons, List.append_assoc, Scanner.run_of_emit covered, List.drop_left]
      show (blockScanner.run st _).after _ _ = _
      rw [tail, Scan.after_after, List.length_append, blockRefs, map_vadd_blockRefs]
      simp

/-- The run over a section sets the byte order and takes every block. -/
theorem run_section (started : st.started = true) (isPcapng : st.isPcapng = true)
    (sec : PcapngSection) (rest : Bytes) :
    blockScanner.run st (sec.encode ++ rest) =
      (blockScanner.run { st with littleEndian := sec.littleEndian } rest).after
        (blockRefs sec.littleEndian 0 (sec.shb :: sec.blocks)) sec.encode.length := by
  have stands : StandsAt (appendBlock sec.littleEndian sec.shb ++
      (sec.blocks.flatMap (appendBlock sec.littleEndian) ++ rest)) 0
      (appendBlock sec.littleEndian sec.shb) := ⟨[], _, rfl, rfl⟩
  have covered := step_appendBlock started isPcapng _ (blockHeader_of_shb st stands rfl rfl)
  have tail := run_blocks { st with littleEndian := sec.littleEndian } started isPcapng
    sec.not_shb rest
  dsimp only at tail
  rw [PcapngSection.encode, List.flatMap_cons, List.append_assoc, Scanner.run_of_emit covered,
    List.drop_left]
  show (blockScanner.run { st with littleEndian := sec.littleEndian } _).after _ _ = _
  rw [tail, Scan.after_after, List.length_append, blockRefs, map_vadd_blockRefs]
  simp

theorem run_sections (started : st.started = true) (isPcapng : st.isPcapng = true)
    (sections : List PcapngSection) :
    ∃ last, blockScanner.run st (buildPcapng sections) =
      ⟨sectionRefs 0 sections, (buildPcapng sections).length, last, none⟩ := by
  induction sections generalizing st with
  | nil =>
      have undecided : blockScanner.step st (buildPcapng []) = .more := by
        rw [step_of_pcapng started isPcapng]
        rfl
      exact ⟨st, Scanner.run_of_more undecided⟩
  | cons sec sections inductionHypothesis =>
      obtain ⟨last, tail⟩ :=
        @inductionHypothesis { st with littleEndian := sec.littleEndian } started isPcapng
      refine ⟨last, (run_section started isPcapng sec (buildPcapng sections)).trans ?_⟩
      rw [tail, Scan.after, map_vadd_sectionRefs, ← List.length_append, sectionRefs,
        Nat.zero_add, Nat.add_zero]
      rfl

end Run

/-- Scanning inverts framing: a file of at least one section is accepted, and
its references are those of its blocks, in order. -/
theorem scanBlocks_buildPcapng {sections : List PcapngSection} (nonempty : sections ≠ []) :
    (scanBlocks (buildPcapng sections)).error = none ∧
      (scanBlocks (buildPcapng sections)).refs = sectionRefs 0 sections := by
  rcases List.exists_cons_of_ne_nil nonempty with ⟨first, later, rfl⟩
  have stands : StandsAt (buildPcapng (first :: later)) 0
      (appendBlock first.littleEndian first.shb) := ⟨[], _, List.append_assoc .., rfl⟩
  have lead : rd32 (buildPcapng (first :: later)) 0 true = kBlockTypeShb :=
    (rd32_eq_shb_iff _ 0 first.littleEndian).mp (rd32_appendBlock_type stands)
  have inside := stands.length_le
  rw [length_appendBlock, PcapngBlock.total] at inside
  have covered : blockScanner.step {} (buildPcapng (first :: later)) =
      .emit [] 0 ⟨true, true, true, 0⟩ := by
    rw [step_of_fresh rfl, detectStep, if_neg (by omega)]
    exact if_pos lead
  have started : (⟨true, true, true, 0⟩ : ScanState).started = true := rfl
  have stillStarted := run_started started (buildPcapng (first :: later))
  rcases run_sections started rfl (first :: later) with ⟨last, scan⟩
  rw [scan] at stillStarted
  change last.started = true at stillStarted
  rw [scanBlocks, scanWindow_eq, Scanner.run_of_emit covered, List.drop_zero, Scan.after_nil_zero,
    scan, reportScan]
  refine ⟨?_, rfl⟩
  simp only [if_true, eofError, List.drop_length, List.length_nil, stillStarted]

/-- A big-endian section with one block whose body looks like an SHB, and a
little-endian one. -/
def mixedSections : List PcapngSection :=
  [⟨false, [0, 1], [⟨6, [0x0A, 0x0D, 0x0D, 0x0A, 7], by decide, by decide⟩], by decide, by decide⟩,
    ⟨true, [], [], by decide, by decide⟩]

theorem scanBlocks_buildPcapng_mixed :
    (scanBlocks (buildPcapng mixedSections)).error = none ∧
      (scanBlocks (buildPcapng mixedSections)).refs = sectionRefs 0 mixedSections :=
  scanBlocks_buildPcapng (by simp [mixedSections])

end Nanotins.PcapBlocks
