import Nanotins.PcapBlocks.Streaming

/-!
Contract: the references of a scan partition the scanned bytes.

Owns: tilings of a file by block references, the byte order of the nearest
section header, the scan invariant behind both, and what an accepted and a
truncated capture leave (`scanBlocks_tiling`).

Does not own: what the blocks contain.
-/

namespace Nanotins.PcapBlocks

open Nanotins.Library

/-! ### Tilings -/

/-- The references cover the bytes from the first position up to the last one,
each starting where the one before ends. -/
inductive Tiles : Nat → List BlockRef → Nat → Prop where
  | nil {pos : Nat} : Tiles pos [] pos
  | cons {ref : BlockRef} {refs : List BlockRef} {stop : Nat}
      (rest : Tiles (ref.fileOffset + ref.length) refs stop) :
      Tiles ref.fileOffset (ref :: refs) stop

theorem Tiles.eq_of_nil {start stop : Nat} (tiles : Tiles start [] stop) : start = stop := by
  cases tiles
  rfl

theorem Tiles.concat {start : Nat} {refs : List BlockRef} {ref : BlockRef}
    (tiles : Tiles start refs ref.fileOffset) :
    Tiles start (refs ++ [ref]) (ref.fileOffset + ref.length) := by
  generalize stop : ref.fileOffset = pos at tiles
  induction tiles with
  | nil => exact stop ▸ .cons .nil
  | cons _ inductionHypothesis => exact .cons (inductionHypothesis stop)

/-- The first four bytes are the SHB block type. -/
def IsPcapngFile (file : Bytes) : Prop := rd32 file 0 true = kBlockTypeShb

instance (file : Bytes) : Decidable (IsPcapngFile file) :=
  inferInstanceAs (Decidable (_ = _))

/-- The nearest SHB at the end of `refs` has a magic that reads as `le`. -/
def SectionOrder (file : Bytes) (refs : List BlockRef) (le : Bool) : Prop :=
  ∃ earlier shb later, refs = earlier ++ shb :: later ∧ shb.kind = .shb ∧
    (∀ ref ∈ later, ref.kind ≠ .shb) ∧
    (le = true ↔ rd32 file (shb.fileOffset + 8) true = kPcapngByteOrderMagic)

/-- The byte order of the block at `pos` behind `refs`: an SHB has its own. -/
def HeaderOrder (file : Bytes) (refs : List BlockRef) (pos : Nat) (le : Bool) : Prop :=
  if rd32 file pos true = kBlockTypeShb then
    (le = true ↔ rd32 file (pos + 8) true = kPcapngByteOrderMagic)
  else SectionOrder file refs le

/-- The least length of a reference: 12 for a pcapng block, 16 for a record and
24 for the synthetic IDB of a legacy capture. -/
def minLength (file : Bytes) (ref : BlockRef) : Nat :=
  if IsPcapngFile file then 12 else if ref.kind = .pcapRecord then 16 else 24

/-- `refs` tile the first `stop` bytes of the file. -/
structure Tiling (file : Bytes) (refs : List BlockRef) (stop : Nat) : Prop where
  tiles : Tiles 0 refs stop
  lengths : ∀ ref ∈ refs, minLength file ref ≤ ref.length
  orders : IsPcapngFile file → ∀ earlier ref later, refs = earlier ++ ref :: later →
    SectionOrder file (earlier ++ [ref]) ref.littleEndian

theorem Tiling.concat {file : Bytes} {refs : List BlockRef} (ref : BlockRef)
    (tiling : Tiling file refs ref.fileOffset) (long : minLength file ref ≤ ref.length)
    (order : IsPcapngFile file → SectionOrder file (refs ++ [ref]) ref.littleEndian) :
    Tiling file (refs ++ [ref]) (ref.fileOffset + ref.length) where
  tiles := tiling.tiles.concat
  lengths := by
    intro other member
    rcases List.mem_append.mp member with before | last
    · exact tiling.lengths other before
    · rw [List.mem_singleton.mp last]
      exact long
  orders := by
    intro pcapng earlier other later split
    rcases List.eq_nil_or_concat later with rfl | ⟨middle, last, rfl⟩
    · rcases List.append_inj' split rfl with ⟨rfl, same⟩
      cases same
      exact order pcapng
    · rw [List.concat_eq_append, ← List.cons_append, ← List.append_assoc] at split
      rcases List.append_inj' split rfl with ⟨before, -⟩
      exact tiling.orders pcapng earlier other middle before

/-- The bytes behind `stop` are too few for a block header, or begin a block
whose declared length exceeds them. -/
def Unfinished (file : Bytes) (refs : List BlockRef) (stop : Nat) : Prop :=
  if IsPcapngFile file then
    file.length - stop < 12 ∨
      ∃ le, HeaderOrder file refs stop le ∧ file.length - stop < rd32 file (stop + 4) le
  else
    file.length - stop < 16 ∨
      file.length - stop < 16 + rd32 file (stop + 8) (isPcapMagicLe (rd32 file 0 true))

/-! ### Block types -/

theorem rd32_big (file : Bytes) (off : Nat) :
    rd32 file off false =
      (((byteAt file off).toNat * 256 + (byteAt file (off + 1)).toNat) * 256 +
        (byteAt file (off + 2)).toNat) * 256 + (byteAt file (off + 3)).toNat := by
  show readBig file off 4 = _
  simp only [readBig_succ, readBig_zero, Nat.zero_mul, Nat.zero_add, Nat.add_zero]

theorem rd32_little (file : Bytes) (off : Nat) :
    rd32 file off true =
      (((byteAt file (off + 3)).toNat * 256 + (byteAt file (off + 2)).toNat) * 256 +
        (byteAt file (off + 1)).toNat) * 256 + (byteAt file off).toNat := by
  show readLittle file off 4 = _
  simp only [readLittle_succ, readLittle_zero, Nat.zero_mul, Nat.zero_add]

/-- The SHB type is a palindrome: it reads the same in both byte orders. -/
theorem rd32_eq_shb_iff (file : Bytes) (off : Nat) (le : Bool) :
    rd32 file off le = kBlockTypeShb ↔ rd32 file off true = kBlockTypeShb := by
  have byte0 := byteAt_toNat_lt file off
  have byte1 := byteAt_toNat_lt file (off + 1)
  have byte2 := byteAt_toNat_lt file (off + 2)
  have byte3 := byteAt_toNat_lt file (off + 3)
  cases le with
  | true => rfl
  | false =>
      rw [rd32_big, rd32_little, kBlockTypeShb]
      omega

theorem classifyBlockType_eq_shb_iff (type : Nat) :
    classifyBlockType type = .shb ↔ type = kBlockTypeShb := by
  unfold classifyBlockType
  split_ifs with shb <;> simp [shb]

/-- The reference to an SHB is the one whose bytes start with the SHB type. -/
theorem blockHeader_kind (st : ScanState) (file : Bytes) (pos : Nat) :
    let (_, type, _, _) := blockHeader st file pos
    classifyBlockType type = .shb ↔ rd32 file pos true = kBlockTypeShb := by
  simp only [blockHeader, classifyBlockType_eq_shb_iff, beq_iff_eq]
  split
  next shb => simp [shb]
  next other => exact rd32_eq_shb_iff file pos _

/-- The byte order that a block leaves behind is its own. -/
theorem commitByteOrder_littleEndian (st : ScanState) (file : Bytes) (pos : Nat) :
    let (isShb, _, _, le) := blockHeader st file pos
    (commitByteOrder st isShb le).littleEndian = le := by
  unfold blockHeader commitByteOrder
  dsimp only
  split <;> simp_all

/-! ### The invariant -/

/-- Where a scan stands at `pos`, having emitted `refs`. -/
structure ScanInvariant (file : Bytes) (pos : Nat) (st : ScanState) (refs : List BlockRef) :
    Prop where
  tiling : Tiling file refs pos
  fresh : st.started = false → st = {} ∧ pos = 0 ∧ refs = []
  magic : st.started = true → 4 ≤ file.length
  format : st.started = true → (st.isPcapng = true ↔ IsPcapngFile file)
  legacyOrder : st.started = true → st.isPcapng = false →
    st.littleEndian = isPcapMagicLe (rd32 file 0 true)
  sectionOrder : st.isPcapng = true →
    (pos = 0 ∧ refs = []) ∨ SectionOrder file refs st.littleEndian

namespace ScanInvariant

variable {file : Bytes} {pos : Nat} {st next : ScanState} {refs emitted : List BlockRef} {n : Nat}

theorem initial (file : Bytes) : ScanInvariant file 0 {} [] where
  tiling := ⟨.nil, by simp, by simp⟩
  fresh _ := ⟨rfl, rfl, rfl⟩
  magic := by simp
  format := by simp
  legacyOrder := by simp
  sectionOrder := by simp

/-- The byte order that the block loop reads a header in. -/
theorem headerOrder (holds : ScanInvariant file pos st refs) (started : st.started = true)
    (isPcapng : st.isPcapng = true) :
    HeaderOrder file refs pos (blockHeader st file pos).2.2.2 := by
  unfold HeaderOrder blockHeader
  simp only [beq_iff_eq]
  split
  · simp
  next other =>
    rcases holds.sectionOrder isPcapng with ⟨rfl, -⟩ | order
    · exact absurd ((holds.format started).mp isPcapng) other
    · exact order

/-- An SHB opens the section it is in, any other block stays in the current
one. -/
theorem sectionOrder_concat {ref : BlockRef} {le : Bool}
    (kind : ref.kind = .shb ↔ rd32 file ref.fileOffset true = kBlockTypeShb)
    (order : HeaderOrder file refs ref.fileOffset le) :
    SectionOrder file (refs ++ [ref]) le := by
  unfold HeaderOrder at order
  split at order
  next shb => exact ⟨refs, ref, [], rfl, kind.mpr shb, by simp, order⟩
  next other =>
    rcases order with ⟨earlier, shb, later, rfl, isShb, none, magic⟩
    refine ⟨earlier, shb, later ++ [ref], by simp, isShb, ?_, magic⟩
    intro candidate member
    rcases List.mem_append.mp member with before | last
    · exact none candidate before
    · rw [List.mem_singleton.mp last]
      exact fun isShb => other (kind.mp isShb)

theorem detect (holds : ScanInvariant file pos st emitted) (fresh : st.started = false)
    (covered : detectStep st (file.drop pos) = .emit refs n next) :
    ScanInvariant file (pos + n) next (emitted ++ refs.map (pos +ᵥ ·)) := by
  rcases holds.fresh fresh with ⟨rfl, rfl, rfl⟩
  rw [List.drop_zero] at covered
  unfold detectStep at covered
  split at covered
  · contradiction
  next long =>
    dsimp only at covered
    split at covered
    next shb =>
      cases covered
      exact {
        tiling := holds.tiling
        fresh := by simp
        magic := fun _ => Nat.not_lt.mp long
        format := fun _ => iff_of_true rfl shb
        legacyOrder := by simp
        sectionOrder := fun _ => .inl ⟨rfl, rfl⟩ }
    next notShb =>
      have notPcapng : ¬ IsPcapngFile file := notShb
      split at covered
      · split at covered
        · contradiction
        · cases covered
          simp only [List.map_cons, List.map_nil, zero_vadd, List.nil_append]
          exact {
            tiling := Tiling.concat ⟨0, 24, _, .idb, _⟩ holds.tiling (by simp [minLength, notPcapng])
              fun pcapng => absurd pcapng notPcapng
            fresh := by simp
            magic := fun _ => Nat.not_lt.mp long
            format := fun _ => by simp [notPcapng]
            legacyOrder := fun _ _ => rfl
            sectionOrder := by simp }
      · contradiction

theorem record (small : file.length < 2 ^ 32) (holds : ScanInvariant file pos st emitted)
    (started : st.started = true) (legacy : st.isPcapng = false)
    (covered : recordStep st (file.drop pos) = .emit refs n next) :
    ScanInvariant file (pos + n) next (emitted ++ refs.map (pos +ᵥ ·)) := by
  rcases recordStep_emit covered with ⟨total, fits, rfl, rfl⟩
  have notPcapng : ¬ IsPcapngFile file := fun pcapng => by
    rw [(holds.format started).mpr pcapng] at legacy
    contradiction
  rw [List.length_drop] at fits
  -- the whole record lies in a file of less than 2^32 bytes
  have whole : n % 2 ^ 32 = n := Nat.mod_eq_of_lt (by omega)
  simp only [List.map_cons, List.map_nil, vadd_blockRef, whole, Nat.add_zero]
  exact {
    tiling := Tiling.concat ⟨pos, n, _, .pcapRecord, _⟩ holds.tiling
      (by simp only [minLength, notPcapng, if_false, if_true]; omega)
      fun pcapng => absurd pcapng notPcapng
    fresh := fun fresh => by simp [fresh] at started
    magic := holds.magic
    format := holds.format
    legacyOrder := holds.legacyOrder
    sectionOrder := fun isPcapng => by simp [isPcapng] at legacy }

theorem block (holds : ScanInvariant file pos st emitted) (started : st.started = true)
    (isPcapng : st.isPcapng = true)
    (covered : blockStep st (file.drop pos) = .emit refs n next) :
    ScanInvariant file (pos + n) next (emitted ++ refs.map (pos +ᵥ ·)) := by
  have order := holds.headerOrder started isPcapng
  have kind := blockHeader_kind st file pos
  have committed := commitByteOrder_littleEndian st file pos
  rcases blockStep_emit covered with ⟨long, -, emits⟩
  rw [blockHeader_drop] at emits
  generalize blockHeader st file pos = header at order kind committed emits
  rcases header with ⟨isShb, type, total, le⟩
  dsimp only at order kind committed emits
  rcases emits with ⟨rfl, rfl, rfl⟩
  simp only [List.map_cons, List.map_nil, vadd_blockRef, Nat.add_zero]
  have opened : SectionOrder file (emitted ++ [⟨pos, n, type, classifyBlockType type, le⟩])
      le := sectionOrder_concat kind order
  exact {
    tiling := Tiling.concat ⟨pos, n, type, _, le⟩ holds.tiling
      (by simp only [minLength, (holds.format started).mp isPcapng, if_true]; exact long)
      fun _ => opened
    fresh := fun fresh => by simp [commitByteOrder_started, started] at fresh
    magic := fun _ => holds.magic started
    format := fun _ => by rw [commitByteOrder_isPcapng]; exact holds.format started
    legacyOrder := fun _ legacy => by simp [commitByteOrder_isPcapng, isPcapng] at legacy
    sectionOrder := fun _ => .inr (by rw [committed]; exact opened) }

/-- Every step keeps the invariant. -/
theorem step (small : file.length < 2 ^ 32) (holds : ScanInvariant file pos st emitted)
    (covered : blockScanner.step st (file.drop pos) = .emit refs n next) :
    ScanInvariant file (pos + n) next (emitted ++ refs.map (pos +ᵥ ·)) := by
  by_cases started : st.started = true
  · by_cases legacy : st.isPcapng = false
    · rw [step_of_legacy started legacy] at covered
      exact holds.record small started legacy covered
    · have isPcapng : st.isPcapng = true := by simpa using legacy
      rw [step_of_pcapng started isPcapng] at covered
      exact holds.block started isPcapng covered
  · have fresh : st.started = false := by simpa using started
    rw [step_of_fresh fresh] at covered
    exact holds.detect fresh covered

/-- Where the scanner asks for more input, the rest is an unfinished block. -/
theorem unfinished (holds : ScanInvariant file pos st emitted) (started : st.started = true)
    (undecided : blockScanner.step st (file.drop pos) = .more) :
    Unfinished file emitted pos := by
  by_cases legacy : st.isPcapng = false
  · have notPcapng : ¬ IsPcapngFile file := fun pcapng => by
      rw [(holds.format started).mpr pcapng] at legacy
      contradiction
    rw [step_of_legacy started legacy, recordStep, List.length_drop, rd32_drop,
      holds.legacyOrder started legacy] at undecided
    rw [Unfinished, if_neg notPcapng]
    split at undecided
    next short => exact .inl short
    · dsimp only at undecided
      split at undecided
      next cut => exact .inr cut
      · contradiction
  · have isPcapng : st.isPcapng = true := by simpa using legacy
    have order := holds.headerOrder started isPcapng
    rw [step_of_pcapng started isPcapng, blockStep, List.length_drop, blockHeader_drop] at undecided
    rw [Unfinished, if_pos ((holds.format started).mp isPcapng)]
    split at undecided
    next short => exact .inl short
    · dsimp only at undecided
      split at undecided
      · contradiction
      · split at undecided
        next cut => exact .inr ⟨_, order, cut⟩
        · contradiction

end ScanInvariant

/-- The truncation error is not the scanner's own. -/
theorem scanStep_fail {st : ScanState} {input : Bytes} {error : ScanError}
    (failed : blockScanner.step st input = .fail error) : error ≠ .trailingTruncatedBlock := by
  change scanStep st input = _ at failed
  unfold scanStep detectStep recordStep blockStep at failed
  dsimp only at failed
  split_ifs at failed <;> cases failed <;> decide

/-- Where the scan of a file of less than 2^32 bytes ends. -/
theorem scanInvariant_run {file : Bytes} (small : file.length < 2 ^ 32) :
    let scan := blockScanner.run {} file
    ScanInvariant file scan.consumed scan.state scan.items ∧
      (scan.error = none → blockScanner.step scan.state (file.drop scan.consumed) = .more) ∧
      ∀ error, scan.error = some error →
        blockScanner.step scan.state (file.drop scan.consumed) = .fail error := by
  have stepHolds : ∀ {base : Nat} {st next : ScanState} {emitted refs : List BlockRef} {n : Nat},
      ScanInvariant file base st emitted →
        blockScanner.step st (file.drop base) = .emit refs n next →
          ScanInvariant file (base + n) next (emitted ++ refs.map (base +ᵥ ·)) :=
    fun holds covered => holds.step small covered
  have trace := Scanner.run_trace (ScanInvariant file) stepHolds (ScanInvariant.initial file)
  simp only [List.drop_zero, Nat.zero_add, List.nil_append, zero_vadd, List.map_id'] at trace
  exact trace

/-- The references of an accepted capture of less than 2^32 bytes tile it; when
the scan fails on a truncated block they tile the bytes before that block. -/
theorem scanBlocks_tiling {file : Bytes} (small : file.length < 2 ^ 32) :
    ((scanBlocks file).error = none →
      (scanBlocks file).refs ≠ [] ∧ Tiling file (scanBlocks file).refs file.length) ∧
    ((scanBlocks file).error = some .trailingTruncatedBlock →
      ∃ stop < file.length, Tiling file (scanBlocks file).refs stop ∧
        Unfinished file (scanBlocks file).refs stop) := by
  rcases scanInvariant_run small with ⟨holds, undecided, refused⟩
  have bounded := blockScanner.run_consumed_le {} file
  rw [scanBlocks_refs, scanBlocks, scanWindow_eq, reportScan]
  generalize blockScanner.run {} file = scan at holds undecided refused bounded
  cases failed : scan.error with
  | some error =>
      refine ⟨by simp, fun same => ?_⟩
      exact absurd (Option.some.inj same) (scanStep_fail (refused error failed))
  | none =>
      dsimp only
      by_cases started : scan.state.started = true
      · simp only [if_true, eofError, started, List.length_drop]
        split
        next whole =>
          have ended : scan.consumed = file.length := by omega
          rw [ended] at holds
          refine ⟨fun _ => ⟨fun empty => ?_, holds.tiling⟩, by simp⟩
          have tiles := holds.tiling.tiles
          have magic := holds.magic started
          rw [empty] at tiles
          have := tiles.eq_of_nil
          omega
        next rest =>
          refine ⟨by simp, fun _ => ⟨scan.consumed, by omega, holds.tiling, ?_⟩⟩
          exact holds.unfinished started (undecided failed)
      · simp only [if_true, eofError, if_neg started]
        split <;> simp

/-- A little-endian SHB without section fields. -/
def shortShb : Bytes :=
  [0x0A, 0x0D, 0x0D, 0x0A, 16, 0, 0, 0, 0x4D, 0x3C, 0x2B, 0x1A, 16, 0, 0, 0]

/-- Alone the block is accepted; with one byte behind it the scan is cut. -/
theorem scanBlocks_tiling_shortShb :
    Tiling shortShb (scanBlocks shortShb).refs shortShb.length ∧
      ∃ stop < (shortShb ++ [6]).length,
        Tiling (shortShb ++ [6]) (scanBlocks (shortShb ++ [6])).refs stop ∧
          Unfinished (shortShb ++ [6]) (scanBlocks (shortShb ++ [6])).refs stop :=
  have small : shortShb.length < 2 ^ 32 := by decide
  have smallCut : (shortShb ++ [6]).length < 2 ^ 32 := by decide
  ⟨((scanBlocks_tiling small).1 (by decide +kernel)).2,
    (scanBlocks_tiling smallCut).2 (by decide +kernel)⟩

end Nanotins.PcapBlocks
