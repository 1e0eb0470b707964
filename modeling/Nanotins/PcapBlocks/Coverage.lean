import Nanotins.PcapBlocks.LegacyPhases

/-!
Contract: whether a call of `scan_window` reports as consumed what its references
cover.

Owns: the block chain of a pcapng window, and the windows for which the references
tile the consumed bytes on every exit (`scanWindow_tiles_iff`).

Does not own: what a driver does with the references after an error.
-/

namespace Nanotins.PcapBlocks

open Nanotins.Library

/-! ### The blocks of a window -/

/-- The byte order of the block at `pos`, in a section of order `le`. -/
def blockOrder (file : Bytes) (le : Bool) (pos : Nat) : Bool :=
  if rd32 file pos true == kBlockTypeShb then
    rd32 file (pos + 8) true == kPcapngByteOrderMagic
  else le

/-- The length that the block header at `pos` declares. -/
def blockLength (file : Bytes) (le : Bool) (pos : Nat) : Nat :=
  rd32 file (pos + 4) (blockOrder file le pos)

def WholeBlock (file : Bytes) (le : Bool) (pos : Nat) : Prop :=
  12 ≤ blockLength file le pos ∧ pos + blockLength file le pos ≤ file.length

/-- A block header that declares less than its own size. -/
def BadLength (file : Bytes) (le : Bool) (pos : Nat) : Prop :=
  pos + 12 ≤ file.length ∧ blockLength file le pos < 12

/-- `BlockFrom file le start le' pos`: whole blocks lead from `start`, in a section of
order `le`, to `pos`, in a section of order `le'`. -/
inductive BlockFrom (file : Bytes) : Bool → Nat → Bool → Nat → Prop where
  | here {le : Bool} {pos : Nat} : BlockFrom file le pos le pos
  | behind {le le' : Bool} {start pos : Nat} (whole : WholeBlock file le start)
      (rest : BlockFrom file (blockOrder file le start) (start + blockLength file le start) le'
        pos) :
      BlockFrom file le start le' pos

/-- No bad length stands behind whole blocks of a pcapng window. -/
def LengthsStand (file : Bytes) (le : Bool) : Prop :=
  ∀ le' pos, BlockFrom file le 0 le' pos → 0 < pos → ¬ BadLength file le' pos

/-- Every whole record of a legacy window, from `start` on, is shorter than 4 GiB. -/
def RecordsSmall (file : Bytes) (le : Bool) (start : Nat) : Prop :=
  ∀ pos, RecordFrom file le start pos → 16 + inclLen file le pos < 2 ^ 32

/-- What the window has to keep to: lengths that the scan does not refuse midway, or
records whose length `BlockRef` holds.  A first window decides its format. -/
def CoverageKept (st : ScanState) (file : Bytes) : Prop :=
  if st.started then
    if st.isPcapng then LengthsStand file st.littleEndian
    else RecordsSmall file st.littleEndian 0
  else if 4 ≤ file.length ∧ rd32 file 0 true = kBlockTypeShb then
    LengthsStand file st.littleEndian
  else if 24 ≤ file.length ∧ isPcapMagic (rd32 file 0 true) then
    RecordsSmall file (isPcapMagicLe (rd32 file 0 true)) 24
  else True

/-! ### Tilings -/

theorem Tiles.le {start stop : Nat} {refs : List BlockRef} (tiles : Tiles start refs stop) :
    start ≤ stop := by
  induction tiles with
  | nil => exact Nat.le_refl _
  | cons _ inductionHypothesis => exact Nat.le_trans (Nat.le_add_right _ _) inductionHypothesis

theorem tiles_cons_iff {ref : BlockRef} {refs : List BlockRef} {start stop : Nat} :
    Tiles start (ref :: refs) stop ↔
      ref.fileOffset = start ∧ Tiles (ref.fileOffset + ref.length) refs stop := by
  constructor
  · intro tiles
    cases tiles with
    | cons rest => exact ⟨rfl, rest⟩
  · intro parts
    obtain ⟨rfl, rest⟩ := parts
    exact .cons rest

/-! ### Legacy windows -/

section Legacy

variable {st : ScanState} {file : Bytes}

/-- References of the record loop tile from where it starts, or from nowhere. -/
theorem start_of_tiles_pcapLoop {start pos : Nat}
    (tiles : Tiles start (pcapLoop st file pos).2 (pcapLoop st file pos).1) : start = pos := by
  by_cases whole : pos + (16 + inclLen file st.littleEndian pos) ≤ file.length
  · rw [pcapLoop_of_whole whole] at tiles
    exact (tiles_cons_iff.mp tiles).1.symm
  · rw [pcapLoop_of_cut whole] at tiles
    exact tiles.eq_of_nil

theorem pcapLoop_tiles_iff (pos : Nat) :
    Tiles pos (pcapLoop st file pos).2 (pcapLoop st file pos).1 ↔
      RecordsSmall file st.littleEndian pos := by
  unfold RecordsSmall
  induction pos using pcapLoop.induct st file with
  | case1 pos header length total cut =>
      have cut : ¬ pos + (16 + inclLen file st.littleEndian pos) ≤ file.length :=
        Nat.not_le.mpr cut
      rw [pcapLoop_of_cut cut]
      exact iff_of_true .nil fun place chain => absurd chain (not_recordFrom_of_cut cut)
  | case2 pos header length total fits inductionHypothesis =>
      have whole : pos + (16 + inclLen file st.littleEndian pos) ≤ file.length :=
        Nat.not_lt.mp fits
      rw [pcapLoop_of_whole whole]
      refine tiles_cons_iff.trans ?_
      constructor
      · intro parts place chain
        obtain ⟨-, tiles⟩ := parts
        -- the stored length leads to the next record only if it is the whole length
        have reaches := start_of_tiles_pcapLoop tiles
        have stored : (16 + inclLen file st.littleEndian pos) % 2 ^ 32 =
            16 + inclLen file st.littleEndian pos := Nat.add_left_cancel reaches
        cases chain with
        | first _ => exact stored ▸ Nat.mod_lt _ (Nat.two_pow_pos 32)
        | later _ rest => exact inductionHypothesis.mp (reaches ▸ tiles) place rest
      · intro small
        have stored : (16 + inclLen file st.littleEndian pos) % 2 ^ 32 =
            16 + inclLen file st.littleEndian pos := Nat.mod_eq_of_lt (small pos (.first whole))
        have rest := inductionHypothesis.mpr fun place chain => small place (.later whole chain)
        refine ⟨rfl, ?_⟩
        change Tiles (pos + (16 + inclLen file st.littleEndian pos) % 2 ^ 32) _ _
        rwa [stored]
  | case3 pos short =>
      have cut : ¬ pos + (16 + inclLen file st.littleEndian pos) ≤ file.length := by omega
      rw [pcapLoop_of_cut cut]
      exact iff_of_true .nil fun place chain => absurd chain (not_recordFrom_of_cut cut)

end Legacy

/-! ### Pcapng windows -/

section Pcapng

variable {st : ScanState} {file : Bytes}

/-- The reference to the block at `pos`. -/
def chainRef (st : ScanState) (file : Bytes) (pos : Nat) : BlockRef :=
  ⟨pos, blockLength file st.littleEndian pos, (blockHeader st file pos).2.1,
    classifyBlockType (blockHeader st file pos).2.1, blockOrder file st.littleEndian pos⟩

/-- The state behind the block at `pos`. -/
def chainState (st : ScanState) (file : Bytes) (pos : Nat) : ScanState :=
  commitByteOrder st (blockHeader st file pos).1 (blockOrder file st.littleEndian pos)

theorem chainState_littleEndian (st : ScanState) (file : Bytes) (pos : Nat) :
    (chainState st file pos).littleEndian = blockOrder file st.littleEndian pos :=
  commitByteOrder_littleEndian st file pos

theorem pcapngLoop_of_whole {pos : Nat} (whole : WholeBlock file st.littleEndian pos) :
    pcapngLoop st file pos =
      let rest := pcapngLoop (chainState st file pos) file
        (pos + blockLength file st.littleEndian pos)
      (rest.1, rest.2.1, chainRef st file pos :: rest.2.2.1, rest.2.2.2) := by
  obtain ⟨long, fits⟩ := whole
  rw [pcapngLoop, if_pos (by omega)]
  refine (if_neg (Nat.not_lt.mpr long)).trans ?_
  exact if_neg (Nat.not_lt.mpr fits)

theorem pcapngLoop_of_bad {pos : Nat} (bad : BadLength file st.littleEndian pos) :
    pcapngLoop st file pos = (st, pos, [], some .blockLengthInvalid) := by
  rw [pcapngLoop, if_pos bad.1]
  exact if_pos bad.2

theorem pcapngLoop_of_cut {pos : Nat} (notWhole : ¬ WholeBlock file st.littleEndian pos)
    (notBad : ¬ BadLength file st.littleEndian pos) :
    pcapngLoop st file pos = (st, pos, [], none) := by
  rw [pcapngLoop]
  split
  · next header =>
    have long : 12 ≤ blockLength file st.littleEndian pos :=
      Nat.not_lt.mp fun short => notBad ⟨header, short⟩
    have cut : file.length < pos + blockLength file st.littleEndian pos :=
      Nat.not_le.mp fun fits => notWhole ⟨long, fits⟩
    refine (if_neg (Nat.not_lt.mpr long)).trans ?_
    exact if_pos cut
  · rfl

theorem BlockFrom.le {le le' : Bool} {start pos : Nat} (chain : BlockFrom file le start le' pos) :
    start ≤ pos := by
  induction chain with
  | here => exact Nat.le_refl _
  | behind _ _ inductionHypothesis => exact Nat.le_trans (Nat.le_add_right _ _) inductionHypothesis

theorem blockFrom_of_not_whole {le le' : Bool} {start pos : Nat}
    (notWhole : ¬ WholeBlock file le start) (chain : BlockFrom file le start le' pos) :
    le' = le ∧ pos = start := by
  cases chain with
  | here => exact ⟨rfl, rfl⟩
  | behind whole _ => exact absurd whole notWhole

/-- Up to where it stops, the block loop tiles the window, and it stops with an
error exactly if whole blocks lead to a bad length. -/
theorem pcapngLoop_chain (st : ScanState) (file : Bytes) (pos : Nat) :
    Tiles pos (pcapngLoop st file pos).2.2.1 (pcapngLoop st file pos).2.1 ∧
      ((pcapngLoop st file pos).2.2.2 ≠ none ↔
        ∃ le' pos', BlockFrom file st.littleEndian pos le' pos' ∧ BadLength file le' pos') := by
  by_cases whole : WholeBlock file st.littleEndian pos
  · have remains : file.length - (pos + blockLength file st.littleEndian pos) <
        file.length - pos := by
      have long := whole.1
      have fits := whole.2
      omega
    obtain ⟨tiles, stops⟩ := pcapngLoop_chain (chainState st file pos) file
      (pos + blockLength file st.littleEndian pos)
    rw [chainState_littleEndian] at stops
    rw [pcapngLoop_of_whole whole]
    refine ⟨tiles_cons_iff.mpr ⟨rfl, tiles⟩, stops.trans ?_⟩
    constructor
    · intro found
      obtain ⟨le', pos', chain, bad⟩ := found
      exact ⟨le', pos', .behind whole chain, bad⟩
    · intro found
      obtain ⟨le', pos', chain, bad⟩ := found
      cases chain with
      | here => exact absurd bad.2 (Nat.not_lt.mpr whole.1)
      | behind _ rest => exact ⟨le', pos', rest, bad⟩
  · have here : (∃ le' pos', BlockFrom file st.littleEndian pos le' pos' ∧
        BadLength file le' pos') ↔ BadLength file st.littleEndian pos := by
      constructor
      · intro found
        obtain ⟨le', pos', chain, bad⟩ := found
        obtain ⟨rfl, rfl⟩ := blockFrom_of_not_whole whole chain
        exact bad
      · intro bad
        exact ⟨_, _, .here, bad⟩
    rw [here]
    by_cases bad : BadLength file st.littleEndian pos
    · rw [pcapngLoop_of_bad bad]
      exact ⟨.nil, iff_of_true (by simp) bad⟩
    · rw [pcapngLoop_of_cut whole bad]
      exact ⟨.nil, iff_of_false (by simp) bad⟩
termination_by file.length - pos

/-- Behind a whole block, a bad length is not where the blocks start. -/
theorem BlockFrom.lt_of_bad {le le' : Bool} {start pos : Nat} (whole : WholeBlock file le start)
    (chain : BlockFrom file le start le' pos) (bad : BadLength file le' pos) : start < pos := by
  have long := whole.1
  cases chain with
  | here => exact absurd bad.2 (Nat.not_lt.mpr long)
  | behind _ rest =>
      have later := rest.le
      omega

theorem lengthsStand_of_not_whole {le : Bool} (notWhole : ¬ WholeBlock file le 0) :
    LengthsStand file le := by
  intro le' pos chain inside
  rw [(blockFrom_of_not_whole notWhole chain).2] at inside
  exact absurd inside (Nat.lt_irrefl 0)

/-- The reference to a whole block covers some bytes. -/
theorem not_tiles_nothing_of_whole (whole : WholeBlock file st.littleEndian 0) :
    ¬ Tiles 0 (pcapngLoop st file 0).2.2.1 0 := by
  intro closed
  have long := whole.1
  rw [pcapngLoop_of_whole whole] at closed
  have behind : 0 + blockLength file st.littleEndian 0 ≤ 0 := (tiles_cons_iff.mp closed).2.le
  omega

/-- The references of the block loop are lost to `consumed` exactly if it stops with
an error behind a block. -/
theorem scanFrom_tiles_of_pcapng (isPcapng : st.isPcapng = true) (atEof : Bool) :
    Tiles 0 (scanFrom st file atEof 0 []).refs (scanFrom st file atEof 0 []).consumed ↔
      LengthsStand file st.littleEndian := by
  obtain ⟨tiles, stops⟩ := pcapngLoop_chain st file 0
  unfold scanFrom
  rw [if_neg (by rw [isPcapng]; decide)]
  rcases loop : pcapngLoop st file 0 with ⟨final, stop, blocks, _ | error⟩
  · rw [loop] at tiles stops
    refine iff_of_true tiles ?_
    intro le' pos chain _ bad
    exact stops.mpr ⟨le', pos, chain, bad⟩ rfl
  · rw [loop] at stops
    obtain ⟨le', pos, chain, bad⟩ := stops.mp (Option.some_ne_none error)
    change Tiles 0 blocks 0 ↔ _
    by_cases whole : WholeBlock file st.littleEndian 0
    · have lost := not_tiles_nothing_of_whole whole
      rw [loop] at lost
      apply iff_of_false lost
      intro stand
      exact stand le' pos chain (chain.lt_of_bad whole bad) bad
    · have none : blocks = [] := by
        obtain ⟨rfl, rfl⟩ := blockFrom_of_not_whole whole chain
        rw [pcapngLoop_of_bad bad] at loop
        exact (congrArg (fun result => result.2.2.1) loop).symm
      rw [none]
      exact iff_of_true .nil (lengthsStand_of_not_whole whole)

end Pcapng

/-! ### Both formats -/

theorem scanFrom_tiles_of_legacy {st : ScanState} (legacy : st.isPcapng = false) (file : Bytes)
    (atEof : Bool) {pos : Nat} {refs : List BlockRef}
    (before : ∀ later stop, Tiles 0 (refs ++ later) stop ↔ Tiles pos later stop) :
    Tiles 0 (scanFrom st file atEof pos refs).refs (scanFrom st file atEof pos refs).consumed ↔
      RecordsSmall file st.littleEndian pos := by
  unfold scanFrom
  rw [if_pos legacy]
  exact (before _ _).trans (pcapLoop_tiles_iff pos)

/-- On every exit the references that the call appended tile the bytes that it
reports as consumed, exactly if the window keeps to `CoverageKept`. -/
theorem scanWindow_tiles_iff (st : ScanState) (file : Bytes) (atEof : Bool) :
    Tiles 0 (scanWindow st file atEof).refs (scanWindow st file atEof).consumed ↔
      CoverageKept st file := by
  unfold scanWindow CoverageKept
  by_cases started : st.started = true
  · rw [if_pos started, if_pos started]
    by_cases isPcapng : st.isPcapng = true
    · rw [if_pos isPcapng]
      exact scanFrom_tiles_of_pcapng isPcapng atEof
    · rw [if_neg isPcapng]
      exact scanFrom_tiles_of_legacy (Bool.not_eq_true _ ▸ isPcapng) file atEof fun _ _ => Iff.rfl
  · rw [if_neg started, if_neg started]
    by_cases short : file.length < 4
    · have notShb : ¬ (4 ≤ file.length ∧ rd32 file 0 true = kBlockTypeShb) := by omega
      have notMagic : ¬ (24 ≤ file.length ∧ isPcapMagic (rd32 file 0 true) = true) := by omega
      rw [if_pos short, if_neg notShb, if_neg notMagic]
      exact iff_of_true .nil trivial
    · rw [if_neg short]
      dsimp only
      by_cases shb : rd32 file 0 true = kBlockTypeShb
      · rw [if_pos shb, if_pos ⟨Nat.not_lt.mp short, shb⟩]
        exact scanFrom_tiles_of_pcapng rfl atEof
      · have notShb : ¬ (4 ≤ file.length ∧ rd32 file 0 true = kBlockTypeShb) :=
          fun both => shb both.2
        rw [if_neg shb, if_neg notShb]
        by_cases magic : isPcapMagic (rd32 file 0 true) = true
        · rw [if_pos magic]
          by_cases header : file.length < 24
          · have notWhole : ¬ (24 ≤ file.length ∧ isPcapMagic (rd32 file 0 true) = true) := by omega
            rw [if_pos header, if_neg notWhole]
            exact iff_of_true .nil trivial
          · rw [if_neg header, if_pos ⟨Nat.not_lt.mp header, magic⟩]
            exact scanFrom_tiles_of_legacy rfl file atEof fun later stop =>
              tiles_cons_iff.trans (and_iff_right rfl)
        · have notMagic : ¬ (24 ≤ file.length ∧ isPcapMagic (rd32 file 0 true) = true) :=
            fun both => magic both.2
          rw [if_neg magic, if_neg notMagic]
          exact iff_of_true .nil trivial

/-- A section header of 12 bytes and a block that declares no length. -/
def brokenSection : Bytes :=
  [0x0A, 0x0D, 0x0D, 0x0A, 12, 0, 0, 0, 0x4D, 0x3C, 0x2B, 0x1A, 0, 0, 0, 0, 0, 0, 0, 0, 0, 0, 0, 0]

/-- The header's reference is kept, but no byte is reported as consumed. -/
theorem scanWindow_tiles_fails :
    ¬ Tiles 0 (scanWindow {} brokenSection false).refs
      (scanWindow {} brokenSection false).consumed := by
  have started : scanWindow {} brokenSection false =
      scanFrom { isPcapng := true, started := true } brokenSection false 0 [] := by
    have long : ¬ brokenSection.length < 4 := by decide
    have shb : rd32 brokenSection 0 true = kBlockTypeShb := by decide
    unfold scanWindow
    rw [if_neg Bool.false_ne_true, if_neg long]
    exact if_pos shb
  rw [started]
  intro tiles
  have stand := (scanFrom_tiles_of_pcapng rfl false).mp tiles
  have order : blockOrder brokenSection true 0 = true := by decide
  have length : blockLength brokenSection true 0 = 12 := by decide
  have whole : WholeBlock brokenSection true 0 := by
    unfold WholeBlock
    rw [length]
    decide
  have led : BlockFrom brokenSection true 0 true 12 := by
    apply BlockFrom.behind whole
    rw [order, length]
    exact .here
  have bad : BadLength brokenSection true 12 := ⟨by decide, by decide⟩
  exact stand true 12 led (by decide) bad

end Nanotins.PcapBlocks
