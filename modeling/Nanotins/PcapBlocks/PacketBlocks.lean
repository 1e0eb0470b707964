import Nanotins.PcapBlocks.Streaming

/-!
Contract: what `parseEpb` reports for the blocks a scan emits.

Owns: the facts every emitted reference satisfies (`emitted_sound`), when the
reported payload lies in its block, the `uint32_t` arithmetic of the EPB option
window, and the range the option walk reads.

Does not own: the values of the option records themselves.
-/

namespace Nanotins.PcapBlocks

open Nanotins.Library

/-! ### Emitted references -/

/-- What the scanner has checked of a reference when it emits it. -/
structure RefSound (file : Bytes) (ref : BlockRef) : Prop where
  inside : ref.fileOffset + ref.length ≤ file.length
  length_lt : ref.length < 2 ^ 32
  /-- A pcap record is whole in the file, and its stored length is the low 32
  bits of its true one. -/
  record : ref.kind = .pcapRecord →
    ref.length = (16 + rd32 file (ref.fileOffset + 8) ref.littleEndian) % 2 ^ 32

theorem classifyBlockType_ne_pcapRecord (type : Nat) : classifyBlockType type ≠ .pcapRecord := by
  unfold classifyBlockType
  split_ifs <;> decide

/-- Every reference one step emits is sound at its place in the file. -/
theorem scanStep_sound {file : Bytes} {base : Nat} {st next : ScanState} {refs : List BlockRef}
    {n : Nat} (covered : blockScanner.step st (file.drop base) = .emit refs n next) :
    ∀ ref ∈ refs, RefSound file (base +ᵥ ref) := by
  intro ref member
  by_cases started : st.started = true
  · by_cases legacy : st.isPcapng = false
    · rw [step_of_legacy started legacy] at covered
      obtain ⟨total, fits, rfl, -⟩ := recordStep_emit covered
      rw [List.length_drop] at fits
      rw [rd32_drop] at total
      rw [List.mem_singleton.mp member, vadd_blockRef]
      have stored : n % 2 ^ 32 ≤ n := Nat.mod_le n _
      refine ⟨?_, Nat.mod_lt n (by decide), fun _ => by rw [total]; rfl⟩
      change base + 0 + n % 2 ^ 32 ≤ file.length
      omega
    · rw [step_of_pcapng started (by simpa using legacy)] at covered
      obtain ⟨-, fits, total, rfl, -⟩ := blockStep_emit covered
      rw [List.length_drop] at fits
      rw [List.mem_singleton.mp member, vadd_blockRef, ← total]
      have positive := (blockStep_emit covered).1
      have bounded : n < 2 ^ 32 := total ▸ rd32_lt _ _ _
      refine ⟨?_, bounded, fun record => absurd record (classifyBlockType_ne_pcapRecord _)⟩
      change base + 0 + n ≤ file.length
      omega
  · rw [step_of_fresh (by simpa using started)] at covered
    rcases detectStep_emit covered with ⟨rfl, -, -⟩ | ⟨long, -, rfl, -⟩
    · simp at member
    · rw [List.length_drop] at long
      rw [List.mem_singleton.mp member, vadd_blockRef]
      have bounded : 24 < 2 ^ 32 := by decide
      refine ⟨?_, bounded, fun record => by contradiction⟩
      change base + 0 + 24 ≤ file.length
      omega

/-- Every reference `scan_blocks` emits is sound, whether the scan then succeeds
or fails. -/
theorem emitted_sound {file : Bytes} {ref : BlockRef} (emitted : ref ∈ (scanBlocks file).refs) :
    RefSound file ref := by
  have sound : ∀ ref ∈ (blockScanner.run {} (file.drop 0)).items, RefSound file (0 +ᵥ ref) := by
    exact Scanner.run_forall (fun _ _ => True)
      (fun _ covered => ⟨scanStep_sound covered, trivial⟩) trivial
  rw [List.drop_zero, ← scanBlocks_refs] at sound
  simpa using sound ref emitted

/-! ### The payload range -/

/-- The reported payload lies in its block, and so in the buffer. -/
structure PayloadInside (file : Bytes) (ref : BlockRef) (view : EpbView) : Prop where
  start : ref.fileOffset ≤ view.payloadFileOffset
  block : view.payloadFileOffset + view.caplen ≤ ref.fileOffset + ref.length
  buffer : view.payloadFileOffset + view.caplen ≤ file.length

/-- The captured-length field of the EPB that `ref` points at. -/
def epbCaplen (file : Bytes) (ref : BlockRef) : Nat :=
  rd32 file (ref.fileOffset + 20) ref.littleEndian

theorem epbCaplen_lt (file : Bytes) (ref : BlockRef) : epbCaplen file ref < 2 ^ 32 :=
  rd32_lt _ _ _

theorem parseEpb_record {file : Bytes} {ref : BlockRef} {view : EpbView}
    (record : ref.kind = .pcapRecord) (parsed : parseEpb file ref = some view) :
    16 ≤ ref.length ∧ view.payloadFileOffset = ref.fileOffset + 16 ∧
      view.caplen = rd32 file (ref.fileOffset + 8) ref.littleEndian := by
  unfold parseEpb at parsed
  split at parsed
  · contradiction
  · simp only at parsed
    split at parsed
    · contradiction
    · cases parsed
      exact ⟨by omega, rfl, rfl⟩

theorem parseEpb_epb {file : Bytes} {ref : BlockRef} {view : EpbView}
    (packet : ref.kind = .epb) (parsed : parseEpb file ref = some view) :
    32 ≤ ref.length ∧ view.payloadFileOffset = ref.fileOffset + 28 ∧
      view.caplen = epbCaplen file ref ∧
      view.options =
        epbOptions ref.fileOffset ref.length (epbCaplen file ref) ref.littleEndian ∧
      view.epbFlags = epbFlags file ref.littleEndian view.options := by
  unfold parseEpb at parsed
  split at parsed
  · contradiction
  · dsimp only at parsed
    rw [if_neg (by rw [packet]; decide)] at parsed
    split at parsed
    · contradiction
    next accepted =>
      have long : ¬ ref.length < 32 := fun short => accepted (.inr short)
      cases parsed
      exact ⟨by omega, rfl, rfl, rfl, rfl⟩

/-- `parseEpb` accepts every emitted EPB of at least 32 bytes. -/
theorem parseEpb_isSome {file : Bytes} {ref : BlockRef} (emitted : ref ∈ (scanBlocks file).refs)
    (packet : ref.kind = .epb) (long : 32 ≤ ref.length) : (parseEpb file ref).isSome := by
  have inside := (emitted_sound emitted).inside
  have accepted : ¬ (ref.kind ≠ .epb ∨ ref.length < 32) := by
    rintro (other | short)
    · exact other packet
    · omega
  unfold parseEpb
  rw [if_neg (by omega)]
  dsimp only
  rw [if_neg (by rw [packet]; decide), if_neg accepted]
  rfl

/-- The payload of a packet block lies in the block exactly when the block is a
legacy record or the captured length of the EPB fits behind its fixed fields:
`parse_epb` compares the two for neither layout, and the scanner does for
records only. -/
theorem payloadInside_iff {file : Bytes} {ref : BlockRef} {view : EpbView}
    (emitted : ref ∈ (scanBlocks file).refs) (packet : ref.kind = .epb ∨ ref.kind = .pcapRecord)
    (parsed : parseEpb file ref = some view) :
    PayloadInside file ref view ↔ (ref.kind = .epb → 28 + epbCaplen file ref ≤ ref.length) := by
  have sound := emitted_sound emitted
  have inside := sound.inside
  rcases packet with epb | record
  · obtain ⟨long, payload, caplen, -, -⟩ := parseEpb_epb epb parsed
    constructor
    · intro within _
      have := within.block
      omega
    · intro fits
      have := fits epb
      exact ⟨by omega, by omega, by omega⟩
  · obtain ⟨long, payload, caplen⟩ := parseEpb_record record parsed
    have stored := sound.record record
    have bounded := rd32_lt file (ref.fileOffset + 8) ref.littleEndian
    constructor
    · intro _ epb
      rw [record] at epb
      contradiction
    · intro _
      -- 16 bytes of stored length rule out that `16 + incl_len` wrapped
      exact ⟨by omega, by omega, by omega⟩

/-- A little-endian capture of one SHB and one 32-byte EPB with no data, whose
captured-length field is `caplen`. -/
def emptyEpbCapture (caplen : Bytes) : Bytes :=
  [0x0A, 0x0D, 0x0D, 0x0A, 28, 0, 0, 0, 0x4D, 0x3C, 0x2B, 0x1A, 1, 0, 0, 0] ++
    List.replicate 8 0xFF ++ [28, 0, 0, 0] ++
    [6, 0, 0, 0, 32, 0, 0, 0] ++ List.replicate 12 0 ++ caplen ++ caplen ++ [32, 0, 0, 0]

def emptyEpbRef : BlockRef := ⟨28, 32, kBlockTypeEpb, .epb, true⟩

/-- An EPB of 32 bytes that claims five captured bytes is accepted, and its
payload runs past the block and past the buffer. -/
theorem payloadInside_fails :
    ∃ file ref view, ref ∈ (scanBlocks file).refs ∧ ref.kind = .epb ∧
      parseEpb file ref = some view ∧ ¬ PayloadInside file ref view := by
  have emitted : emptyEpbRef ∈ (scanBlocks (emptyEpbCapture [5, 0, 0, 0])).refs := by
    decide +kernel
  have accepted := parseEpb_isSome emitted rfl (by decide)
  obtain ⟨view, parsed⟩ := Option.isSome_iff_exists.mp accepted
  refine ⟨_, _, view, emitted, rfl, parsed, fun within => ?_⟩
  have claimed : epbCaplen (emptyEpbCapture [5, 0, 0, 0]) emptyEpbRef = 5 := by decide +kernel
  have block := within.block
  obtain ⟨-, payload, caplen, -, -⟩ := parseEpb_epb rfl parsed
  rw [payload, caplen, claimed] at block
  exact absurd block (by decide)

/-- A big-endian capture of an EPB with five bytes of a longer packet and the option
`epb_flags`. -/
def flaggedEpbCapture : Bytes :=
  [0x0A, 0x0D, 0x0D, 0x0A, 0, 0, 0, 28, 0x1A, 0x2B, 0x3C, 0x4D, 0, 1, 0, 0] ++
    List.replicate 8 0xFF ++ [0, 0, 0, 28] ++
    [0, 0, 0, 6, 0, 0, 0, 52] ++ List.replicate 12 0 ++ [0, 0, 0, 5, 0, 0, 0, 9] ++
    [1, 2, 3, 4, 5, 0, 0, 0] ++ [0, 2, 0, 4, 0, 0, 0, 1, 0, 0, 0, 0] ++ [0, 0, 0, 52]

def flaggedEpbRef : BlockRef := ⟨28, 52, kBlockTypeEpb, .epb, false⟩

def flaggedEpbView : EpbView := ⟨0, 0, 5, 9, 56, 1, ⟨some 64, 12, false⟩⟩

theorem mem_refs_flaggedEpb : flaggedEpbRef ∈ (scanBlocks flaggedEpbCapture).refs := by
  decide +kernel

theorem parseEpb_flaggedEpb : parseEpb flaggedEpbCapture flaggedEpbRef = some flaggedEpbView := by
  decide +kernel

theorem payloadInside_iff_flaggedEpb :
    parseEpb flaggedEpbCapture flaggedEpbRef = some flaggedEpbView ∧
      PayloadInside flaggedEpbCapture flaggedEpbRef flaggedEpbView :=
  ⟨parseEpb_flaggedEpb, (payloadInside_iff mem_refs_flaggedEpb (.inl rfl) parseEpb_flaggedEpb).mpr
    fun _ => by decide +kernel⟩

/-! ### The option walk -/

def nextOption (file : Bytes) (cursor : Options) : Option (BlockOption × Options) :=
  Id.run (nextOptionM (byteAt file) cursor)

def epbFlagsLoop (file : Bytes) (le : Bool) (fuel : Nat) (cursor : Options) (flags : Nat) : Nat :=
  Id.run (epbFlagsLoopM (byteAt file) le fuel cursor flags)

def rd16 (file : Bytes) (off : Nat) (le : Bool) : Nat :=
  Id.run (rd16M (byteAt file) off le)

theorem rd16_lt (file : Bytes) (off : Nat) (le : Bool) : rd16 file off le < 2 ^ 16 := by
  cases le
  · exact readBig_lt file off 2
  · exact readLittle_lt file off 2

section Guarded

variable {file : Bytes} {lo hi : Nat}

theorem rd16M_guarded {off : Nat} (le : Bool) (above : lo ≤ off) (below : off + 2 ≤ hi) :
    rd16M (guardedByte file lo hi) off le = some (rd16 file off le) := by
  cases le
  · exact readBigM_guarded above below
  · exact readLittleM_guarded above below

theorem rd32M_guarded {off : Nat} (le : Bool) (above : lo ≤ off) (below : off + 4 ≤ hi) :
    rd32M (guardedByte file lo hi) off le = some (rd32 file off le) := by
  cases le
  · exact readBigM_guarded above below
  · exact readLittleM_guarded above below

end Guarded

/-- The cursor step on the total reader. -/
theorem nextOption_of_some {file : Bytes} {cursor : Options} {data : Nat}
    (start : cursor.data = some data) :
    nextOption file cursor =
      let code := rd16 file data cursor.littleEndian
      let length := rd16 file (data + 2) cursor.littleEndian
      let advance := 4 + pad4 length
      if cursor.size < 4 then none
      else if code = 0 then none
      else if cursor.size < advance then none
      else
        some (⟨code, length, data + 4⟩,
          { cursor with data := some (data + advance), size := cursor.size - advance }) := by
  obtain ⟨_, size, le⟩ := cursor
  cases start
  rfl

theorem nextOption_of_none {file : Bytes} {cursor : Options} (empty : cursor.data = none) :
    nextOption file cursor = none := by
  obtain ⟨_, size, le⟩ := cursor
  cases empty
  rfl

/-- What one step of the cursor returns: an option whose four header bytes and
padded value lie in the window, and the window behind it. -/
theorem nextOption_some {file : Bytes} {cursor rest : Options} {opt : BlockOption}
    (advanced : nextOption file cursor = some (opt, rest)) :
    ∃ data, cursor.data = some data ∧ opt.value = data + 4 ∧ opt.length < 2 ^ 16 ∧
      4 + pad4 opt.length ≤ cursor.size ∧
      rest = { cursor with
        data := some (data + (4 + pad4 opt.length))
        size := cursor.size - (4 + pad4 opt.length) } := by
  cases start : cursor.data with
  | none =>
      rw [nextOption_of_none start] at advanced
      contradiction
  | some data =>
      rw [nextOption_of_some start] at advanced
      dsimp only at advanced
      split at advanced
      · contradiction
      · split at advanced
        · contradiction
        · split at advanced
          · contradiction
          next fits =>
            cases advanced
            exact ⟨data, rfl, rfl, rd16_lt _ _ _, Nat.not_lt.mp fits, rfl⟩

/-- A window lies in `[lo, hi)`. -/
def Options.Within (cursor : Options) (lo hi : Nat) : Prop :=
  ∀ data, cursor.data = some data → lo ≤ data ∧ data + cursor.size ≤ hi

section Guarded

variable {file : Bytes} {lo hi : Nat}

theorem Options.Within.next {cursor rest : Options} {opt : BlockOption}
    (within : cursor.Within lo hi) (advanced : nextOption file cursor = some (opt, rest)) :
    rest.Within lo hi := by
  obtain ⟨data, start, -, -, fits, rfl⟩ := nextOption_some advanced
  obtain ⟨above, below⟩ := within data start
  rintro _ ⟨rfl⟩
  dsimp only
  omega

/-- The cursor step reads nothing outside its window. -/
theorem nextOptionM_guarded {cursor : Options} (within : cursor.Within lo hi) :
    nextOptionM (guardedByte file lo hi) cursor = some (nextOption file cursor) := by
  unfold nextOptionM
  cases start : cursor.data with
  | none => rw [nextOption_of_none start]; rfl
  | some data =>
      obtain ⟨above, below⟩ := within data start
      rw [nextOption_of_some start]
      dsimp only
      split
      · rfl
      · rw [rd16M_guarded _ above (by omega), rd16M_guarded _ (by omega) (by omega)]
        change (if _ then some none else if _ then some none else some (some _)) = _
        split_ifs <;> rfl

end Guarded

/-- One round of the `epb_flags` scan. -/
theorem epbFlagsLoop_succ (file : Bytes) (le : Bool) (fuel : Nat) (cursor : Options)
    (flags : Nat) :
    epbFlagsLoop file le (fuel + 1) cursor flags =
      match nextOption file cursor with
      | none => flags
      | some (opt, rest) =>
          epbFlagsLoop file le fuel rest
            (if opt.code = 2 ∧ 4 ≤ opt.length then rd32 file opt.value le else flags) := by
  change (match nextOption file cursor with
    | none => flags
    | some (opt, rest) =>
        if opt.code = 2 ∧ 4 ≤ opt.length then
          epbFlagsLoop file le fuel rest (rd32 file opt.value le)
        else epbFlagsLoop file le fuel rest flags) = _
  split
  · rfl
  · split <;> rfl

/-- The scan runs until the cursor stops: fuel beyond the size of the window
changes nothing, since each option takes at least four bytes. -/
theorem epbFlagsLoop_fuel (file : Bytes) (le : Bool) {fuel : Nat} {cursor : Options}
    (flags : Nat) (enough : cursor.size ≤ fuel) :
    epbFlagsLoop file le (fuel + 1) cursor flags = epbFlagsLoop file le fuel cursor flags := by
  induction fuel generalizing cursor flags with
  | zero =>
      have stopped : nextOption file cursor = none := by
        apply Option.eq_none_iff_forall_not_mem.mpr
        rintro ⟨opt, rest⟩ advanced
        obtain ⟨_, -, -, -, fits, -⟩ := nextOption_some advanced
        omega
      rw [epbFlagsLoop_succ, stopped]
      rfl
  | succ fuel inductionHypothesis =>
      rw [epbFlagsLoop_succ, epbFlagsLoop_succ]
      cases advanced : nextOption file cursor with
      | none => rfl
      | some step =>
          obtain ⟨opt, rest⟩ := step
          obtain ⟨_, -, -, -, fits, remaining⟩ := nextOption_some advanced
          apply inductionHypothesis
          rw [remaining]
          dsimp only
          omega

/-- The `epb_flags` scan reads nothing outside its window. -/
theorem epbFlagsLoopM_guarded {file : Bytes} {lo hi : Nat} (le : Bool) (fuel : Nat)
    {cursor : Options} (flags : Nat) (within : cursor.Within lo hi) :
    epbFlagsLoopM (guardedByte file lo hi) le fuel cursor flags =
      some (epbFlagsLoop file le fuel cursor flags) := by
  induction fuel generalizing cursor flags with
  | zero => rfl
  | succ fuel inductionHypothesis =>
      rw [epbFlagsLoopM, nextOptionM_guarded within, epbFlagsLoop_succ]
      cases advanced : nextOption file cursor with
      | none => rfl
      | some step =>
          obtain ⟨opt, rest⟩ := step
          have restWithin := within.next advanced
          obtain ⟨data, start, value, short, fits, -⟩ := nextOption_some advanced
          obtain ⟨above, below⟩ := within data start
          change (if opt.code = 2 ∧ 4 ≤ opt.length then
              rd32M (guardedByte file lo hi) opt.value le >>= epbFlagsLoopM _ le fuel rest
            else epbFlagsLoopM (guardedByte file lo hi) le fuel rest flags) =
              some (epbFlagsLoop file le fuel rest _)
          by_cases isFlags : opt.code = 2 ∧ 4 ≤ opt.length
          · have padded : 4 ≤ pad4 opt.length := by
              unfold pad4
              omega
            rw [if_pos isFlags, if_pos isFlags, rd32M_guarded le (by omega) (by omega)]
            exact inductionHypothesis _ restWithin
          · rw [if_neg isFlags, if_neg isFlags]
            exact inductionHypothesis _ restWithin

/-! ### The option window -/

/-- `n` rounded up to a multiple of four, without wrap-around. -/
def roundUp4 (n : Nat) : Nat := (n + 3) / 4 * 4

/-- The option window of an EPB is empty or spans the block bytes behind the
padded packet data up to the trailing length, and the `epb_flags` scan reads
only behind the packet data and inside the block. -/
structure OptionsExact (file : Bytes) (ref : BlockRef) (view : EpbView) : Prop where
  window : view.options.size = 0 ∨
    (view.options.data = some (ref.fileOffset + (28 + roundUp4 view.caplen)) ∧
      28 + roundUp4 view.caplen + view.options.size + 4 = ref.length)
  scan : epbFlagsM (guardedByte file (ref.fileOffset + 28 + view.caplen)
      (ref.fileOffset + ref.length)) ref.littleEndian view.options = some view.epbFlags

/-- The captured lengths for which no step of the `uint32_t` window arithmetic
wraps, and the wrapped ones whose window is empty all the same. -/
def windowSafe (caplen length : Nat) : Prop :=
  caplen ≤ 2 ^ 32 - 36 ∨ (2 ^ 32 - 4 < caplen ∧ length = 32)

instance (caplen length : Nat) : Decidable (windowSafe caplen length) :=
  inferInstanceAs (Decidable (_ ∨ _))

/-- Without wrap-around the window is null or the exact one. -/
theorem epbOptions_of_small {base length caplen : Nat} (le : Bool) (bounded : length < 2 ^ 32)
    (small : caplen ≤ 2 ^ 32 - 36) :
    epbOptions base length caplen le =
      if 28 + roundUp4 caplen + 4 ≤ length then
        ⟨some (base + (28 + roundUp4 caplen)), length - (28 + roundUp4 caplen) - 4, le⟩
      else ⟨none, 0, le⟩ := by
  have padded : (8 + 20 + pad4 caplen) % 2 ^ 32 = 28 + roundUp4 caplen := by
    unfold pad4 roundUp4
    omega
  have guard : (28 + roundUp4 caplen + 4) % 2 ^ 32 = 28 + roundUp4 caplen + 4 := by
    unfold roundUp4
    omega
  rw [epbOptions, padded, guard]
  split
  next fits =>
    have size : sub32 (sub32 length (28 + roundUp4 caplen)) 4 =
        length - (28 + roundUp4 caplen) - 4 := by
      unfold sub32
      omega
    rw [size]
  · rfl

/-- From `2 ^ 32 - 3` on the padded length wraps to zero: the window starts at
the packet data. -/
theorem epbOptions_of_large {base length caplen : Nat} (le : Bool) (bounded : length < 2 ^ 32)
    (long : 32 ≤ length) (field : caplen < 2 ^ 32) (large : 2 ^ 32 - 4 < caplen) :
    epbOptions base length caplen le = ⟨some (base + 28), length - 32, le⟩ := by
  have padded : (8 + 20 + pad4 caplen) % 2 ^ 32 = 28 := by
    unfold pad4
    omega
  have size : sub32 (sub32 length 28) 4 = length - 32 := by
    unfold sub32
    omega
  rw [epbOptions, padded, if_pos (by omega), size]

/-- Between the two, the window offset or the guard wraps and the window is not
empty. -/
theorem epbOptions_of_middle {base length caplen : Nat} (le : Bool) (bounded : length < 2 ^ 32)
    (long : 32 ≤ length) (above : 2 ^ 32 - 36 < caplen) (below : caplen ≤ 2 ^ 32 - 4) :
    (epbOptions base length caplen le).size ≠ 0 := by
  have wrapped : (8 + 20 + pad4 caplen) % 2 ^ 32 = (28 + roundUp4 caplen) % 2 ^ 32 := by
    unfold pad4 roundUp4
    omega
  rw [epbOptions, wrapped, if_pos (by unfold roundUp4; omega)]
  change sub32 (sub32 length ((28 + roundUp4 caplen) % 2 ^ 32)) 4 ≠ 0
  unfold sub32 roundUp4
  omega

/-- A scan over an empty window reads nothing. -/
theorem epbFlagsM_empty {file : Bytes} {lo hi : Nat} (le : Bool) {options : Options}
    (empty : options.size = 0) :
    epbFlagsM (guardedByte file lo hi) le options = some (epbFlags file le options) := by
  rw [epbFlagsM, epbFlags, epbFlagsM, empty]
  rfl

theorem epbFlagsM_guarded {file : Bytes} {lo hi : Nat} (le : Bool) {options : Options}
    (within : options.Within lo hi) :
    epbFlagsM (guardedByte file lo hi) le options = some (epbFlags file le options) :=
  epbFlagsLoopM_guarded le options.size 0 within

/-- The option window of an emitted EPB is exact, and its scan stays behind the
packet data and in the block, exactly when the captured length is `windowSafe`. -/
theorem optionsExact_iff {file : Bytes} {ref : BlockRef} {view : EpbView}
    (emitted : ref ∈ (scanBlocks file).refs) (packet : ref.kind = .epb) (long : 32 ≤ ref.length)
    (parsed : parseEpb file ref = some view) :
    OptionsExact file ref view ↔ windowSafe (epbCaplen file ref) ref.length := by
  have bounded := (emitted_sound emitted).length_lt
  have field := epbCaplen_lt file ref
  obtain ⟨-, -, caplen, options, flags⟩ := parseEpb_epb packet parsed
  constructor
  · intro exact
    have window := exact.window
    rw [caplen] at window
    by_cases small : epbCaplen file ref ≤ 2 ^ 32 - 36
    · exact .inl small
    · -- past the bound an exact window would end behind the block
      have empty : view.options.size = 0 := by
        rcases window with empty | ⟨-, spans⟩
        · exact empty
        · unfold roundUp4 at spans
          omega
      by_cases large : 2 ^ 32 - 4 < epbCaplen file ref
      · rw [options, epbOptions_of_large _ bounded long field large] at empty
        exact .inr ⟨large, by dsimp only at empty; omega⟩
      · rw [options] at empty
        exact absurd empty (epbOptions_of_middle _ bounded long (by omega) (by omega))
  · rintro (small | ⟨large, exactLength⟩)
    · rw [epbOptions_of_small _ bounded small] at options
      have rounded : epbCaplen file ref ≤ roundUp4 (epbCaplen file ref) := by
        unfold roundUp4
        omega
      split at options
      next fits =>
        constructor
        · right
          rw [caplen, options]
          exact ⟨rfl, by dsimp only; omega⟩
        · rw [caplen, flags]
          apply epbFlagsM_guarded
          rw [options]
          rintro _ ⟨rfl⟩
          dsimp only
          omega
      · exact ⟨.inl (by rw [options]), by rw [flags]; exact epbFlagsM_empty _ (by rw [options])⟩
    · rw [epbOptions_of_large _ bounded long field large] at options
      have empty : view.options.size = 0 := by
        rw [options]
        dsimp only
        omega
      exact ⟨.inl empty, by rw [flags]; exact epbFlagsM_empty _ empty⟩

/-- With a captured length of `2 ^ 32 - 32` the window starts `2 ^ 32 - 4` bytes
behind the block and is as long as the block. -/
theorem optionsExact_fails :
    ∃ file ref view, ref ∈ (scanBlocks file).refs ∧ ref.kind = .epb ∧ 32 ≤ ref.length ∧
      parseEpb file ref = some view ∧ ¬ OptionsExact file ref view := by
  have emitted : emptyEpbRef ∈ (scanBlocks (emptyEpbCapture [0xE0, 0xFF, 0xFF, 0xFF])).refs := by
    decide +kernel
  have accepted := parseEpb_isSome emitted rfl (by decide)
  obtain ⟨view, parsed⟩ := Option.isSome_iff_exists.mp accepted
  refine ⟨_, _, view, emitted, rfl, by decide, parsed, fun exact => ?_⟩
  have claimed : epbCaplen (emptyEpbCapture [0xE0, 0xFF, 0xFF, 0xFF]) emptyEpbRef =
      2 ^ 32 - 32 := by decide +kernel
  obtain ⟨-, -, caplen, options, -⟩ := parseEpb_epb rfl parsed
  have window := exact.window
  rw [caplen, options, claimed] at window
  revert window
  decide

theorem optionsExact_iff_flaggedEpb :
    parseEpb flaggedEpbCapture flaggedEpbRef = some flaggedEpbView ∧
      OptionsExact flaggedEpbCapture flaggedEpbRef flaggedEpbView :=
  ⟨parseEpb_flaggedEpb, (optionsExact_iff mem_refs_flaggedEpb rfl (by decide)
    parseEpb_flaggedEpb).mpr (by decide +kernel)⟩

end Nanotins.PcapBlocks
