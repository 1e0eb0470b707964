import Nanotins.PcapBlocks.PacketBlocks

/-!
Contract: what `parse_epb` reads of the memory that the file lies in.

Owns: the parser over an arbitrary byte reader, that on a reader which faults outside
the file only its option scan can fault (`parseEpbM_guarded`), and the captured
lengths for which it does (`escapes_of_outside`, `outside_of_escapes`).

Does not own: the other parsers, whose reads their own checks bound.
-/

namespace Nanotins.PcapBlocks

open Nanotins.Library

/-! ### The parser over a reader -/

/-- `parse_epb` of a file of `size` bytes. -/
def parseEpbM {m : Type → Type} [Monad m] (rd : Nat → m UInt8) (size : Nat) (ref : BlockRef) :
    m (Option EpbView) :=
  if size < ref.fileOffset + ref.length then return none
  else
    let base := ref.fileOffset
    let le := ref.littleEndian
    if ref.kind = .pcapRecord then
      if ref.length < 16 then return none
      else do
        let tsSec ← rd32M rd base le
        let tsFrac ← rd32M rd (base + 4) le
        let caplen ← rd32M rd (base + 8) le
        let origlen ← rd32M rd (base + 12) le
        return some {
          interfaceId := 0
          tsRaw := tsSec * 2 ^ 32 + tsFrac
          caplen := caplen
          origlen := origlen
          payloadFileOffset := ref.fileOffset + 16
          epbFlags := 0
          options := ⟨none, 0, le⟩ }
    else if ref.kind ≠ .epb ∨ ref.length < 32 then return none
    else do
      let body := base + 8
      let interfaceId ← rd32M rd body le
      let tsHigh ← rd32M rd (body + 4) le
      let tsLow ← rd32M rd (body + 8) le
      let caplen ← rd32M rd (body + 12) le
      let origlen ← rd32M rd (body + 16) le
      let options := epbOptions base ref.length caplen le
      let epbFlags ← epbFlagsM rd le options
      return some {
        interfaceId := interfaceId
        tsRaw := tsHigh * 2 ^ 32 + tsLow
        caplen := caplen
        origlen := origlen
        payloadFileOffset := ref.fileOffset + 8 + 20
        epbFlags := epbFlags
        options := options }

/-! ### The option scan -/

section Scan

variable {file : Bytes} {hi : Nat}

theorem rd16M_fault {off : Nat} (le : Bool) (outside : hi < off + 2) :
    rd16M (guardedByte file 0 hi) off le = none := by
  cases le
  · exact readBigM_fault Nat.two_pos outside
  · exact readLittleM_fault Nat.two_pos outside

theorem rd32M_fault {off : Nat} (le : Bool) (outside : hi < off + 4) :
    rd32M (guardedByte file 0 hi) off le = none := by
  cases le
  · exact readBigM_fault (Nat.succ_pos 3) outside
  · exact readLittleM_fault (Nat.succ_pos 3) outside

/-- A cursor step reads the four bytes of an option header, if the window has them. -/
theorem nextOptionM_fault {cursor : Options} {data : Nat} (start : cursor.data = some data)
    (enough : 4 ≤ cursor.size) (outside : hi < data + 4) :
    nextOptionM (guardedByte file 0 hi) cursor = none := by
  rw [nextOptionM, start]
  dsimp only
  rw [if_neg (Nat.not_lt.mpr enough)]
  by_cases code : hi < data + 2
  · rw [rd16M_fault _ code]
    rfl
  · rw [rd16M_guarded _ (Nat.zero_le _) (by omega), rd16M_fault _ (by omega)]
    rfl

/-- A cursor step that does not fault reports what stands in the file. -/
theorem nextOption_of_read {cursor : Options} {step : Option (BlockOption × Options)}
    (read : nextOptionM (guardedByte file 0 hi) cursor = some step) :
    step = nextOption file cursor := by
  cases start : cursor.data with
  | none =>
      rw [nextOptionM, start] at read
      rw [nextOption_of_none start]
      exact (Option.some.inj read).symm
  | some data =>
      have within : cursor.size < 4 ∨ data + 4 ≤ hi := by
        by_contra outside
        rw [nextOptionM_fault start (by omega) (by omega)] at read
        contradiction
      rw [nextOptionM, start] at read
      rw [nextOption_of_some start]
      dsimp only at read ⊢
      by_cases short : cursor.size < 4
      · rw [if_pos short] at read ⊢
        exact (Option.some.inj read).symm
      rw [if_neg short, rd16M_guarded _ (Nat.zero_le _) (by omega),
        rd16M_guarded _ (Nat.zero_le _) (by omega)] at read
      change (if _ then some none else if _ then some none else some (some _)) = _ at read
      rw [if_neg short]
      split_ifs at read ⊢ <;> exact (Option.some.inj read).symm

/-- An option scan that does not fault finds what stands in the file. -/
theorem epbFlagsLoop_of_read (le : Bool) (fuel : Nat) {cursor : Options} {flags result : Nat}
    (read : epbFlagsLoopM (guardedByte file 0 hi) le fuel cursor flags = some result) :
    result = epbFlagsLoop file le fuel cursor flags := by
  induction fuel generalizing cursor flags with
  | zero => exact (Option.some.inj read).symm
  | succ fuel inductionHypothesis =>
      rw [epbFlagsLoopM] at read
      rw [epbFlagsLoop_succ]
      obtain ⟨step, taken, goesOn⟩ := Option.bind_eq_some_iff.mp read
      rw [← nextOption_of_read taken]
      cases step with
      | none => exact (Option.some.inj goesOn).symm
      | some step =>
          obtain ⟨opt, rest⟩ := step
          dsimp only at goesOn ⊢
          by_cases isFlags : opt.code = 2 ∧ 4 ≤ opt.length
          · rw [if_pos isFlags] at goesOn ⊢
            obtain ⟨found, value, goesOn⟩ := Option.bind_eq_some_iff.mp goesOn
            have inside : opt.value + 4 ≤ hi := by
              by_contra outside
              rw [rd32M_fault le (Nat.not_le.mp outside)] at value
              contradiction
            rw [rd32M_guarded le (Nat.zero_le _) inside] at value
            rw [Option.some.inj value]
            exact inductionHypothesis goesOn
          · rw [if_neg isFlags] at goesOn ⊢
            exact inductionHypothesis goesOn

end Scan

/-- The option scan of a parsed packet reads nothing outside the file. -/
def OptionsInside (file : Bytes) (e : EpbView) : Prop :=
  epbFlagsM (guardedByte file 0 file.length) e.options.littleEndian e.options ≠ none

instance (file : Bytes) (e : EpbView) : Decidable (OptionsInside file e) :=
  inferInstanceAs (Decidable (_ ≠ none))

theorem within_of_null {cursor : Options} {lo hi : Nat} (null : cursor.data = none) :
    cursor.Within lo hi := by
  intro data start
  rw [null] at start
  contradiction

/-- The option scan of a packet faults exactly if it leaves the file. -/
theorem epbFlagsM_of_order {file : Bytes} {e : EpbView} {le : Bool}
    (order : e.options.littleEndian = le) :
    epbFlagsM (guardedByte file 0 file.length) le e.options =
      if OptionsInside file e then some (epbFlags file le e.options) else none := by
  subst order
  by_cases inside : OptionsInside file e
  · obtain ⟨flags, read⟩ := Option.ne_none_iff_exists'.mp inside
    rw [if_pos inside, read]
    exact congrArg some (epbFlagsLoop_of_read _ _ read)
  · rw [if_neg inside]
    exact Decidable.not_not.mp inside

theorem optionsInside_of_within {file : Bytes} {e : EpbView}
    (within : e.options.Within 0 file.length) : OptionsInside file e := by
  rw [OptionsInside, epbFlagsM_guarded _ within]
  exact Option.some_ne_none _

/-- The parser faults exactly if its option scan leaves the file; else it returns what
`parseEpb` does. -/
theorem parseEpbM_guarded (file : Bytes) (ref : BlockRef) :
    parseEpbM (guardedByte file 0 file.length) file.length ref =
      match parseEpb file ref with
      | none => some none
      | some e => if OptionsInside file e then some (some e) else none := by
  rw [parseEpbM, parseEpb]
  by_cases cut : file.length < ref.fileOffset + ref.length
  · rw [if_pos cut, if_pos cut]
    rfl
  have word : ∀ {off : Nat}, off + 4 ≤ ref.fileOffset + ref.length →
      rd32M (guardedByte file 0 file.length) off ref.littleEndian =
        some (rd32 file off ref.littleEndian) :=
    fun inside => rd32M_guarded _ (Nat.zero_le _) (by omega)
  rw [if_neg cut, if_neg cut]
  dsimp only
  by_cases record : ref.kind = .pcapRecord
  · rw [if_pos record, if_pos record]
    by_cases short : ref.length < 16
    · rw [if_pos short, if_pos short]
      rfl
    rw [if_neg short, if_neg short, word (by omega), word (by omega), word (by omega),
      word (by omega)]
    dsimp only
    rw [if_pos (optionsInside_of_within (within_of_null rfl))]
    rfl
  rw [if_neg record, if_neg record]
  by_cases other : ref.kind ≠ .epb ∨ ref.length < 32
  · rw [if_pos other, if_pos other]
    rfl
  have long : 32 ≤ ref.length := Nat.not_lt.mp (not_or.mp other).2
  rw [if_neg other, if_neg other, word (by omega), word (by omega), word (by omega),
    word (by omega), word (by omega)]
  let options := epbOptions ref.fileOffset ref.length
    (rd32 file (ref.fileOffset + 8 + 12) ref.littleEndian) ref.littleEndian
  have order : options.littleEndian = ref.littleEndian := by
    dsimp only [options, epbOptions]
    split <;> rfl
  let e : EpbView := {
    interfaceId := rd32 file (ref.fileOffset + 8) ref.littleEndian
    tsRaw := rd32 file (ref.fileOffset + 8 + 4) ref.littleEndian * 2 ^ 32 +
      rd32 file (ref.fileOffset + 8 + 8) ref.littleEndian
    caplen := rd32 file (ref.fileOffset + 8 + 12) ref.littleEndian
    origlen := rd32 file (ref.fileOffset + 8 + 16) ref.littleEndian
    payloadFileOffset := ref.fileOffset + 8 + 20
    epbFlags := epbFlags file ref.littleEndian options
    options := options }
  show (epbFlagsM (guardedByte file 0 file.length) ref.littleEndian e.options >>= fun flags =>
    some (some { e with epbFlags := flags })) = if OptionsInside file e then some (some e) else none
  rw [epbFlagsM_of_order order]
  split_ifs <;> rfl

/-! ### The option window -/

/-- The captured lengths whose option window starts four bytes before `2 ^ 32` bytes
behind the start of the block. -/
structure WindowEscapes (file : Bytes) (ref : BlockRef) : Prop where
  epb : ref.kind = .epb
  long : 32 ≤ ref.length
  above : 2 ^ 32 - 36 < epbCaplen file ref
  below : epbCaplen file ref ≤ 2 ^ 32 - 32

section Window

variable {base length caplen : Nat} (bounded : length < 2 ^ 32) (long : 32 ≤ length)

include bounded long

/-- Every other window lies in the block, if not behind the packet data. -/
theorem epbOptions_within (le : Bool) (field : caplen < 2 ^ 32)
    (stays : ¬ (2 ^ 32 - 36 < caplen ∧ caplen ≤ 2 ^ 32 - 32)) :
    (epbOptions base length caplen le).Within base (base + length) := by
  by_cases small : caplen ≤ 2 ^ 32 - 36
  · rw [epbOptions_of_small le bounded small]
    split
    · rintro _ ⟨rfl⟩
      dsimp only
      omega
    · exact within_of_null rfl
  by_cases large : 2 ^ 32 - 4 < caplen
  · rw [epbOptions_of_large le bounded long field large]
    rintro _ ⟨rfl⟩
    dsimp only
    omega
  · -- the offset has wrapped to one of 0, 4, .., 24
    have wrapped : (8 + 20 + pad4 caplen) % 2 ^ 32 = 28 + roundUp4 caplen - 2 ^ 32 := by
      unfold pad4 roundUp4
      omega
    rw [epbOptions, wrapped]
    split
    · intro data start
      have here := Option.some.inj start
      dsimp only
      unfold sub32
      unfold roundUp4 at here ⊢
      omega
    · exact within_of_null rfl

theorem epbOptions_of_escape (le : Bool) (above : 2 ^ 32 - 36 < caplen)
    (below : caplen ≤ 2 ^ 32 - 32) :
    epbOptions base length caplen le = ⟨some (base + (2 ^ 32 - 4)), length, le⟩ := by
  have wrapped : (8 + 20 + pad4 caplen) % 2 ^ 32 = 2 ^ 32 - 4 := by
    unfold pad4
    omega
  have size : sub32 (sub32 length (2 ^ 32 - 4)) 4 = length := by
    unfold sub32
    omega
  rw [epbOptions, wrapped, if_pos (by omega), size]

end Window

section Escapes

variable {file : Bytes} {ref : BlockRef} {e : EpbView}

/-- The options of a block lie in it, but for the captured lengths above. -/
theorem optionsInside_of_stays (inside : ref.fileOffset + ref.length ≤ file.length)
    (bounded : ref.length < 2 ^ 32) (parsed : parseEpb file ref = some e)
    (stays : ¬ WindowEscapes file ref) : OptionsInside file e := by
  by_cases packet : ref.kind = .epb
  · obtain ⟨long, -, -, options, -⟩ := parseEpb_epb packet parsed
    have within : (epbOptions ref.fileOffset ref.length (epbCaplen file ref)
        ref.littleEndian).Within ref.fileOffset (ref.fileOffset + ref.length) :=
      epbOptions_within bounded long _ (epbCaplen_lt file ref) fun wraps =>
        stays ⟨packet, long, wraps.1, wraps.2⟩
    rw [← options] at within
    refine optionsInside_of_within fun data start => ?_
    have := within data start
    omega
  · have record : ref.kind = .pcapRecord := by
      by_contra other
      rw [parseEpb, if_neg (Nat.not_lt.mpr inside)] at parsed
      dsimp only at parsed
      rw [if_neg other, if_pos (.inl packet)] at parsed
      contradiction
    rw [parseEpb, if_neg (Nat.not_lt.mpr inside)] at parsed
    dsimp only at parsed
    rw [if_pos record] at parsed
    split at parsed
    · contradiction
    · cases parsed
      exact optionsInside_of_within (within_of_null rfl)

/-- The parser reads nothing outside the file, but for the captured lengths above. -/
theorem parseEpbM_of_stays (emitted : ref ∈ (scanBlocks file).refs)
    (stays : ¬ WindowEscapes file ref) :
    parseEpbM (guardedByte file 0 file.length) file.length ref = some (parseEpb file ref) := by
  have sound := emitted_sound emitted
  rw [parseEpbM_guarded]
  cases parsed : parseEpb file ref with
  | none => rfl
  | some e => exact if_pos (optionsInside_of_stays sound.inside sound.length_lt parsed stays)

/-- A packet whose option scan leaves the file has one of the captured lengths above. -/
theorem escapes_of_outside (emitted : ref ∈ (scanBlocks file).refs)
    (parsed : parseEpb file ref = some e) (outside : ¬ OptionsInside file e) :
    WindowEscapes file ref := by
  have sound := emitted_sound emitted
  by_contra stays
  exact outside (optionsInside_of_stays sound.inside sound.length_lt parsed stays)

/-- In a file below 4 GiB the scan of such a packet reads past the end at once. -/
theorem outside_of_escapes (small : file.length < 2 ^ 32) (emitted : ref ∈ (scanBlocks file).refs)
    (parsed : parseEpb file ref = some e) (escapes : WindowEscapes file ref) :
    ¬ OptionsInside file e := by
  obtain ⟨long, -, -, options, -⟩ := parseEpb_epb escapes.epb parsed
  rw [epbOptions_of_escape (emitted_sound emitted).length_lt long _ escapes.above escapes.below]
    at options
  rw [OptionsInside, options, epbFlagsM]
  obtain ⟨fuel, size⟩ := Nat.exists_eq_succ_of_ne_zero (Nat.ne_of_gt (Nat.zero_lt_of_lt long))
  dsimp only
  rw [size, epbFlagsLoopM, nextOptionM_fault rfl (by dsimp only; omega) (by omega)]
  exact fun ran => ran rfl

end Escapes

end Nanotins.PcapBlocks
