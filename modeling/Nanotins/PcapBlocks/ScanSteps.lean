import Nanotins.Library.ResumableScan
import Nanotins.PcapBlocks.Blocks

/-!
Contract: `scanWindow` is a resumable scanner run to the end of its window.

Owns: the scanner step of the two formats, its stability under longer input,
the agreement of the record and block loops with the scanner's run, and the
characterisation `scanWindow_eq` of a whole call.

Does not own: what a sequence of calls computes.
-/

namespace Nanotins.PcapBlocks

open Nanotins.Library

/-- Moving a reference by `n` bytes moves where it starts. -/
instance : AddAction Nat BlockRef where
  vadd n ref := { ref with fileOffset := n + ref.fileOffset }
  zero_vadd ref := by cases ref; simp [HVAdd.hVAdd]
  add_vadd n k ref := by cases ref; simp [HVAdd.hVAdd, Nat.add_assoc]

theorem vadd_blockRef (n : Nat) (ref : BlockRef) :
    n +ᵥ ref = { ref with fileOffset := n + ref.fileOffset } :=
  rfl

/-! ### Headers read from a window -/

theorem rd32_append (input rest : Bytes) {off : Nat} (le : Bool) (inside : off + 4 ≤ input.length) :
    rd32 (input ++ rest) off le = rd32 input off le := by
  have agree : ∀ i < 4, byteAt (input ++ rest) (off + i) = byteAt input (off + i) :=
    fun i below => byteAt_append_left input rest (by omega)
  cases le
  · exact readBig_congr agree
  · exact readLittle_congr agree

theorem rd32_drop (file : Bytes) (base off : Nat) (le : Bool) :
    rd32 (file.drop base) off le = rd32 file (base + off) le := by
  have agree : ∀ i < 4, byteAt (file.drop base) (off + i) = byteAt file (base + off + i) :=
    fun i _ => by rw [byteAt_drop, Nat.add_assoc]
  cases le
  · exact readBig_congr agree
  · exact readLittle_congr agree

theorem rd32_lt (file : Bytes) (off : Nat) (le : Bool) : rd32 file off le < 2 ^ 32 := by
  cases le
  · exact readBig_lt file off 4
  · exact readLittle_lt file off 4

theorem blockHeader_append (st : ScanState) (input rest : Bytes) (inside : 12 ≤ input.length) :
    blockHeader st (input ++ rest) 0 = blockHeader st input 0 := by
  unfold blockHeader
  rw [rd32_append input rest _ (by omega), rd32_append input rest _ (by omega)]
  simp only [rd32_append input rest _ (show 0 + 4 ≤ input.length by omega),
    rd32_append input rest _ (show 0 + 4 + 4 ≤ input.length by omega)]

theorem blockHeader_drop (st : ScanState) (file : Bytes) (pos : Nat) :
    blockHeader st (file.drop pos) 0 = blockHeader st file pos := by
  simp only [blockHeader, rd32_drop, Nat.zero_add, Nat.add_zero]

/-! ### The scanner -/

/-- Recognise the format from the leading magic. -/
def detectStep (st : ScanState) (input : Bytes) : ScanStep ScanState ScanError BlockRef :=
  if input.length < 4 then .more
  else
    let lead := rd32 input 0 true
    if lead = kBlockTypeShb then
      .emit [] 0 { st with isPcapng := true, started := true }
    else if isPcapMagic lead then
      if input.length < 24 then .more
      else
        let le := isPcapMagicLe lead
        let link := rd32 input 20 le
        .emit [⟨0, 24, link, .idb, le⟩] 24 ⟨true, false, le, link⟩
    else .fail .unrecognizedMagic

/-- Take one legacy pcap record. -/
def recordStep (st : ScanState) (input : Bytes) : ScanStep ScanState ScanError BlockRef :=
  if input.length < 16 then .more
  else
    let total := 16 + rd32 input 8 st.littleEndian
    if input.length < total then .more
    else .emit [⟨0, total % 2 ^ 32, st.pcapLinkType, .pcapRecord, st.littleEndian⟩] total st

/-- Take one pcapng block. -/
def blockStep (st : ScanState) (input : Bytes) : ScanStep ScanState ScanError BlockRef :=
  if input.length < 12 then .more
  else
    let (isShb, type, total, le) := blockHeader st input 0
    if total < 12 then .fail .blockLengthInvalid
    else if input.length < total then .more
    else
      .emit [⟨0, total, type, classifyBlockType type, le⟩] total (commitByteOrder st isShb le)

def scanStep (st : ScanState) (input : Bytes) : ScanStep ScanState ScanError BlockRef :=
  if st.started = false then detectStep st input
  else if st.isPcapng = false then recordStep st input
  else blockStep st input

/-! Everything a step that emits can do. -/

section Emit

variable {st next : ScanState} {input : Bytes} {refs : List BlockRef} {n : Nat}

theorem detectStep_emit (covered : detectStep st input = .emit refs n next) :
    (refs = [] ∧ n = 0 ∧ next = { st with isPcapng := true, started := true }) ∨
    (24 ≤ input.length ∧ n = 24 ∧
      let le := isPcapMagicLe (rd32 input 0 true)
      refs = [⟨0, 24, rd32 input 20 le, .idb, le⟩] ∧ next = ⟨true, false, le, rd32 input 20 le⟩) := by
  unfold detectStep at covered
  split at covered
  · contradiction
  · dsimp only at covered
    split at covered
    · cases covered
      exact .inl ⟨rfl, rfl, rfl⟩
    · split at covered
      · split at covered
        · contradiction
        · cases covered
          exact .inr ⟨by omega, rfl, rfl, rfl⟩
      · contradiction

theorem recordStep_emit (covered : recordStep st input = .emit refs n next) :
    n = 16 + rd32 input 8 st.littleEndian ∧ n ≤ input.length ∧
      refs = [⟨0, n % 2 ^ 32, st.pcapLinkType, .pcapRecord, st.littleEndian⟩] ∧ next = st := by
  unfold recordStep at covered
  split at covered
  · contradiction
  · dsimp only at covered
    split at covered
    · contradiction
    · cases covered
      exact ⟨rfl, by omega, rfl, rfl⟩

theorem blockStep_emit (covered : blockStep st input = .emit refs n next) :
    12 ≤ n ∧ n ≤ input.length ∧
      let (isShb, type, total, le) := blockHeader st input 0
      n = total ∧ refs = [⟨0, total, type, classifyBlockType type, le⟩] ∧
        next = commitByteOrder st isShb le := by
  unfold blockStep at covered
  split at covered
  · contradiction
  · dsimp only at covered
    split at covered
    · contradiction
    · split at covered
      · contradiction
      · cases covered
        exact ⟨by omega, by omega, rfl, rfl, rfl⟩

end Emit

/-! A step that decides on a prefix decides in the same way on longer input:
each header is complete before it is looked at. -/

section Stable

variable {st : ScanState} {input : Bytes} (rest : Bytes)

theorem detectStep_stable (decided : detectStep st input ≠ .more) :
    detectStep st (input ++ rest) = detectStep st input := by
  have long : ¬ input.length < 4 := fun short => decided (if_pos short)
  have longer : input.length ≤ (input ++ rest).length := by simp
  unfold detectStep at decided ⊢
  rw [if_neg long] at decided ⊢
  rw [if_neg (by omega), rd32_append input rest _ (by omega)]
  dsimp only at decided ⊢
  split
  · rfl
  next notShb =>
    rw [if_neg notShb] at decided
    split
    next magic =>
      rw [if_pos magic] at decided
      have whole : ¬ input.length < 24 := fun cut => decided (if_pos cut)
      rw [if_neg whole, if_neg (by omega), rd32_append input rest _ (by omega)]
    · rfl

theorem recordStep_stable (decided : recordStep st input ≠ .more) :
    recordStep st (input ++ rest) = recordStep st input := by
  have long : ¬ input.length < 16 := fun short => decided (if_pos short)
  have longer : input.length ≤ (input ++ rest).length := by simp
  unfold recordStep at decided ⊢
  rw [if_neg long] at decided ⊢
  have whole : ¬ input.length < 16 + rd32 input 8 st.littleEndian := fun cut =>
    decided (if_pos cut)
  rw [if_neg (by omega), rd32_append input rest _ (by omega)]
  dsimp only
  rw [if_neg whole, if_neg (by omega)]

theorem blockStep_stable (decided : blockStep st input ≠ .more) :
    blockStep st (input ++ rest) = blockStep st input := by
  have long : ¬ input.length < 12 := fun short => decided (if_pos short)
  have longer : input.length ≤ (input ++ rest).length := by simp
  unfold blockStep at decided ⊢
  rw [if_neg long] at decided ⊢
  rw [if_neg (by omega), blockHeader_append st input rest (by omega)]
  dsimp only at decided ⊢
  split
  · rfl
  next valid =>
    rw [if_neg valid] at decided
    have whole : ¬ input.length < (blockHeader st input 0).2.2.1 := fun cut =>
      decided (if_pos cut)
    have stillWhole : ¬ (input ++ rest).length < (blockHeader st input 0).2.2.1 := by omega
    exact (if_neg stillWhole).trans (if_neg whole).symm

theorem scanStep_stable (decided : scanStep st input ≠ .more) :
    scanStep st (input ++ rest) = scanStep st input := by
  unfold scanStep at decided ⊢
  split
  next fresh => exact detectStep_stable rest (by rwa [if_pos fresh] at decided)
  next running =>
    rw [if_neg running] at decided
    split
    next legacy => exact recordStep_stable rest (by rwa [if_pos legacy] at decided)
    next blocks => exact blockStep_stable rest (by rwa [if_neg blocks] at decided)

end Stable

/-- The scanner behind `scan_window`. -/
def blockScanner : Scanner UInt8 ScanState ScanError BlockRef where
  step := scanStep
  phase st := if st.started then 0 else 1
  consumed_le covered := by
    unfold scanStep at covered
    split at covered
    · rcases detectStep_emit covered with ⟨-, rfl, -⟩ | ⟨long, rfl, -⟩
      · omega
      · exact long
    · split at covered
      · exact (recordStep_emit covered).2.1
      · exact (blockStep_emit covered).2.1
  progress covered := by
    unfold scanStep at covered
    split at covered
    next fresh =>
      rcases detectStep_emit covered with ⟨-, -, rfl⟩ | ⟨-, rfl, -⟩
      · right
        simp [fresh]
      · left
        omega
    · left
      split at covered
      · have := (recordStep_emit covered).1
        omega
      · have := (blockStep_emit covered).1
        omega
  stable := scanStep_stable

theorem step_of_fresh {st : ScanState} (fresh : st.started = false) (input : Bytes) :
    blockScanner.step st input = detectStep st input :=
  if_pos fresh

theorem step_of_legacy {st : ScanState} (started : st.started = true)
    (legacy : st.isPcapng = false) (input : Bytes) :
    blockScanner.step st input = recordStep st input := by
  change scanStep st input = _
  rw [scanStep, if_neg (by simp [started]), if_pos legacy]

theorem step_of_pcapng {st : ScanState} (started : st.started = true)
    (isPcapng : st.isPcapng = true) (input : Bytes) :
    blockScanner.step st input = blockStep st input := by
  change scanStep st input = _
  rw [scanStep, if_neg (by simp [started]), if_neg (by simp [isPcapng])]

theorem commitByteOrder_started (st : ScanState) (isShb le : Bool) :
    (commitByteOrder st isShb le).started = st.started := by
  cases isShb <;> rfl

theorem commitByteOrder_isPcapng (st : ScanState) (isShb le : Bool) :
    (commitByteOrder st isShb le).isPcapng = st.isPcapng := by
  cases isShb <;> rfl

/-- Once started, a scan stays started. -/
theorem run_started {st : ScanState} (started : st.started = true) (input : Bytes) :
    (blockScanner.run st input).state.started = true := by
  refine Scanner.run_state (P := fun st : ScanState => st.started = true) ?_ started input
  intro st input refs n next started covered
  by_cases legacy : st.isPcapng = false
  · rw [step_of_legacy started legacy] at covered
    obtain ⟨-, -, -, rfl⟩ := recordStep_emit covered
    exact started
  · rw [step_of_pcapng started (by simpa using legacy)] at covered
    obtain ⟨-, -, -, -, rfl⟩ := blockStep_emit covered
    rw [commitByteOrder_started, started]

/-! ### The loops are the scanner's run -/

section Loops

variable {st : ScanState}

/-- The record loop, seen from `pos`, is the run over the unread rest. -/
theorem pcapLoop_eq_run (started : st.started = true) (legacy : st.isPcapng = false)
    (file : Bytes) (pos : Nat) :
    let scan := blockScanner.run st (file.drop pos)
    pcapLoop st file pos = (pos + scan.consumed, scan.items.map (pos +ᵥ ·)) ∧
      scan.state = st ∧ scan.error = none := by
  induction pos using pcapLoop.induct st file with
  | case1 pos header inclLen total cut =>
      have undecided : blockScanner.step st (file.drop pos) = .more := by
        rw [step_of_legacy started legacy, recordStep, List.length_drop, rd32_drop,
          if_neg (by omega)]
        exact if_pos (by omega)
      rw [Scanner.run_of_more undecided, pcapLoop, if_pos header]
      exact ⟨if_pos cut, rfl, rfl⟩
  | case2 pos header inclLen total fits inductionHypothesis =>
      have covered : blockScanner.step st (file.drop pos) =
          .emit [⟨0, total % 2 ^ 32, st.pcapLinkType, .pcapRecord, st.littleEndian⟩] total st := by
        rw [step_of_legacy started legacy, recordStep, List.length_drop, rd32_drop,
          if_neg (by omega)]
        exact if_neg (by omega)
      obtain ⟨loop, sameState, noError⟩ := inductionHypothesis
      rw [Scanner.run_of_emit covered, List.drop_drop]
      refine ⟨?_, sameState, noError⟩
      rw [pcapLoop, if_pos header]
      dsimp only
      rw [if_neg fits, loop]
      simp [Scan.after, vadd_blockRef, Nat.add_assoc, total, inclLen]
  | case3 pos short =>
      have undecided : blockScanner.step st (file.drop pos) = .more := by
        rw [step_of_legacy started legacy, recordStep, List.length_drop]
        exact if_pos (by omega)
      rw [Scanner.run_of_more undecided, pcapLoop, if_neg short]
      exact ⟨rfl, rfl, rfl⟩

/-- The block loop, seen from `pos`, is the run over the unread rest. -/
theorem pcapngLoop_eq_run (started : st.started = true) (isPcapng : st.isPcapng = true)
    (file : Bytes) (pos : Nat) :
    let scan := blockScanner.run st (file.drop pos)
    pcapngLoop st file pos =
      (scan.state, pos + scan.consumed, scan.items.map (pos +ᵥ ·), scan.error) := by
  induction st, pos using pcapngLoop.induct file with
  | case1 st pos header isShb type total le parsed invalid =>
      have failed : blockScanner.step st (file.drop pos) = .fail .blockLengthInvalid := by
        rw [step_of_pcapng started isPcapng, blockStep, List.length_drop, blockHeader_drop,
          if_neg (by omega), parsed]
        exact if_pos invalid
      rw [Scanner.run_of_fail failed, pcapngLoop, if_pos header, parsed]
      exact if_pos invalid
  | case2 st pos header isShb type total le parsed valid cut =>
      have undecided : blockScanner.step st (file.drop pos) = .more := by
        rw [step_of_pcapng started isPcapng, blockStep, List.length_drop, blockHeader_drop,
          if_neg (by omega), parsed]
        exact (if_neg valid).trans (if_pos (by omega))
      rw [Scanner.run_of_more undecided, pcapngLoop, if_pos header, parsed]
      exact (if_neg valid).trans (if_pos cut)
  | case3 st pos header isShb type total le parsed valid fits inductionHypothesis =>
      have covered : blockScanner.step st (file.drop pos) =
          .emit [⟨0, total, type, classifyBlockType type, le⟩] total
            (commitByteOrder st isShb le) := by
        rw [step_of_pcapng started isPcapng, blockStep, List.length_drop, blockHeader_drop,
          if_neg (by omega), parsed]
        exact (if_neg valid).trans (if_neg (by omega))
      have loop := inductionHypothesis ((commitByteOrder_started st isShb le).trans started)
        ((commitByteOrder_isPcapng st isShb le).trans isPcapng)
      rw [Scanner.run_of_emit covered, List.drop_drop, pcapngLoop, if_pos header, parsed]
      dsimp only at loop ⊢
      rw [if_neg valid, if_neg fits, loop]
      simp [Scan.after, vadd_blockRef, Nat.add_assoc]
  | case4 st pos short =>
      have undecided : blockScanner.step st (file.drop pos) = .more := by
        rw [step_of_pcapng started isPcapng, blockStep, List.length_drop]
        exact if_pos (by omega)
      rw [Scanner.run_of_more undecided, pcapngLoop, if_neg short]
      rfl

end Loops

end Nanotins.PcapBlocks
