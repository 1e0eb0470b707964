import Nanotins.PcapBlocks.SectionBlocks

/-!
Contract: when the scan of a legacy pcap and the parse of its references agree.

Owns: the record chain of a legacy capture, the references the record loop
emits for it, and the exact condition under which both phases report one link
type and the same records (`phasesAgree_iff`).

Does not own: pcapng captures.
-/

namespace Nanotins.PcapBlocks

open Nanotins.Library

/-! ### The records of a capture -/

/-- The captured length that the record header at `pos` declares. -/
def inclLen (file : Bytes) (le : Bool) (pos : Nat) : Nat := rd32 file (pos + 8) le

/-- `RecordFrom file le start pos`: following the record lengths from `start`, a
whole record stands at `pos`. -/
inductive RecordFrom (file : Bytes) (le : Bool) : Nat → Nat → Prop where
  | first {start : Nat} (whole : start + (16 + inclLen file le start) ≤ file.length) :
      RecordFrom file le start start
  | later {start pos : Nat} (whole : start + (16 + inclLen file le start) ≤ file.length)
      (rest : RecordFrom file le (start + (16 + inclLen file le start)) pos) :
      RecordFrom file le start pos

/-- The reference to the record at `pos`. -/
def recordRef (st : ScanState) (file : Bytes) (pos : Nat) : BlockRef :=
  ⟨pos, (16 + inclLen file st.littleEndian pos) % 2 ^ 32, st.pcapLinkType, .pcapRecord,
    st.littleEndian⟩

/-- Where the record before `later` ends: at the next record, or at the end of
the file. -/
def recordEnd (file : Bytes) : List BlockRef → Nat
  | [] => file.length
  | next :: _ => next.fileOffset

section Loop

variable {st : ScanState} {file : Bytes}

theorem pcapLoop_of_whole {pos : Nat}
    (whole : pos + (16 + inclLen file st.littleEndian pos) ≤ file.length) :
    pcapLoop st file pos =
      let rest := pcapLoop st file (pos + (16 + inclLen file st.littleEndian pos))
      (rest.1, recordRef st file pos :: rest.2) := by
  rw [pcapLoop, if_pos (by omega)]
  exact if_neg (Nat.not_lt.mpr whole)

theorem pcapLoop_of_cut {pos : Nat}
    (cut : ¬ pos + (16 + inclLen file st.littleEndian pos) ≤ file.length) :
    pcapLoop st file pos = (pos, []) := by
  rw [pcapLoop]
  split
  · exact if_pos (Nat.not_le.mp cut)
  · rfl

/-- No record stands behind a cut. -/
theorem not_recordFrom_of_cut {le : Bool} {pos place : Nat}
    (cut : ¬ pos + (16 + inclLen file le pos) ≤ file.length) :
    ¬ RecordFrom file le pos place := by
  intro chain
  cases chain with
  | first whole => exact cut whole
  | later whole _ => exact cut whole

/-- The record loop emits one reference for each record of the chain. -/
theorem mem_pcapLoop_iff (pos : Nat) (ref : BlockRef) :
    ref ∈ (pcapLoop st file pos).2 ↔
      ∃ place, RecordFrom file st.littleEndian pos place ∧ ref = recordRef st file place := by
  induction pos using pcapLoop.induct st file with
  | case1 pos header length total cut =>
      have cut : ¬ pos + (16 + inclLen file st.littleEndian pos) ≤ file.length := Nat.not_le.mpr cut
      rw [pcapLoop_of_cut cut]
      simp [not_recordFrom_of_cut cut]
  | case2 pos header length total fits inductionHypothesis =>
      have whole : pos + (16 + inclLen file st.littleEndian pos) ≤ file.length :=
        Nat.not_lt.mp fits
      rw [pcapLoop_of_whole whole, List.mem_cons]
      refine (or_congr_right inductionHypothesis).trans ?_
      constructor
      · rintro (rfl | ⟨place, chain, rfl⟩)
        · exact ⟨pos, .first whole, rfl⟩
        · exact ⟨place, .later whole chain, rfl⟩
      · rintro ⟨place, chain, rfl⟩
        cases chain with
        | first _ => exact .inl rfl
        | later _ rest => exact .inr ⟨place, rest, rfl⟩
  | case3 pos short =>
      have cut : ¬ pos + (16 + inclLen file st.littleEndian pos) ≤ file.length := by omega
      rw [pcapLoop_of_cut cut]
      simp [not_recordFrom_of_cut cut]

/-- A loop that reaches the end of the file leaves no gap behind any record. -/
theorem recordEnd_of_pcapLoop (pos : Nat) :
    (pcapLoop st file pos).1 = file.length → ∀ earlier ref later,
      (pcapLoop st file pos).2 = earlier ++ ref :: later →
        recordEnd file later =
          ref.fileOffset + (16 + inclLen file st.littleEndian ref.fileOffset) := by
  induction pos using pcapLoop.induct st file with
  | case1 pos header length total cut =>
      intro _ earlier ref later split
      rw [pcapLoop_of_cut (Nat.not_le.mpr cut)] at split
      simp at split
  | case2 pos header length total fits inductionHypothesis =>
      intro ended earlier ref later split
      have whole : pos + (16 + inclLen file st.littleEndian pos) ≤ file.length :=
        Nat.not_lt.mp fits
      rw [pcapLoop_of_whole whole] at ended split
      cases earlier with
      | cons first earlier =>
          exact inductionHypothesis ended earlier ref later (List.cons.inj split).2
      | nil =>
          rcases List.cons.inj split with ⟨rfl, rest⟩
          -- the next record, or the end, is where this record's length leads
          show recordEnd file later = pos + (16 + inclLen file st.littleEndian pos)
          generalize pos + (16 + inclLen file st.littleEndian pos) = next at ended rest
          rw [← rest]
          by_cases more : next + (16 + inclLen file st.littleEndian next) ≤ file.length
          · rw [pcapLoop_of_whole more]
            rfl
          · rw [pcapLoop_of_cut more] at ended ⊢
            exact ended.symm
  | case3 pos short =>
      intro _ earlier ref later split
      rw [pcapLoop_of_cut (by omega)] at split
      simp at split

end Loop

/-! ### A legacy capture -/

/-- The byte order of a legacy capture. -/
def legacyOrder (file : Bytes) : Bool := isPcapMagicLe (rd32 file 0 true)

/-- The network word of the global header. -/
def networkWord (file : Bytes) : Nat := rd32 file 20 (legacyOrder file)

/-- The synthetic IDB. -/
def headerRef (file : Bytes) : BlockRef := ⟨0, 24, networkWord file, .idb, legacyOrder file⟩

/-- The state behind the global header. -/
def legacyState (file : Bytes) : ScanState := ⟨true, false, legacyOrder file, networkWord file⟩

section Legacy

variable {file : Bytes}

/-- An accepted legacy capture is its global header and whole records. -/
theorem scanBlocks_legacy (legacy : isPcapMagic (rd32 file 0 true) = true)
    (accepted : (scanBlocks file).error = none) :
    24 ≤ file.length ∧ (pcapLoop (legacyState file) file 24).1 = file.length ∧
      (scanBlocks file).refs = headerRef file :: (pcapLoop (legacyState file) file 24).2 := by
  have notShb : rd32 file 0 true ≠ kBlockTypeShb := by
    intro shb
    rw [shb] at legacy
    exact absurd legacy (by decide)
  by_cases short : file.length < 4
  · rw [scanBlocks, scanWindow, if_neg (by decide), if_pos short] at accepted
    simp at accepted
  · by_cases cut : file.length < 24
    · rw [scanBlocks, scanWindow, if_neg (by decide), if_neg short, if_neg notShb, if_pos legacy,
        if_pos cut] at accepted
      simp at accepted
    · have started : scanBlocks file = scanFrom (legacyState file) file true 24 [headerRef file] := by
        rw [scanBlocks, scanWindow, if_neg (by decide), if_neg short]
        exact (if_neg notShb).trans ((if_pos legacy).trans (if_neg cut))
      rcases @pcapLoop_eq_run (legacyState file) rfl rfl file 24 with ⟨loop, -, -⟩
      have inside := blockScanner.run_consumed_le (legacyState file) (file.drop 24)
      rw [List.length_drop] at inside
      have ended : (pcapLoop (legacyState file) file 24).1 ≤ file.length := by
        rw [loop]
        omega
      rw [started] at accepted ⊢
      refine ⟨Nat.not_lt.mp cut, ?_, rfl⟩
      have complete : (if true && decide ((pcapLoop (legacyState file) file 24).1 < file.length)
          then some ScanError.trailingTruncatedBlock else none) = none := accepted
      by_cases unread : (pcapLoop (legacyState file) file 24).1 < file.length
      · simp [unread] at complete
      · omega

/-- The references to records are those of the record chain. -/
theorem mem_refs_iff (legacy : isPcapMagic (rd32 file 0 true) = true)
    (accepted : (scanBlocks file).error = none) (ref : BlockRef) :
    ref ∈ (scanBlocks file).refs ∧ ref.kind = .pcapRecord ↔
      ∃ pos, RecordFrom file (legacyOrder file) 24 pos ∧
        ref = recordRef (legacyState file) file pos := by
  rcases scanBlocks_legacy legacy accepted with ⟨-, -, refs⟩
  rw [refs, List.mem_cons, mem_pcapLoop_iff]
  constructor
  · rintro ⟨rfl | chain, record⟩
    · contradiction
    · exact chain
  · rintro ⟨pos, chain, rfl⟩
    exact ⟨.inr ⟨pos, chain, rfl⟩, rfl⟩

/-- Behind each record the scan reports the next one, or the file ends. -/
theorem recordEnd_of_refs (legacy : isPcapMagic (rd32 file 0 true) = true)
    (accepted : (scanBlocks file).error = none) {earlier later : List BlockRef} {ref : BlockRef}
    (split : (scanBlocks file).refs = earlier ++ ref :: later) (record : ref.kind = .pcapRecord) :
    recordEnd file later =
      ref.fileOffset + (16 + inclLen file (legacyOrder file) ref.fileOffset) := by
  rcases scanBlocks_legacy legacy accepted with ⟨-, ended, refs⟩
  rw [refs] at split
  cases earlier with
  | nil =>
      -- the lead reference is the header's, which is no record
      rcases List.cons.inj split with ⟨rfl, -⟩
      contradiction
  | cons lead earlier =>
      exact recordEnd_of_pcapLoop 24 ended earlier ref later (List.cons.inj split).2

/-- `parse_idb` takes the global header and keeps the low 16 bits of the network
word. -/
theorem parseIdb_headerRef (legacy : isPcapMagic (rd32 file 0 true) = true)
    (long : 24 ≤ file.length) :
    ∃ view, parseIdb file (headerRef file) = some view ∧
      view.linkType = networkWord file % 2 ^ 16 := by
  refine ⟨_, (if_neg ?_).trans (if_pos ⟨rfl, legacy⟩), rfl⟩
  rintro (kind | cut)
  · exact kind rfl
  · have : file.length < 0 + 24 := cut
    omega

/-- `parse_epb` takes a record reference exactly if its stored length did not
wrap. -/
theorem parseEpb_isSome_iff {ref : BlockRef} (emitted : ref ∈ (scanBlocks file).refs)
    (record : ref.kind = .pcapRecord) : (parseEpb file ref).isSome ↔ 16 ≤ ref.length := by
  have inside := (emitted_sound emitted).inside
  rw [parseEpb, if_neg (by omega)]
  dsimp only
  rw [if_pos record]
  split
  · simp; omega
  · simp; omega

end Legacy

/-! ### Agreement -/

/-- Both phases report the same link type and the same records. -/
structure PhasesAgree (file : Bytes) : Prop where
  interface : ∃ lead records view, (scanBlocks file).refs = lead :: records ∧
    parseIdb file lead = some view ∧
      ∀ ref ∈ (scanBlocks file).refs, ref.kind = .pcapRecord → ref.typeOrLink = view.linkType
  records : ∀ earlier ref later, (scanBlocks file).refs = earlier ++ ref :: later →
    ref.kind = .pcapRecord → ∃ view, parseEpb file ref = some view ∧
      view.caplen + 16 = ref.length ∧ view.payloadFileOffset = ref.fileOffset + 16 ∧
        view.payloadFileOffset + view.caplen = recordEnd file later

/-- The phases agree on an accepted legacy capture exactly when, if it has any
record at all, the network word fits in 16 bits, and no record is so long that
its total length does not fit in 32 bits. -/
theorem phasesAgree_iff {file : Bytes} (legacy : isPcapMagic (rd32 file 0 true) = true)
    (accepted : (scanBlocks file).error = none) :
    PhasesAgree file ↔ ∀ pos, RecordFrom file (legacyOrder file) 24 pos →
      networkWord file < 2 ^ 16 ∧ inclLen file (legacyOrder file) pos < 2 ^ 32 - 16 := by
  rcases scanBlocks_legacy legacy accepted with ⟨long, -, refs⟩
  rcases parseIdb_headerRef legacy long with ⟨idb, parsedIdb, linkType⟩
  constructor
  · intro agree pos chain
    rcases (mem_refs_iff legacy accepted _).mpr ⟨pos, chain, rfl⟩ with ⟨emitted, record⟩
    constructor
    · rcases agree.interface with ⟨lead, records, view, first, parsed, same⟩
      have link : networkWord file = view.linkType := same _ emitted record
      rw [refs] at first
      rcases List.cons.inj first with ⟨rfl, -⟩
      rw [parsedIdb] at parsed
      cases parsed
      omega
    · rcases List.append_of_mem emitted with ⟨earlier, later, split⟩
      rcases agree.records earlier _ later split record with ⟨view, parsed, -⟩
      have stored := (parseEpb_isSome_iff emitted record).mp (by rw [parsed]; rfl)
      have bounded := rd32_lt file (pos + 8) (legacyOrder file)
      change 16 ≤ (16 + rd32 file (pos + 8) (legacyOrder file)) % 2 ^ 32 at stored
      rw [inclLen]
      omega
  · intro small
    constructor
    · refine ⟨_, _, idb, refs, parsedIdb, fun ref emitted record => ?_⟩
      rcases (mem_refs_iff legacy accepted ref).mp ⟨emitted, record⟩ with ⟨pos, chain, rfl⟩
      have fits := (small pos chain).1
      show networkWord file = idb.linkType
      omega
    · intro earlier ref later split record
      have emitted : ref ∈ (scanBlocks file).refs := by
        rw [split]
        simp
      rcases (mem_refs_iff legacy accepted ref).mp ⟨emitted, record⟩ with ⟨pos, chain, rfl⟩
      have fits := (small pos chain).2
      have stored : (recordRef (legacyState file) file pos).length =
          16 + inclLen file (legacyOrder file) pos :=
        Nat.mod_eq_of_lt (show 16 + inclLen file (legacyOrder file) pos < 2 ^ 32 by omega)
      have some := (parseEpb_isSome_iff emitted record).mpr (by omega)
      rcases Option.isSome_iff_exists.mp some with ⟨view, parsed⟩
      rcases parseEpb_record record parsed with ⟨-, payload, caplen⟩
      change view.caplen = inclLen file (legacyOrder file) pos at caplen
      change view.payloadFileOffset = pos + 16 at payload
      have behind : recordEnd file later = pos + (16 + inclLen file (legacyOrder file) pos) :=
        recordEnd_of_refs legacy accepted split record
      exact ⟨view, parsed, by omega, payload, by omega⟩

/-- A little-endian capture of one empty record with the given network word. -/
def oneRecordCapture (network : Bytes) : Bytes :=
  [0xD4, 0xC3, 0xB2, 0xA1, 2, 0, 4, 0] ++ List.replicate 8 0 ++ [0xFF, 0xFF, 0, 0] ++ network ++
    List.replicate 16 0

/-- With the network word `0x10001` the record reports the link type 65537 and
the interface 1. -/
theorem phasesAgree_fails :
    ∃ file, isPcapMagic (rd32 file 0 true) = true ∧ (scanBlocks file).error = none ∧
      ¬ PhasesAgree file := by
  refine ⟨oneRecordCapture [1, 0, 1, 0], by decide, by decide +kernel, fun agree => ?_⟩
  rcases agree.interface with ⟨lead, records, view, first, parsed, same⟩
  have scanned : (scanBlocks (oneRecordCapture [1, 0, 1, 0])).refs =
      [⟨0, 24, 0x10001, .idb, true⟩, ⟨24, 16, 0x10001, .pcapRecord, true⟩] := by decide +kernel
  have parsedLead : (parseIdb (oneRecordCapture [1, 0, 1, 0])
      ⟨0, 24, 0x10001, .idb, true⟩).map IdbView.linkType = some 1 := by decide +kernel
  rw [scanned] at first same
  rcases List.cons.inj first with ⟨rfl, -⟩
  rw [parsed] at parsedLead
  have link : 0x10001 = view.linkType := same ⟨24, 16, 0x10001, .pcapRecord, true⟩ (by simp) rfl
  have interface : view.linkType = 1 := Option.some.inj parsedLead
  omega

theorem phasesAgree_iff_ethernet :
    let file := oneRecordCapture [1, 0, 0, 0]
    PhasesAgree file ↔ ∀ pos, RecordFrom file (legacyOrder file) 24 pos →
      networkWord file < 2 ^ 16 ∧ inclLen file (legacyOrder file) pos < 2 ^ 32 - 16 :=
  phasesAgree_iff (by decide) (by decide +kernel)

end Nanotins.PcapBlocks
