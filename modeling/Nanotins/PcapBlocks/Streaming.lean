import Nanotins.PcapBlocks.ScanSteps

/-!
Contract: scanning a capture through a sliding window equals scanning it whole.

Owns: the description of one `scanWindow` call as a scanner run
(`scanWindow_eq`), the sliding-window driver `streamScan`, and the streaming
theorem `streamScan_eq_scanBlocks`.

Does not own: the resumption argument itself, which is the library's
`Scanner.stream_eq_run`.
-/

namespace Nanotins.PcapBlocks

open Nanotins.Library

/-- The error a scan that stopped short of an error still ends with at the end
of the capture. -/
def eofError (st : ScanState) (unread : Bytes) : Option ScanError :=
  if st.started then
    if unread.length = 0 then none else some .trailingTruncatedBlock
  else if unread.length < 4 then some .fileTooShort
  else some .shorterThanGlobalHeader

/-- What `scan_window` reports of a scanner run. -/
def reportScan (scan : Scan ScanState ScanError BlockRef) (input : Bytes) (atEof : Bool) :
    ScanResult :=
  match scan.error with
  | some error => ⟨scan.state, scan.items, 0, some error⟩
  | none =>
      ⟨scan.state, scan.items, scan.consumed,
        if atEof then eofError scan.state (input.drop scan.consumed) else none⟩

/-- The trailing check of the source is `eofError` of a started scan. -/
theorem eofError_started {st : ScanState} (started : st.started = true) (file : Bytes)
    (pos : Nat) (atEof : Bool) :
    (if atEof && decide (pos < file.length) then some ScanError.trailingTruncatedBlock else none) =
      if atEof then eofError st (file.drop pos) else none := by
  cases atEof with
  | false => rfl
  | true =>
      simp only [eofError, started, if_true, List.length_drop, Bool.true_and, decide_eq_true_eq]
      by_cases unread : pos < file.length
      · rw [if_pos unread, if_neg (by omega)]
      · rw [if_neg unread, if_pos (by omega)]

/-- The call from position `pos` once the format is known. -/
theorem scanFrom_eq {st : ScanState} (started : st.started = true) (file : Bytes) (atEof : Bool)
    (pos : Nat) (refs : List BlockRef) :
    scanFrom st file atEof pos refs =
      reportScan ((blockScanner.run st (file.drop pos)).after refs pos) file atEof := by
  unfold scanFrom
  by_cases legacy : st.isPcapng = false
  · obtain ⟨loop, sameState, noError⟩ := pcapLoop_eq_run started legacy file pos
    rw [if_pos legacy, loop]
    simp only [reportScan, Scan.after, noError, sameState, eofError_started started]
  · have isPcapng : st.isPcapng = true := by simpa using legacy
    have stillStarted := run_started started (file.drop pos)
    rw [if_neg legacy, pcapngLoop_eq_run started isPcapng file pos]
    cases failed : (blockScanner.run st (file.drop pos)).error with
    | some error => simp only [reportScan, Scan.after, failed]
    | none => simp only [reportScan, Scan.after, failed, eofError_started stillStarted]

/-- One call of `scan_window` is one run of the scanner over the window. -/
theorem scanWindow_eq (st : ScanState) (input : Bytes) (atEof : Bool) :
    scanWindow st input atEof = reportScan (blockScanner.run st input) input atEof := by
  by_cases started : st.started = true
  · rw [scanWindow, if_pos started, scanFrom_eq started, List.drop_zero, Scan.after_nil_zero]
  · have fresh : st.started = false := by simpa using started
    rw [scanWindow, if_neg started]
    by_cases short : input.length < 4
    · have undecided : blockScanner.step st input = .more := by
        rw [step_of_fresh fresh, detectStep, if_pos short]
      rw [Scanner.run_of_more undecided, if_pos short]
      simp [reportScan, eofError, fresh, short]
    · rw [if_neg short]
      dsimp only
      by_cases shb : rd32 input 0 true = kBlockTypeShb
      · have covered : blockScanner.step st input =
            .emit [] 0 { st with isPcapng := true, started := true } := by
          rw [step_of_fresh fresh, detectStep, if_neg short]
          exact if_pos shb
        rw [if_pos shb, scanFrom_eq rfl, Scanner.run_of_emit covered]
      · rw [if_neg shb]
        by_cases magic : isPcapMagic (rd32 input 0 true) = true
        · rw [if_pos magic]
          by_cases cut : input.length < 24
          · have undecided : blockScanner.step st input = .more := by
              rw [step_of_fresh fresh, detectStep, if_neg short]
              exact (if_neg shb).trans ((if_pos magic).trans (if_pos cut))
            rw [Scanner.run_of_more undecided, if_pos cut]
            simp [reportScan, eofError, fresh, short]
          · have covered : blockScanner.step st input =
                let le := isPcapMagicLe (rd32 input 0 true)
                let link := rd32 input 20 le
                .emit [⟨0, 24, link, .idb, le⟩] 24 ⟨true, false, le, link⟩ := by
              rw [step_of_fresh fresh, detectStep, if_neg short]
              exact (if_neg shb).trans ((if_pos magic).trans (if_neg cut))
            rw [if_neg cut, Scanner.run_of_emit covered, scanFrom_eq rfl]
        · have failed : blockScanner.step st input = .fail .unrecognizedMagic := by
            rw [step_of_fresh fresh, detectStep, if_neg short]
            exact (if_neg shb).trans (if_neg magic)
          rw [Scanner.run_of_fail failed, if_neg magic]
          rfl

theorem scanBlocks_refs (file : Bytes) :
    (scanBlocks file).refs = (blockScanner.run {} file).items := by
  rw [scanBlocks, scanWindow_eq, reportScan]
  split <;> rfl

/-! ### The sliding window -/

/-- Drive `scan_window` over `file` from `base`: one window `[base, hi)` for
each `hi` in `cuts`, sliding by `consumed` and stopping at the first false, then
one last call on the unread rest with `at_eof`.  The result is the references
with absolute offsets and the last error. -/
def streamScan (file : Bytes) (st : ScanState) (base : Nat) :
    List Nat → List BlockRef × Option ScanError
  | [] =>
      let last := scanWindow st (file.drop base) true
      (last.refs.map (base +ᵥ ·), last.error)
  | hi :: cuts =>
      let window := scanWindow st ((file.take hi).drop base) false
      let refs := window.refs.map (base +ᵥ ·)
      match window.error with
      | some error => (refs, some error)
      | none =>
          let tail := streamScan file window.state (base + window.consumed) cuts
          (refs ++ tail.1, tail.2)

/-- The driver reports what the library's stream of the scanner does. -/
theorem streamScan_eq_stream (file : Bytes) (st : ScanState) (base : Nat) (cuts : List Nat) :
    let report := reportScan (blockScanner.stream file st base cuts) file true
    streamScan file st base cuts = (report.refs, report.error) := by
  induction cuts generalizing st base with
  | nil =>
      simp only [streamScan, Scanner.stream, scanWindow_eq, reportScan, Scan.after]
      cases (blockScanner.run st (file.drop base)).error <;> simp [List.drop_drop]
  | cons hi cuts inductionHypothesis =>
      simp only [streamScan, Scanner.stream, scanWindow_eq, reportScan]
      cases (blockScanner.run st ((file.take hi).drop base)).error with
      | some error => rfl
      | none =>
          simp only [inductionHypothesis, reportScan]
          cases failed : (blockScanner.stream file
            (blockScanner.run st ((file.take hi).drop base)).state
            (base + (blockScanner.run st ((file.take hi).drop base)).consumed) cuts).error <;> rfl

/-- Streaming equals whole-file scanning: for every file and every choice of
window ends, the references (offset, length, type or link, kind, byte order)
and the success or error are those of `scan_blocks` on the whole file. -/
theorem streamScan_eq_scanBlocks (file : Bytes) (cuts : List Nat) :
    streamScan file {} 0 cuts = ((scanBlocks file).refs, (scanBlocks file).error) := by
  rw [streamScan_eq_stream, scanBlocks, scanWindow_eq, Scanner.stream_eq_run,
    List.drop_zero, Scan.after_nil_zero]

end Nanotins.PcapBlocks
