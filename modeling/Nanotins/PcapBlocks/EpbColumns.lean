import Nanotins.Library.CString
import Nanotins.PcapBlocks.ParseReads

/-!
Contract: the columns of packet blocks, as `pcap_blocks.hpp` fills them.

Owns: `EpbColumns`, the reference loop over the blocks, what it leaves in the
columns whether or not a block fails to parse, and on which block of a scanned
file it fails (`parseEpbsBulk_scan`).

Does not own: what the blocks of a written file hold.
-/

namespace Nanotins.PcapBlocks

open Nanotins.Library

/-! ### Columns -/

inductive EpbColumn where
  | interfaceId | tsRaw | caplen | origlen | payloadOff | payloadSize | epbFlags
deriving DecidableEq, Repr

/-- What the loop stores of a block. -/
def EpbView.cell (v : EpbView) : EpbColumn → Nat
  | .interfaceId => v.interfaceId
  | .tsRaw => v.tsRaw
  | .caplen => v.caplen
  | .origlen => v.origlen
  | .payloadOff => v.payloadFileOffset
  | .payloadSize => v.caplen
  | .epbFlags => v.epbFlags

/-- The output arrays, and the number of rows they were made for. -/
structure EpbColumns where
  cells : EpbColumn → List Nat
  count : Nat

namespace EpbColumns

def store (cols : EpbColumns) (i : Nat) (v : EpbView) : EpbColumns :=
  { cols with cells := fun col => (cols.cells col).set i (v.cell col) }

/-- Every array has the room that `count` says. -/
def Sized (cols : EpbColumns) : Prop := ∀ col, (cols.cells col).length = cols.count

/-- The arrays with their first rows replaced. -/
def overwrite (cols : EpbColumns) (views : List EpbView) : EpbColumns :=
  { cols with
    cells := fun col => views.map (EpbView.cell · col) ++ (cols.cells col).drop views.length }

end EpbColumns

/-! ### The loop -/

def failedAt (i : Nat) : Text :=
  "failed to parse packet block at index ".toList ++ Nat.toDigits 10 i

/-- The loop from index `i` on, with the text it fails with. -/
def parseEpbsFrom (file : Bytes) : Nat → List BlockRef → EpbColumns → EpbColumns × Option Text
  | _, [], out => (out, none)
  | i, ref :: refs, out =>
      match parseEpb file ref with
      | none => (out, some (failedAt i))
      | some v => parseEpbsFrom file (i + 1) refs (out.store i v)

def parseEpbsBulk (file : Bytes) (epbs : List BlockRef) (out : EpbColumns) :
    EpbColumns × Option Text :=
  if out.count < epbs.length then
    (out, some "EpbColumns not pre-sized to the record count".toList)
  else parseEpbsFrom file 0 epbs out

/-- The blocks up to the first that does not parse, parsed. -/
def parsedPrefix (file : Bytes) : List BlockRef → List EpbView
  | [] => []
  | ref :: refs =>
      match parseEpb file ref with
      | none => []
      | some v => v :: parsedPrefix file refs

section Loop

variable {file : Bytes} {epbs : List BlockRef} {out : EpbColumns}

/-- The cells behind a stored row. -/
theorem set_append_drop {front : List Nat} {column : List Nat} (value : Nat)
    (room : front.length < column.length) :
    (front ++ column.drop front.length).set front.length value =
      front ++ [value] ++ column.drop (front.length + 1) := by
  obtain ⟨cell, rest, split⟩ : ∃ cell rest, column.drop front.length = cell :: rest := by
    rw [List.drop_eq_getElem_cons room]
    exact ⟨_, _, rfl⟩
  have behind : column.drop (front.length + 1) = rest := by
    rw [← List.drop_drop, split, List.drop_one, List.tail_cons]
  rw [split, behind, List.set_append_right _ _ (Nat.le_refl _), Nat.sub_self, List.set_cons_zero,
    List.append_assoc]
  rfl

/-- One more row behind those that are filled. -/
theorem EpbColumns.store_overwrite {views : List EpbView} (sized : out.Sized)
    (room : views.length < out.count) (v : EpbView) :
    (out.overwrite views).store views.length v = out.overwrite (views ++ [v]) := by
  rw [EpbColumns.store, EpbColumns.overwrite, EpbColumns.overwrite]
  congr 1
  funext col
  have wide : (views.map (EpbView.cell · col)).length < (out.cells col).length := by
    rw [List.length_map, sized col]
    exact room
  have set := set_append_drop (v.cell col) wide
  rw [List.length_map] at set
  rw [set, List.map_append, List.length_append]
  rfl

/-- The loop fills the rows of the blocks that parse, up to the first that does not. -/
theorem parseEpbsFrom_eq (sized : out.Sized) (done : List EpbView)
    (room : done.length + epbs.length ≤ out.count) :
    parseEpbsFrom file done.length epbs (out.overwrite done) =
      (out.overwrite (done ++ parsedPrefix file epbs),
        if (parsedPrefix file epbs).length = epbs.length then none
        else some (failedAt (done.length + (parsedPrefix file epbs).length))) := by
  induction epbs generalizing done with
  | nil =>
      rw [parsedPrefix, List.append_nil]
      exact congrArg (Prod.mk _) (if_pos rfl).symm
  | cons ref epbs inductionHypothesis =>
      rw [List.length_cons] at room
      rw [parseEpbsFrom, parsedPrefix]
      cases parsed : parseEpb file ref with
      | none =>
          have cut : ([] : List EpbView).length ≠ (ref :: epbs).length :=
            (Nat.succ_ne_zero _).symm
          dsimp only
          rw [List.append_nil, if_neg cut]
          rfl
      | some v =>
          dsimp only
          have later := inductionHypothesis (done ++ [v]) (by
            rw [List.length_append, List.length_singleton]
            omega)
          rw [List.length_append, List.length_singleton, List.append_assoc,
            List.singleton_append] at later
          rw [EpbColumns.store_overwrite sized (by omega), later, Nat.add_assoc done.length,
            Nat.add_comm 1]
          simp only [List.length_cons, Nat.add_right_cancel_iff]

/-- In arrays that are large enough the loop leaves the values of the blocks up to the
first that does not parse, which it names, and what was there behind them. -/
theorem parseEpbsBulk_of_room (sized : out.Sized) (room : epbs.length ≤ out.count) :
    parseEpbsBulk file epbs out =
      (out.overwrite (parsedPrefix file epbs),
        if (parsedPrefix file epbs).length = epbs.length then none
        else some (failedAt (parsedPrefix file epbs).length)) := by
  have fits : ([] : List EpbView).length + epbs.length ≤ out.count := by
    rw [List.length_nil]
    omega
  have filled := @parseEpbsFrom_eq file epbs out sized [] fits
  have start : out.overwrite [] = out := rfl
  rw [start, List.length_nil, List.nil_append, Nat.zero_add] at filled
  rw [parseEpbsBulk, if_neg (by omega), filled]

/-- Where all blocks parse, the prefix is what they parse to. -/
theorem parsedPrefix_of_all {views : List EpbView}
    (all : epbs.map (parseEpb file) = views.map some) : parsedPrefix file epbs = views := by
  induction epbs generalizing views with
  | nil =>
      rw [List.map_nil, eq_comm, List.map_eq_nil_iff] at all
      exact all.symm
  | cons ref epbs inductionHypothesis =>
      cases views with
      | nil => exact absurd all (List.cons_ne_nil _ _)
      | cons view views =>
          rw [List.map_cons, List.map_cons, List.cons.injEq] at all
          rw [parsedPrefix, all.1]
          exact congrArg (view :: ·) (inductionHypothesis all.2)

/-- The prefix ends where a test first fails that tells which blocks parse. -/
theorem map_parsedPrefix {long : BlockRef → Bool}
    (told : ∀ ref ∈ epbs, (parseEpb file ref).isSome = long ref) :
    (epbs.takeWhile long).map (parseEpb file) = (parsedPrefix file epbs).map some := by
  induction epbs with
  | nil => rfl
  | cons ref epbs inductionHypothesis =>
      obtain ⟨here, others⟩ := List.forall_mem_cons.mp told
      rw [parsedPrefix, List.takeWhile_cons, ← here]
      cases parsed : parseEpb file ref with
      | none => rfl
      | some v =>
          rw [Option.isSome_some, if_pos rfl, List.map_cons, parsed, inductionHypothesis others,
            List.map_cons]

end Loop

/-! ### Scanned files -/

def isEpb (ref : BlockRef) : Bool := decide (ref.kind = .epb)

/-- The enhanced packet blocks that a scan of the file emits. -/
def scannedEpbs (file : Bytes) : List BlockRef := (scanBlocks file).refs.filter isEpb

def hasFixedPart (ref : BlockRef) : Bool := decide (32 ≤ ref.length)

theorem isSome_scannedEpb {file : Bytes} :
    ∀ ref ∈ scannedEpbs file, (parseEpb file ref).isSome = hasFixedPart ref := by
  intro ref member
  obtain ⟨emitted, packet⟩ := List.mem_filter.mp member
  have kind : ref.kind = .epb := of_decide_eq_true packet
  by_cases long : 32 ≤ ref.length
  · rw [parseEpb_isSome emitted kind long]
    exact (decide_eq_true long).symm
  · cases parsed : parseEpb file ref with
    | none => exact (decide_eq_false long).symm
    | some view => exact absurd (parseEpb_epb kind parsed).1 long

/-- On the enhanced packet blocks of any file, scanned in whole or in part, the loop
fills one row for each block before the first that is shorter than the fixed part of
an enhanced packet block, leaves the rows behind as they were, and fails on that
block, if there is one, by its number; it reads nothing outside the file unless the
option window of a block escapes. -/
theorem parseEpbsBulk_scan (file : Bytes) (out : EpbColumns) (sized : out.Sized)
    (room : (scannedEpbs file).length ≤ out.count) :
    let whole := (scannedEpbs file).takeWhile hasFixedPart
    ∃ views, whole.map (parseEpb file) = views.map some ∧
      parseEpbsBulk file (scannedEpbs file) out =
        (out.overwrite views,
          if whole.length = (scannedEpbs file).length then none
          else some (failedAt whole.length)) ∧
      ∀ ref ∈ scannedEpbs file, ¬ WindowEscapes file ref →
        parseEpbM (guardedByte file 0 file.length) file.length ref = some (parseEpb file ref) := by
  have parsed := map_parsedPrefix (@isSome_scannedEpb file)
  have length := congrArg List.length parsed
  rw [List.length_map, List.length_map] at length
  refine ⟨_, parsed, ?_, fun ref member => parseEpbM_of_stays (List.mem_of_mem_filter member)⟩
  rw [parseEpbsBulk_of_room sized room, length]

/-- A little-endian capture of one SHB, one EPB of 32 bytes and one of 12. -/
def shortEpbCapture : Bytes :=
  emptyEpbCapture [0, 0, 0, 0] ++ [6, 0, 0, 0, 12, 0, 0, 0, 12, 0, 0, 0]

theorem parseEpbsBulk_scan_short :
    let out : EpbColumns := ⟨fun _ => [7, 7], 2⟩
    ∃ view, parseEpb shortEpbCapture emptyEpbRef = some view ∧
      parseEpbsBulk shortEpbCapture (scannedEpbs shortEpbCapture) out =
        (out.overwrite [view], some (failedAt 1)) ∧
      parseEpbM (guardedByte shortEpbCapture 0 shortEpbCapture.length) shortEpbCapture.length
        emptyEpbRef = some (some view) := by
  intro out
  have two : (scannedEpbs shortEpbCapture).length = 2 := by decide +kernel
  have whole : (scannedEpbs shortEpbCapture).takeWhile hasFixedPart = [emptyEpbRef] := by
    decide +kernel
  have member : emptyEpbRef ∈ scannedEpbs shortEpbCapture := by decide +kernel
  have stays : ¬ WindowEscapes shortEpbCapture emptyEpbRef := by
    intro escapes
    have above := escapes.above
    revert above
    decide +kernel
  obtain ⟨views, parsed, filled, reads⟩ :=
    parseEpbsBulk_scan shortEpbCapture out (fun _ => rfl) (Nat.le_of_eq two)
  rw [whole] at parsed filled
  cases views with
  | nil => exact absurd parsed (List.cons_ne_nil _ _)
  | cons view views =>
      obtain ⟨first, none⟩ := List.cons.inj parsed
      cases List.map_eq_nil_iff.mp none.symm
      refine ⟨view, first, filled.trans ?_, (reads _ member stays).trans (congrArg some first)⟩
      rw [two]
      rfl

end Nanotins.PcapBlocks
