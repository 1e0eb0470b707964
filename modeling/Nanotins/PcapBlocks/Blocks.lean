import Nanotins.Library.ByteReader

/-!
Contract: pcap / pcapng block scanning and packet-block parsing, as
`pcap_blocks.hpp` computes them.

Owns: block references, the streaming state, `scanWindow`, `scanBlocks`, the
option cursor, and `parseEpb`.

Does not own: SHB and IDB field parsing, the columnar bulk loop, or any claim
about the values computed here.

Pointers into the file are offsets.  `uint32_t` arithmetic is written with its
reduction modulo `2 ^ 32`; file positions are `size_t` / `uint64_t` values far
below `2 ^ 64` and stay unreduced.
-/

namespace Nanotins.PcapBlocks

open Nanotins.Library

inductive Kind where
  | shb | idb | epb | pcapRecord | simplePacket | other
deriving DecidableEq, Repr

def kBlockTypeShb : Nat := 0x0A0D0D0A
def kBlockTypeIdb : Nat := 0x00000001
def kBlockTypeEpb : Nat := 0x00000006
def kBlockTypeSpb : Nat := 0x00000003

/-- Phase-A output: where one block or record lies and how to read it. -/
structure BlockRef where
  fileOffset : Nat
  length : Nat
  /-- The pcapng block type, or the link type of a pcap record. -/
  typeOrLink : Nat
  kind : Kind
  littleEndian : Bool
deriving DecidableEq, Repr

/-- Format and byte order carried from one window to the next. -/
structure ScanState where
  started : Bool := false
  isPcapng : Bool := false
  littleEndian : Bool := true
  pcapLinkType : Nat := 0
deriving DecidableEq, Repr

inductive ScanError where
  | fileTooShort
  | shorterThanGlobalHeader
  | unrecognizedMagic
  | blockLengthInvalid
  | trailingTruncatedBlock
deriving DecidableEq, Repr

def ScanError.message : ScanError → String
  | .fileTooShort => "file too short"
  | .shorterThanGlobalHeader => "pcap file shorter than global header"
  | .unrecognizedMagic => "unrecognized file magic (not pcap or pcapng)"
  | .blockLengthInvalid => "pcapng block length invalid"
  | .trailingTruncatedBlock => "trailing truncated block at end of capture"

/-! ### Readers and helpers -/

section Readers

variable {m : Type → Type} [Monad m]

def rd16M (rd : Nat → m UInt8) (off : Nat) (le : Bool) : m Nat :=
  if le then readLittleM rd off 2 else readBigM rd off 2

def rd32M (rd : Nat → m UInt8) (off : Nat) (le : Bool) : m Nat :=
  if le then readLittleM rd off 4 else readBigM rd off 4

end Readers

def rd32 (file : Bytes) (off : Nat) (le : Bool) : Nat :=
  Id.run (rd32M (byteAt file) off le)

/-- `(n + 3U) & ~3U`: the sum wraps, then the two low bits are cleared. -/
def pad4 (n : Nat) : Nat := (n + 3) % 2 ^ 32 / 4 * 4

/-- `uint32_t` subtraction. -/
def sub32 (left right : Nat) : Nat := (left + 2 ^ 32 - right) % 2 ^ 32

def kPcapMagicMicrosLE : Nat := 0xA1B2C3D4
def kPcapMagicMicrosBE : Nat := 0xD4C3B2A1
def kPcapMagicNanosLE : Nat := 0xA1B23C4D
def kPcapMagicNanosBE : Nat := 0x4D3CB2A1
def kPcapngByteOrderMagic : Nat := 0x1A2B3C4D

def isPcapMagicLe (magic : Nat) : Bool :=
  magic == kPcapMagicMicrosLE || magic == kPcapMagicNanosLE

def isPcapMagic (magic : Nat) : Bool :=
  isPcapMagicLe magic || magic == kPcapMagicMicrosBE || magic == kPcapMagicNanosBE

def classifyBlockType (type : Nat) : Kind :=
  if type = kBlockTypeShb then .shb
  else if type = kBlockTypeIdb then .idb
  else if type = kBlockTypeEpb then .epb
  else if type = kBlockTypeSpb then .simplePacket
  else .other

/-! ### Phase A: the boundary scan -/

/-- What one call of `scan_window` leaves behind: the state, the references it
appended, `consumed`, and the error (`none` when it returned true). -/
structure ScanResult where
  state : ScanState
  refs : List BlockRef
  consumed : Nat
  error : Option ScanError
deriving DecidableEq, Repr

/-- The record loop of a legacy pcap: the position it stops at and the
references it appends. -/
def pcapLoop (st : ScanState) (file : Bytes) (pos : Nat) : Nat × List BlockRef :=
  if pos + 16 ≤ file.length then
    let inclLen := rd32 file (pos + 8) st.littleEndian
    let total := 16 + inclLen
    if file.length < pos + total then
      (pos, [])
    else
      let rest := pcapLoop st file (pos + total)
      -- `total` is a `uint64_t`; the stored length is its low 32 bits
      (rest.1, ⟨pos, total % 2 ^ 32, st.pcapLinkType, .pcapRecord, st.littleEndian⟩ :: rest.2)
  else (pos, [])
termination_by file.length - pos

/-- The type, total length and byte order of the pcapng block at `pos`.  An SHB
is recognised before its byte order is known and sets it. -/
def blockHeader (st : ScanState) (file : Bytes) (pos : Nat) : Bool × Nat × Nat × Bool :=
  let isShb := rd32 file pos true == kBlockTypeShb
  let le := if isShb then rd32 file (pos + 8) true == kPcapngByteOrderMagic else st.littleEndian
  let type := if isShb then kBlockTypeShb else rd32 file pos le
  (isShb, type, rd32 file (pos + 4) le, le)

/-- Commit the section's byte order, which only an SHB sets. -/
def commitByteOrder (st : ScanState) (isShb le : Bool) : ScanState :=
  if isShb then { st with littleEndian := le } else st

/-- The block loop of a pcapng file: the state and position it stops at, the
references it appends, and the error that made it stop. -/
def pcapngLoop (st : ScanState) (file : Bytes) (pos : Nat) :
    ScanState × Nat × List BlockRef × Option ScanError :=
  if pos + 12 ≤ file.length then
    let (isShb, type, total, le) := blockHeader st file pos
    if total < 12 then
      (st, pos, [], some .blockLengthInvalid)
    else if file.length < pos + total then
      (st, pos, [], none)
    else
      let rest := pcapngLoop (commitByteOrder st isShb le) file (pos + total)
      (rest.1, rest.2.1, ⟨pos, total, type, classifyBlockType type, le⟩ :: rest.2.2.1, rest.2.2.2)
  else (st, pos, [], none)
termination_by file.length - pos

/-- The tail of `scan_window` from position `pos`, after `refs` were appended. -/
def scanFrom (st : ScanState) (file : Bytes) (atEof : Bool) (pos : Nat) (refs : List BlockRef) :
    ScanResult :=
  let finish (st : ScanState) (pos : Nat) (refs : List BlockRef) : ScanResult :=
    ⟨st, refs, pos,
      if atEof && decide (pos < file.length) then some .trailingTruncatedBlock else none⟩
  if st.isPcapng = false then
    let (pos, records) := pcapLoop st file pos
    finish st pos (refs ++ records)
  else
    match pcapngLoop st file pos with
    -- this exit returns before `consumed` is assigned
    | (st, _, blocks, some error) => ⟨st, refs ++ blocks, 0, some error⟩
    | (st, pos, blocks, none) => finish st pos (refs ++ blocks)

def scanWindow (st : ScanState) (file : Bytes) (atEof : Bool) : ScanResult :=
  if st.started then
    scanFrom st file atEof 0 []
  else if file.length < 4 then
    ⟨st, [], 0, if atEof then some .fileTooShort else none⟩
  else
    let lead := rd32 file 0 true
    if lead = kBlockTypeShb then
      scanFrom { st with isPcapng := true, started := true } file atEof 0 []
    else if isPcapMagic lead then
      if file.length < 24 then
        ⟨st, [], 0, if atEof then some .shorterThanGlobalHeader else none⟩
      else
        let le := isPcapMagicLe lead
        let link := rd32 file 20 le
        scanFrom ⟨true, false, le, link⟩ file atEof 24 [⟨0, 24, link, .idb, le⟩]
    else
      ⟨st, [], 0, some .unrecognizedMagic⟩

def scanBlocks (file : Bytes) : ScanResult := scanWindow {} file true

/-! ### Phase B: packet blocks -/

/-- The option cursor; `data = none` is the null pointer. -/
structure Options where
  data : Option Nat
  size : Nat
  littleEndian : Bool
deriving DecidableEq, Repr

/-- One option of a block. -/
structure BlockOption where
  code : Nat
  length : Nat
  value : Nat
deriving DecidableEq, Repr

structure EpbView where
  interfaceId : Nat
  tsRaw : Nat
  caplen : Nat
  origlen : Nat
  payloadFileOffset : Nat
  epbFlags : Nat
  options : Options
deriving DecidableEq, Repr

section OptionWalk

variable {m : Type → Type} [Monad m]

/-- Advance to the next option; `none` is the false of the source. -/
def nextOptionM (rd : Nat → m UInt8) (cursor : Options) :
    m (Option (BlockOption × Options)) := do
  match cursor.data with
  | none => return none
  | some data =>
      if cursor.size < 4 then
        return none
      let code ← rd16M rd data cursor.littleEndian
      let length ← rd16M rd (data + 2) cursor.littleEndian
      if code = 0 then
        return none
      let advance := 4 + pad4 length
      if cursor.size < advance then
        return none
      return some (⟨code, length, data + 4⟩,
        { cursor with data := some (data + advance), size := cursor.size - advance })

/-- The `epb_flags` scan: the last option of code 2 and length at least 4 wins.
Every option takes at least four bytes, so `cursor.size` bounds the loop. -/
def epbFlagsLoopM (rd : Nat → m UInt8) (le : Bool) : Nat → Options → Nat → m Nat
  | 0, _, flags => pure flags
  | fuel + 1, cursor, flags => do
      match ← nextOptionM rd cursor with
      | none => return flags
      | some (opt, cursor) =>
          if opt.code = 2 ∧ 4 ≤ opt.length then
            let flags ← rd32M rd opt.value le
            epbFlagsLoopM rd le fuel cursor flags
          else
            epbFlagsLoopM rd le fuel cursor flags

def epbFlagsM (rd : Nat → m UInt8) (le : Bool) (options : Options) : m Nat :=
  epbFlagsLoopM rd le options.size options 0

end OptionWalk

def epbFlags (file : Bytes) (le : Bool) (options : Options) : Nat :=
  Id.run (epbFlagsM (byteAt file) le options)

/-- The option window of an EPB at `base` with the given captured length. -/
def epbOptions (base length caplen : Nat) (le : Bool) : Options :=
  let optOff := (8 + 20 + pad4 caplen) % 2 ^ 32
  if (optOff + 4) % 2 ^ 32 ≤ length then
    ⟨some (base + optOff), sub32 (sub32 length optOff) 4, le⟩
  else
    ⟨none, 0, le⟩

/-- Only the option scan can leave the file, whose bytes then count as zero. -/
def parseEpb (file : Bytes) (ref : BlockRef) : Option EpbView :=
  if file.length < ref.fileOffset + ref.length then none
  else
    let base := ref.fileOffset
    let le := ref.littleEndian
    if ref.kind = .pcapRecord then
      if ref.length < 16 then none
      else
        some {
          interfaceId := 0
          tsRaw := rd32 file base le * 2 ^ 32 + rd32 file (base + 4) le
          caplen := rd32 file (base + 8) le
          origlen := rd32 file (base + 12) le
          payloadFileOffset := ref.fileOffset + 16
          epbFlags := 0
          options := ⟨none, 0, le⟩ }
    else if ref.kind ≠ .epb ∨ ref.length < 32 then none
    else
      let body := base + 8
      let caplen := rd32 file (body + 12) le
      let options := epbOptions base ref.length caplen le
      some {
        interfaceId := rd32 file body le
        tsRaw := rd32 file (body + 4) le * 2 ^ 32 + rd32 file (body + 8) le
        caplen := caplen
        origlen := rd32 file (body + 16) le
        payloadFileOffset := ref.fileOffset + 8 + 20
        epbFlags := epbFlags file le options
        options := options }

end Nanotins.PcapBlocks
