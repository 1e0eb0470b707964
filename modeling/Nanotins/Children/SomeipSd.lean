import Nanotins.Children.Tlv
import Nanotins.SpecDag.Decode

/-!
Contract: the entries and options of SOME/IP service discovery messages, as
`someip_sd.hpp` and `someip_sd_bulk.hpp` tabulate them.

Owns: the endpoint decoder and the traversal over an arbitrary byte reader, the
child tables, the serial, count and scatter passes, and that all three act on
the same rows.

Does not own: schedules of the scatter kernels.
-/

namespace Nanotins.Children

open Nanotins.Library Nanotins.Wire Nanotins.SpecDag

/-! ### Traversal -/

/-- A decoded endpoint; `isEndpoint` is the value that `sd_decode_endpoint`
returns. -/
structure SdEndpoint where
  isEndpoint : Bool
  addr : Bytes
  l4proto : UInt8
  port : Nat
deriving DecidableEq, Repr

/-- A child of a service discovery message; `ptr` is where it starts. -/
inductive SdChild where
  | entry (index : UInt8) (ptr : Nat)
  | option (index : UInt8) (ptr length : Nat) (type : UInt8)
deriving DecidableEq, Repr

def isSdIpv4Option (type : UInt8) : Bool :=
  [kSdOptIpv4Endpoint, kSdOptIpv4Multicast, kSdOptIpv4SdEndpoint].contains type.toNat

def isSdIpv6Option (type : UInt8) : Bool :=
  [kSdOptIpv6Endpoint, kSdOptIpv6Multicast, kSdOptIpv6SdEndpoint].contains type.toNat

section Traversal

variable {m : Type → Type} [Monad m] (rd : Nat → m UInt8)

/-- The endpoint of the option at `opt`; nothing at or behind `stop` is read. -/
def sdDecodeEndpointM (opt : Nat) (type : UInt8) (stop : Nat) : m SdEndpoint := do
  if !isSdIpv4Option type && !isSdIpv6Option type then
    return ⟨false, List.replicate 16 0, 0, 0⟩
  else
    let addrN := if isSdIpv4Option type then 4 else 16
    let a := opt + 4
    let proto := a + addrN + 1
    let prt := proto + 1
    if stop < prt + 2 then
      return ⟨true, List.replicate 16 0, 0, 0⟩
    else
      let addr ← readBytesM rd a addrN
      let l4proto ← rd proto
      let port ← readScalarM rd .big prt 2
      return ⟨true, addr ++ List.replicate (16 - addrN) 0, l4proto, port⟩

/-- The entry loop. -/
def sdEntries (entries nEntries : Nat) : List SdChild :=
  (List.range nEntries).map fun i => .entry (UInt8.ofNat i) (entries + i * kSomeipSdEntrySize)

/-- One round of the option loop; the state is the number of options before and
the offset of the next one. -/
def sdNextOptionM (optEnd : Nat) (state : Nat × Nat) : m (Option (SdChild × Nat × Nat)) := do
  let opt := state.2
  if optEnd < opt + 3 then
    return none
  else
    let len ← readScalarM rd .big opt 2
    let type ← rd (opt + 2)
    -- the length counts the bytes behind the type octet
    let next := opt + 3 + len
    if optEnd < next then
      return none
    else
      return some (.option (UInt8.ofNat state.1) opt len type, state.1 + 1, next)

/-- The option loop; an option takes three bytes at least. -/
def sdOptionsM (optEnd opt : Nat) : m (List SdChild) :=
  drainM (sdNextOptionM rd optEnd) (optEnd - opt) (0, opt)

/-- The entries, then the options, of the message whose header is at `off`. -/
def forEachSdChildM (off size : Nat) : m (List SdChild) := do
  if size < off + kSomeipHeaderLen then
    return []
  else
    let serviceId ← readUintM rd off SomeipSpec.serviceId
    let methodId ← readUintM rd off SomeipSpec.methodId
    if serviceId ≠ kSomeipSdServiceId ∨ methodId ≠ kSomeipSdMethodId then
      return []
    else
      let length ← readUintM rd off SomeipSpec.length
      let stop := clampEnd (off + 8 + length) size
      let sd := off + kSomeipHeaderLen
      if stop < sd + kSomeipSdPreambleLen then
        return []
      else
        let entriesLen ← readUintM rd sd SomeipSdHeaderSpec.entriesLength
        let entries := sd + kSomeipSdPreambleLen
        let entriesEnd := clampEnd (entries + entriesLen) stop
        let nEntries := (entriesEnd - entries) / kSomeipSdEntrySize
        -- the declared end of the entries, which is not cut
        let optLenAt := entries + entriesLen
        if stop < optLenAt + 4 then
          return sdEntries entries nEntries
        else
          let optionsLen ← readScalarM rd .big optLenAt 4
          let opt := optLenAt + 4
          let optEnd := clampEnd (opt + optionsLen) stop
          let options ← sdOptionsM rd optEnd opt
          return sdEntries entries nEntries ++ options

end Traversal

def sdDecodeEndpoint (pkt : Bytes) (opt : Nat) (type : UInt8) (stop : Nat) : SdEndpoint :=
  Id.run (sdDecodeEndpointM (byteAt pkt) opt type stop)

def sdNextOption (pkt : Bytes) (optEnd : Nat) (state : Nat × Nat) :
    Option (SdChild × Nat × Nat) :=
  Id.run (sdNextOptionM (byteAt pkt) optEnd state)

def sdOptions (pkt : Bytes) (optEnd opt : Nat) : List SdChild :=
  drain (sdNextOption pkt optEnd) (optEnd - opt) (0, opt)

def forEachSdChild (pkt : Bytes) (off : Nat) : List SdChild :=
  Id.run (forEachSdChildM (byteAt pkt) off pkt.length)

theorem sdDecodeEndpoint_eq (pkt : Bytes) (opt : Nat) (type : UInt8) (stop : Nat) :
    sdDecodeEndpoint pkt opt type stop =
      let addrN := if isSdIpv4Option type then 4 else 16
      if !isSdIpv4Option type && !isSdIpv6Option type then ⟨false, List.replicate 16 0, 0, 0⟩
      else if stop < opt + 4 + addrN + 1 + 1 + 2 then ⟨true, List.replicate 16 0, 0, 0⟩
      else
        ⟨true, readBytes pkt (opt + 4) addrN ++ List.replicate (16 - addrN) 0,
          byteAt pkt (opt + 4 + addrN + 1), readBig pkt (opt + 4 + addrN + 1 + 1) 2⟩ :=
  rfl

/-! ### The option loop -/

section OptionLoop

variable {pkt : Bytes} {optEnd : Nat} {state behind : Nat × Nat} {child : SdChild}

theorem sdNextOption_eq (pkt : Bytes) (optEnd : Nat) (state : Nat × Nat) :
    sdNextOption pkt optEnd state =
      let next := state.2 + 3 + readBig pkt state.2 2
      if optEnd < state.2 + 3 then none
      else if optEnd < next then none
      else some (.option (UInt8.ofNat state.1) state.2 (readBig pkt state.2 2)
        (byteAt pkt (state.2 + 2)), state.1 + 1, next) :=
  rfl

/-- An option ends where the next one starts, inside the region. -/
theorem sdNextOption_some (taken : sdNextOption pkt optEnd state = some (child, behind)) :
    child = .option (UInt8.ofNat state.1) state.2 (readBig pkt state.2 2)
        (byteAt pkt (state.2 + 2)) ∧
      behind = (state.1 + 1, state.2 + 3 + readBig pkt state.2 2) ∧ behind.2 ≤ optEnd := by
  rw [sdNextOption_eq] at taken
  dsimp only at taken
  split_ifs at taken with short beyond
  cases taken
  exact ⟨rfl, rfl, Nat.not_lt.mp beyond⟩

/-- The loop as the source has it, unbounded. -/
theorem drain_sdNextOption (state : Nat × Nat) :
    drain (sdNextOption pkt optEnd) (optEnd - state.2) state =
      match sdNextOption pkt optEnd state with
      | none => []
      | some (child, behind) =>
          child :: drain (sdNextOption pkt optEnd) (optEnd - behind.2) behind := by
  refine (drain_measure (fun state : Nat × Nat => optEnd - state.2) ?_).trans ?_
  · intro state behind child taken
    obtain ⟨-, rfl, inside⟩ := sdNextOption_some taken
    dsimp only at inside ⊢
    omega
  · cases sdNextOption pkt optEnd state <;> rfl

theorem entry_notMem_sdOptions {opt ptr : Nat} {index : UInt8} :
    SdChild.entry index ptr ∉ sdOptions pkt optEnd opt := by
  intro member
  refine forall_mem_drain (fun _ => True) (fun child => child ≠ .entry index ptr) ?_ trivial _ _
    member rfl
  intro state behind child _ taken
  obtain ⟨rfl, -, -⟩ := sdNextOption_some taken
  exact ⟨by simp, trivial⟩

end OptionLoop

/-! ### The children of a message -/

theorem forEachSdChild_eq (pkt : Bytes) (off : Nat) :
    forEachSdChild pkt off =
      let stop := clampEnd (off + 8 + readUint pkt off SomeipSpec.length) pkt.length
      let sd := off + kSomeipHeaderLen
      let entriesLen := readUint pkt sd SomeipSdHeaderSpec.entriesLength
      let entries := sd + kSomeipSdPreambleLen
      let nEntries := (clampEnd (entries + entriesLen) stop - entries) / kSomeipSdEntrySize
      let optLenAt := entries + entriesLen
      let opt := optLenAt + 4
      let optEnd := clampEnd (opt + readBig pkt optLenAt 4) stop
      if pkt.length < off + kSomeipHeaderLen then []
      else if readUint pkt off SomeipSpec.serviceId ≠ kSomeipSdServiceId ∨
          readUint pkt off SomeipSpec.methodId ≠ kSomeipSdMethodId then []
      else if stop < sd + kSomeipSdPreambleLen then []
      else if stop < optLenAt + 4 then sdEntries entries nEntries
      else sdEntries entries nEntries ++ sdOptions pkt optEnd opt :=
  rfl

theorem entry_mem_sdEntries {entries stop ptr : Nat} {index : UInt8} (starts : entries ≤ stop)
    (member : .entry index ptr ∈ sdEntries entries ((stop - entries) / kSomeipSdEntrySize)) :
    ptr + kSomeipSdEntrySize ≤ stop := by
  rw [sdEntries, List.mem_map] at member
  obtain ⟨i, below, same⟩ := member
  cases same
  have := List.mem_range.mp below
  rw [kSomeipSdEntrySize] at this ⊢
  omega

/-- A reported entry lies in the packet. -/
theorem entry_mem_forEachSdChild {pkt : Bytes} {off ptr : Nat} {index : UInt8}
    (member : .entry index ptr ∈ forEachSdChild pkt off) :
    ptr + kSomeipSdEntrySize ≤ pkt.length := by
  rw [forEachSdChild_eq] at member
  dsimp only at member
  have inside := clampEnd_le (off + 8 + readUint pkt off SomeipSpec.length) pkt.length
  generalize clampEnd (off + 8 + readUint pkt off SomeipSpec.length) pkt.length = stop
    at member inside
  generalize readUint pkt (off + kSomeipHeaderLen) SomeipSdHeaderSpec.entriesLength = entriesLen
    at member
  split_ifs at member with cut other preamble options
  · contradiction
  · contradiction
  · contradiction
  · have starts := le_clampEnd (Nat.le_add_right _ entriesLen) (Nat.not_lt.mp preamble)
    exact Nat.le_trans (entry_mem_sdEntries starts member)
      (Nat.le_trans (clampEnd_le _ _) inside)
  · have starts := le_clampEnd (Nat.le_add_right _ entriesLen) (Nat.not_lt.mp preamble)
    rcases List.mem_append.mp member with entry | option
    · exact Nat.le_trans (entry_mem_sdEntries starts entry)
        (Nat.le_trans (clampEnd_le _ _) inside)
    · exact absurd option entry_notMem_sdOptions

section Guarded

variable {pkt : Bytes}

theorem sdDecodeEndpointM_guarded (opt : Nat) (type : UInt8) :
    sdDecodeEndpointM (guardedByte pkt 0 pkt.length) opt type pkt.length =
      some (sdDecodeEndpoint pkt opt type pkt.length) := by
  rw [sdDecodeEndpoint, sdDecodeEndpointM, sdDecodeEndpointM]
  split
  · rfl
  · dsimp only
    generalize (if isSdIpv4Option type then 4 else 16) = addrN
    split
    · rfl
    · rw [readBytesM_guarded (Nat.zero_le _) (by omega), guardedByte_eq (Nat.zero_le _) (by omega),
        readScalarM_guarded .big (Nat.zero_le _) (by omega)]
      rfl

theorem sdNextOptionM_guarded {lo hi optEnd : Nat} {state : Nat × Nat} (above : lo ≤ state.2)
    (inside : optEnd ≤ hi) :
    sdNextOptionM (guardedByte pkt lo hi) optEnd state = some (sdNextOption pkt optEnd state) := by
  rw [sdNextOptionM, sdNextOption_eq]
  dsimp only
  split
  · rfl
  · rw [readScalarM_guarded .big above (by omega), guardedByte_eq (by omega) (by omega)]
    exact (apply_ite some _ _ _).symm

theorem sdOptionsM_guarded {lo hi optEnd opt : Nat} (above : lo ≤ opt) (inside : optEnd ≤ hi) :
    sdOptionsM (guardedByte pkt lo hi) optEnd opt = some (sdOptions pkt optEnd opt) := by
  apply drainM_eq_some fun state : Nat × Nat => lo ≤ state.2
  · intro state below
    exact sdNextOptionM_guarded below inside
  · intro state behind child below taken
    obtain ⟨-, rfl, -⟩ := sdNextOption_some taken
    dsimp only
    omega
  · exact above

theorem forEachSdChildM_guarded (off : Nat) :
    forEachSdChildM (guardedByte pkt 0 pkt.length) off pkt.length =
      some (forEachSdChild pkt off) := by
  rw [forEachSdChildM, forEachSdChild_eq]
  by_cases cut : pkt.length < off + kSomeipHeaderLen
  · rw [if_pos cut, if_pos cut]
    rfl
  rw [if_neg cut, if_neg cut]
  have header : off + specSize SomeipSpec.fields ≤ pkt.length := Nat.not_lt.mp cut
  have field : ∀ field ∈ SomeipSpec.fields, readUintM (guardedByte pkt 0 pkt.length) off field =
      some (readUint pkt off field) := fun field member =>
    readUintM_guarded_of_mem member (Nat.zero_le off) header
  rw [field SomeipSpec.serviceId (by decide), field SomeipSpec.methodId (by decide),
    field SomeipSpec.length (by decide)]
  dsimp only [bind, Option.bind]
  have inside := clampEnd_le (off + 8 + readUint pkt off SomeipSpec.length) pkt.length
  generalize clampEnd (off + 8 + readUint pkt off SomeipSpec.length) pkt.length = stop at inside ⊢
  split
  · rfl
  split
  · rfl
  · next preamble =>
    have member : SomeipSdHeaderSpec.entriesLength ∈ SomeipSdHeaderSpec.fields := by decide
    rw [readUintM_guarded_of_mem member (Nat.zero_le _)
      (Nat.le_trans (Nat.not_lt.mp preamble) inside)]
    dsimp only
    split
    · rfl
    · rw [readScalarM_guarded .big (Nat.zero_le _) (by omega)]
      dsimp only
      rw [sdOptionsM_guarded (Nat.zero_le _) (Nat.le_trans (clampEnd_le _ _) inside)]
      rfl

end Guarded

/-! ### Child tables -/

inductive SomeipSdChildTable where
  | entry | option
deriving DecidableEq, Repr

inductive SomeipSdChildColumn where
  | entryPacketId | entryIndex | entryType | index1stOpts | index2ndOpts | numOpt1 | numOpt2
  | serviceId | instanceId | majorVersion | ttl | minorVersion
  | optPacketId | optionIndex | length | optType | l4proto | port | address
deriving DecidableEq, Repr

namespace SomeipSdChildColumn

def table : SomeipSdChildColumn → SomeipSdChildTable
  | optPacketId | optionIndex | length | optType | l4proto | port | address => .option
  | _ => .entry

def ofTable : SomeipSdChildTable → List SomeipSdChildColumn
  | .entry =>
      [entryPacketId, entryIndex, entryType, index1stOpts, index2ndOpts, numOpt1, numOpt2,
        serviceId, instanceId, majorVersion, ttl, minorVersion]
  | .option => [optPacketId, optionIndex, length, optType, l4proto, port, address]

end SomeipSdChildColumn

abbrev someipSdChildSchema : Schema where
  Table := SomeipSdChildTable
  Col := SomeipSdChildColumn
  Value := FieldValue
  tableOf := SomeipSdChildColumn.table
  columns := SomeipSdChildColumn.ofTable
  key
    | .entry => .entryPacketId
    | .option => .optPacketId
  mem_columns table col := by cases table <;> cases col <;> decide
  nodup_columns table := by cases table <;> decide
  tableOf_key table := by cases table <;> rfl

abbrev SomeipSdChildTables := Store someipSdChildSchema

def SomeipSdEntryTable.add (kids : SomeipSdChildTables) (packetId : Nat) (idx : UInt8)
    (pkt : Bytes) (e : Nat) : SomeipSdChildTables :=
  kids.pushAll
    [(.entryPacketId, .uint packetId), (.entryIndex, .uint idx.toNat),
      (.entryType, readField pkt e SomeipSdEntrySpec.type),
      (.index1stOpts, readField pkt e SomeipSdEntrySpec.index1stOpts),
      (.index2ndOpts, readField pkt e SomeipSdEntrySpec.index2ndOpts),
      (.numOpt1, readField pkt e SomeipSdEntrySpec.numOpt1),
      (.numOpt2, readField pkt e SomeipSdEntrySpec.numOpt2),
      (.serviceId, readField pkt e SomeipSdEntrySpec.serviceId),
      (.instanceId, readField pkt e SomeipSdEntrySpec.instanceId),
      (.majorVersion, readField pkt e SomeipSdEntrySpec.majorVersion),
      (.ttl, readField pkt e SomeipSdEntrySpec.ttl),
      (.minorVersion, readField pkt e SomeipSdEntrySpec.minorVersion)]

def SomeipSdOptionTable.add (kids : SomeipSdChildTables) (packetId : Nat) (idx : UInt8)
    (len : Nat) (ty l4 : UInt8) (pt : Nat) (addr : Bytes) : SomeipSdChildTables :=
  kids.pushAll
    [(.optPacketId, .uint packetId), (.optionIndex, .uint idx.toNat), (.length, .uint len),
      (.optType, .uint ty.toNat), (.l4proto, .uint l4.toNat), (.port, .uint pt),
      (.address, .bytes addr)]

/-! ### Passes -/

section Passes

variable {G : Graph Id} (nodeType : G.Node → Option L2L3Node) (packetId : Nat) (pkt : Bytes)

/-- The two callbacks of `emit_sd_children`; an endpoint may be decoded up to
the end of the packet. -/
def emitSdChild (kids : SomeipSdChildTables) : SdChild → SomeipSdChildTables
  | .entry idx e => SomeipSdEntryTable.add kids packetId idx pkt e
  | .option idx o len type =>
      let endpoint := sdDecodeEndpoint pkt o type pkt.length
      SomeipSdOptionTable.add kids packetId idx len type endpoint.l4proto endpoint.port
        endpoint.addr

def emitSdChildren (off : Nat) (kids : SomeipSdChildTables) : SomeipSdChildTables :=
  (forEachSdChild pkt off).foldl (emitSdChild packetId pkt) kids

/-- What `dag_decode_packet_with_someip_sd` does at a visit beside appending the
node's row. -/
def emitSdVisit (kids : SomeipSdChildTables) (visit : G.Node × Nat) : SomeipSdChildTables :=
  if nodeType visit.1 = some .someip then emitSdChildren packetId pkt visit.2 kids else kids

def dagDecodePacketWithSomeipSd (tabs : DagTables G) (kids : SomeipSdChildTables)
    (root : G.Node) : DagTables G × SomeipSdChildTables :=
  dagDecodePacketWith G (emitSdVisit nodeType packetId pkt) packetId pkt tabs kids root

abbrev SomeipSdChildCounts := Counters someipSdChildSchema

def countSdChild (c : SomeipSdChildCounts) : SdChild → SomeipSdChildCounts
  | .entry _ _ => bump counterModulus c .entry
  | .option _ _ _ _ => bump counterModulus c .option

def countSdVisit (c : SomeipSdChildCounts) (visit : G.Node × Nat) : SomeipSdChildCounts :=
  if nodeType visit.1 = some .someip then (forEachSdChild pkt visit.2).foldl countSdChild c else c

def countPacketSomeipSdChildren (root : G.Node) : SomeipSdChildCounts :=
  (walk G root pkt).visits.foldl (countSdVisit nodeType pkt) fun _ => 0

/-- The two callbacks of the scatter pass.  The sixteen stores of an address
into its row are one write. -/
def scatterSdChild (state : Scatter someipSdChildSchema) : SdChild → Scatter someipSdChildSchema
  | .entry idx e => state.row counterModulus .entry fun ei =>
      [⟨.entryPacketId, ei, .uint packetId⟩, ⟨.entryIndex, ei, .uint idx.toNat⟩,
        ⟨.entryType, ei, readField pkt e SomeipSdEntrySpec.type⟩,
        ⟨.index1stOpts, ei, readField pkt e SomeipSdEntrySpec.index1stOpts⟩,
        ⟨.index2ndOpts, ei, readField pkt e SomeipSdEntrySpec.index2ndOpts⟩,
        ⟨.numOpt1, ei, readField pkt e SomeipSdEntrySpec.numOpt1⟩,
        ⟨.numOpt2, ei, readField pkt e SomeipSdEntrySpec.numOpt2⟩,
        ⟨.serviceId, ei, readField pkt e SomeipSdEntrySpec.serviceId⟩,
        ⟨.instanceId, ei, readField pkt e SomeipSdEntrySpec.instanceId⟩,
        ⟨.majorVersion, ei, readField pkt e SomeipSdEntrySpec.majorVersion⟩,
        ⟨.ttl, ei, readField pkt e SomeipSdEntrySpec.ttl⟩,
        ⟨.minorVersion, ei, readField pkt e SomeipSdEntrySpec.minorVersion⟩]
  | .option idx o len type =>
      let endpoint := sdDecodeEndpoint pkt o type pkt.length
      state.row counterModulus .option fun oi =>
        [⟨.optPacketId, oi, .uint packetId⟩, ⟨.optionIndex, oi, .uint idx.toNat⟩,
          ⟨.length, oi, .uint len⟩, ⟨.optType, oi, .uint type.toNat⟩,
          ⟨.l4proto, oi, .uint endpoint.l4proto.toNat⟩, ⟨.port, oi, .uint endpoint.port⟩,
          ⟨.address, oi, .bytes endpoint.addr⟩]

def scatterSdVisit (state : Scatter someipSdChildSchema) (visit : G.Node × Nat) :
    Scatter someipSdChildSchema :=
  if nodeType visit.1 = some .someip then
    (forEachSdChild pkt visit.2).foldl (scatterSdChild packetId pkt) state
  else state

def scatterPacketSomeipSdChildren (root : G.Node) (base : SomeipSdChildCounts) :
    List (Write someipSdChildSchema) :=
  ((walk G root pkt).visits.foldl (scatterSdVisit nodeType packetId pkt) ⟨base, []⟩).issued

/-! ### All passes act on the same rows -/

def sdRow : SdChild → Row someipSdChildSchema
  | .entry idx e =>
      { table := .entry
        cell := fun
          | .entryPacketId => .uint packetId
          | .entryIndex => .uint idx.toNat
          | .entryType => readField pkt e SomeipSdEntrySpec.type
          | .index1stOpts => readField pkt e SomeipSdEntrySpec.index1stOpts
          | .index2ndOpts => readField pkt e SomeipSdEntrySpec.index2ndOpts
          | .numOpt1 => readField pkt e SomeipSdEntrySpec.numOpt1
          | .numOpt2 => readField pkt e SomeipSdEntrySpec.numOpt2
          | .serviceId => readField pkt e SomeipSdEntrySpec.serviceId
          | .instanceId => readField pkt e SomeipSdEntrySpec.instanceId
          | .majorVersion => readField pkt e SomeipSdEntrySpec.majorVersion
          | .ttl => readField pkt e SomeipSdEntrySpec.ttl
          | .minorVersion => readField pkt e SomeipSdEntrySpec.minorVersion
          | _ => default }
  | .option idx o len type =>
      { table := .option
        cell := fun
          | .optPacketId => .uint packetId
          | .optionIndex => .uint idx.toNat
          | .length => .uint len
          | .optType => .uint type.toNat
          | .l4proto => .uint (sdDecodeEndpoint pkt o type pkt.length).l4proto.toNat
          | .port => .uint (sdDecodeEndpoint pkt o type pkt.length).port
          | .address => .bytes (sdDecodeEndpoint pkt o type pkt.length).addr
          | _ => default }

def sdVisitRows (visit : G.Node × Nat) : List (Row someipSdChildSchema) :=
  if nodeType visit.1 = some .someip then (forEachSdChild pkt visit.2).map (sdRow packetId pkt)
  else []

/-- The child rows of a packet. -/
def someipSdChildRows (root : G.Node) : List (Row someipSdChildSchema) :=
  (walk G root pkt).visits.flatMap (sdVisitRows nodeType packetId pkt)

end Passes

section Rows

variable {G : Graph Id} {nodeType : G.Node → Option L2L3Node} {packetId : Nat} {pkt : Bytes}

theorem emitSdChild_eq :
    emitSdChild packetId pkt = fun kids child => kids.append (sdRow packetId pkt child) := by
  funext kids child
  cases child <;> rfl

theorem emitSdChildren_eq (off : Nat) (kids : SomeipSdChildTables) :
    emitSdChildren packetId pkt off kids =
      kids.appendAll ((forEachSdChild pkt off).map (sdRow packetId pkt)) := by
  rw [emitSdChildren, emitSdChild_eq, Store.appendAll, List.foldl_map]

theorem countSdChild_eq (packetId : Nat) (pkt : Bytes) :
    countSdChild = fun c child => bump counterModulus c (sdRow packetId pkt child).table := by
  funext c child
  cases child <;> rfl

theorem scatterSdChild_eq :
    scatterSdChild packetId pkt = fun state child =>
      state.row counterModulus (sdRow packetId pkt child).table (sdRow packetId pkt child).writes := by
  funext state child
  cases child <;> rfl

theorem emitSdVisit_eq :
    emitSdVisit nodeType packetId pkt =
      fun kids visit => kids.appendAll (sdVisitRows nodeType packetId pkt visit) := by
  funext kids visit
  rw [emitSdVisit, sdVisitRows]
  split
  · exact emitSdChildren_eq _ _
  · rfl

theorem countSdVisit_eq (packetId : Nat) :
    countSdVisit nodeType pkt =
      fun c visit => countRows counterModulus c (sdVisitRows nodeType packetId pkt visit) := by
  funext c visit
  rw [countSdVisit, sdVisitRows]
  split
  · rw [countSdChild_eq packetId pkt, countRows, List.foldl_map]
  · rfl

theorem scatterSdVisit_eq :
    scatterSdVisit nodeType packetId pkt =
      fun state visit => state.rows counterModulus (sdVisitRows nodeType packetId pkt visit) := by
  funext state visit
  rw [scatterSdVisit, sdVisitRows]
  split
  · rw [scatterSdChild_eq, Scatter.rows, List.foldl_map]
  · rfl

variable {tabs : DagTables G} {kids : SomeipSdChildTables} {root : G.Node}

/-- The serial decoder appends the child rows, and fills the node tables as
without children. -/
theorem dagDecodePacketWithSomeipSd_eq :
    dagDecodePacketWithSomeipSd nodeType packetId pkt tabs kids root =
      (dagDecodePacket G root packetId pkt tabs,
        kids.appendAll (someipSdChildRows nodeType packetId pkt root)) := by
  rw [dagDecodePacketWithSomeipSd, dagDecodePacketWith_eq, emitSdVisit_eq, someipSdChildRows,
    Store.appendAll_flatMap]

theorem countPacketSomeipSdChildren_eq :
    countPacketSomeipSdChildren nodeType pkt root =
      countRows counterModulus (fun _ => 0) (someipSdChildRows nodeType packetId pkt root) := by
  rw [countPacketSomeipSdChildren, countSdVisit_eq packetId, someipSdChildRows,
    countRows_flatMap]

theorem scatterPacketSomeipSdChildren_eq (base : SomeipSdChildCounts) :
    scatterPacketSomeipSdChildren nodeType packetId pkt root base =
      scatterRows counterModulus base (someipSdChildRows nodeType packetId pkt root) := by
  rw [scatterPacketSomeipSdChildren, scatterSdVisit_eq, ← Scatter.rows_flatMap,
    Scatter.issued_rows]
  rfl

end Rows

end Nanotins.Children
