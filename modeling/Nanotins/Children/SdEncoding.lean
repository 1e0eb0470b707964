import Nanotins.Children.SomeipSd
import Nanotins.Wire.Encode

/-!
Contract: tabulating a SOME/IP-SD message inverts its encoding.

Owns: entries, options and messages as they are written, the rows they stand
for, and that `emitSdChildren` appends exactly these rows
(`emitSdChildren_encode`).

Does not own: cut or inconsistent messages.
-/

namespace Nanotins.Children

open Nanotins.Library Nanotins.Wire Nanotins.SpecDag

/-! ### Messages -/

structure SdEntry where
  type : Nat
  index1stOpts : Nat
  index2ndOpts : Nat
  numOpt1 : Nat
  numOpt2 : Nat
  serviceId : Nat
  instanceId : Nat
  majorVersion : Nat
  ttl : Nat
  minorVersion : Nat
  type_lt : type < 2 ^ 8
  index1stOpts_lt : index1stOpts < 2 ^ 8
  index2ndOpts_lt : index2ndOpts < 2 ^ 8
  numOpt1_lt : numOpt1 < 2 ^ 4
  numOpt2_lt : numOpt2 < 2 ^ 4
  serviceId_lt : serviceId < 2 ^ 16
  instanceId_lt : instanceId < 2 ^ 16
  majorVersion_lt : majorVersion < 2 ^ 8
  ttl_lt : ttl < 2 ^ 24
  minorVersion_lt : minorVersion < 2 ^ 32

/-- An option: an endpoint of either family, or any other type with any body. -/
inductive SdOption where
  | ipv4 (type reserved1 : UInt8) (addr : Bytes) (reserved2 l4proto : UInt8) (port : Nat)
      (isIpv4 : isSdIpv4Option type = true) (addr_length : addr.length = 4) (port_lt : port < 2 ^ 16)
  | ipv6 (type reserved1 : UInt8) (addr : Bytes) (reserved2 l4proto : UInt8) (port : Nat)
      (isIpv6 : isSdIpv6Option type = true) (addr_length : addr.length = 16)
      (port_lt : port < 2 ^ 16)
  | other (type : UInt8) (body : Bytes) (notIpv4 : isSdIpv4Option type = false)
      (notIpv6 : isSdIpv6Option type = false) (body_length : body.length < 2 ^ 16)

namespace SdEntry

def values (entry : SdEntry) : List FieldValue :=
  [.uint entry.type, .uint entry.index1stOpts, .uint entry.index2ndOpts, .uint entry.numOpt1,
    .uint entry.numOpt2, .uint entry.serviceId, .uint entry.instanceId, .uint entry.majorVersion,
    .uint entry.ttl, .uint entry.minorVersion]

def encode (entry : SdEntry) : Bytes := encodeFields SomeipSdEntrySpec.fields entry.values

theorem fits (entry : SdEntry) : List.Forall₂ FieldFits SomeipSdEntrySpec.fields entry.values :=
  .cons (.uint entry.type_lt) (.cons (.uint entry.index1stOpts_lt)
    (.cons (.uint entry.index2ndOpts_lt) (.cons (.bits entry.numOpt1_lt)
      (.cons (.bits entry.numOpt2_lt) (.cons (.uint entry.serviceId_lt)
        (.cons (.uint entry.instanceId_lt) (.cons (.uint entry.majorVersion_lt)
          (.cons (.bits entry.ttl_lt) (.cons (.uint entry.minorVersion_lt) .nil)))))))))

@[simp] theorem length_encode (entry : SdEntry) : entry.encode.length = kSomeipSdEntrySize :=
  length_encodeFields _ _

end SdEntry

namespace SdOption

def type : SdOption → UInt8
  | ipv4 type .. => type
  | ipv6 type .. => type
  | other type .. => type

/-- The bytes behind the type octet. -/
def body : SdOption → Bytes
  | ipv4 _ reserved1 addr reserved2 l4proto port .. =>
      reserved1 :: (addr ++ (reserved2 :: l4proto :: bigBytes 2 port))
  | ipv6 _ reserved1 addr reserved2 l4proto port .. =>
      reserved1 :: (addr ++ (reserved2 :: l4proto :: bigBytes 2 port))
  | other _ body .. => body

def encode (option : SdOption) : Bytes :=
  bigBytes 2 option.body.length ++ (option.type :: option.body)

/-- The endpoint an option stands for. -/
def endpoint : SdOption → SdEndpoint
  | ipv4 _ _ addr _ l4proto port .. => ⟨true, addr ++ List.replicate 12 0, l4proto, port⟩
  | ipv6 _ _ addr _ l4proto port .. => ⟨true, addr, l4proto, port⟩
  | other .. => ⟨false, List.replicate 16 0, 0, 0⟩

theorem body_length_lt (option : SdOption) : option.body.length < 2 ^ 16 := by
  cases option with
  | ipv4 _ _ addr _ _ _ _ addr_length =>
      simp only [body, List.length_cons, List.length_append, length_bigBytes, addr_length]
      decide
  | ipv6 _ _ addr _ _ _ _ addr_length =>
      simp only [body, List.length_cons, List.length_append, length_bigBytes, addr_length]
      decide
  | other _ _ _ _ body_length => exact body_length

@[simp] theorem length_encode (option : SdOption) :
    option.encode.length = 3 + option.body.length := by
  simp only [encode, List.length_append, length_bigBytes, List.length_cons]
  omega

end SdOption

/-- A service discovery message: the SOME/IP fields that are free, the flags and
reserved octets of the SD header, the entries and the options. -/
structure SdMessage where
  clientId : Nat
  sessionId : Nat
  protocolVersion : Nat
  interfaceVersion : Nat
  messageType : Nat
  returnCode : Nat
  flags : UInt8
  reserved : Bytes
  entries : List SdEntry
  options : List SdOption
  clientId_lt : clientId < 2 ^ 16
  sessionId_lt : sessionId < 2 ^ 16
  protocolVersion_lt : protocolVersion < 2 ^ 8
  interfaceVersion_lt : interfaceVersion < 2 ^ 8
  messageType_lt : messageType < 2 ^ 8
  returnCode_lt : returnCode < 2 ^ 8
  reserved_length : reserved.length = 3
  entries_length : entries.length ≤ 256
  options_length : options.length ≤ 256

namespace SdMessage

variable (msg : SdMessage)

def entryBytes : Bytes := msg.entries.flatMap SdEntry.encode

def optionBytes : Bytes := msg.options.flatMap SdOption.encode

/-- The payload: flags, reserved octets, then both arrays behind their lengths. -/
def payload : Bytes :=
  (msg.flags :: msg.reserved) ++ (bigBytes 4 msg.entryBytes.length ++ (msg.entryBytes ++
    (bigBytes 4 msg.optionBytes.length ++ msg.optionBytes)))

/-- The SOME/IP length counts from the client id on. -/
def headerValues : List FieldValue :=
  [.uint kSomeipSdServiceId, .uint kSomeipSdMethodId, .uint (8 + msg.payload.length),
    .uint msg.clientId, .uint msg.sessionId, .uint msg.protocolVersion, .uint msg.interfaceVersion,
    .uint msg.messageType, .uint msg.returnCode]

def encode : Bytes := encodeFields SomeipSpec.fields msg.headerValues ++ msg.payload

theorem length_entryBytes : msg.entryBytes.length = msg.entries.length * kSomeipSdEntrySize := by
  simp [entryBytes, List.length_flatMap, kSomeipSdEntrySize]

theorem length_optionBytes_le : msg.optionBytes.length ≤ msg.options.length * (2 + 2 ^ 16) := by
  rw [optionBytes]
  induction msg.options with
  | nil => simp
  | cons option options inductionHypothesis =>
      have width := option.body_length_lt
      rw [List.flatMap_cons, List.length_append, SdOption.length_encode, List.length_cons,
        Nat.succ_mul]
      omega

theorem length_payload : msg.payload.length =
    12 + msg.entryBytes.length + msg.optionBytes.length := by
  simp only [payload, List.length_append, List.length_cons, length_bigBytes, msg.reserved_length]
  omega

/-- Every length field holds its length. -/
theorem lengths_lt : 8 + msg.payload.length < 2 ^ 32 := by
  have entries := msg.length_entryBytes
  have options := msg.length_optionBytes_le
  have fewEntries := msg.entries_length
  have fewOptions := Nat.mul_le_mul_right (2 + 2 ^ 16) msg.options_length
  rw [kSomeipSdEntrySize] at entries
  rw [length_payload]
  omega

theorem fits_headerValues : List.Forall₂ FieldFits SomeipSpec.fields msg.headerValues :=
  .cons (.uint (by decide)) (.cons (.uint (by decide)) (.cons (.uint msg.lengths_lt)
    (.cons (.uint msg.clientId_lt) (.cons (.uint msg.sessionId_lt)
      (.cons (.uint msg.protocolVersion_lt) (.cons (.uint msg.interfaceVersion_lt)
        (.cons (.uint msg.messageType_lt) (.cons (.uint msg.returnCode_lt) .nil))))))))

end SdMessage

/-! ### Rows -/

def SdEntry.row (packetId index : Nat) (entry : SdEntry) : Row someipSdChildSchema where
  table := .entry
  cell
    | .entryPacketId => .uint packetId
    | .entryIndex => .uint index
    | .entryType => .uint entry.type
    | .index1stOpts => .uint entry.index1stOpts
    | .index2ndOpts => .uint entry.index2ndOpts
    | .numOpt1 => .uint entry.numOpt1
    | .numOpt2 => .uint entry.numOpt2
    | .serviceId => .uint entry.serviceId
    | .instanceId => .uint entry.instanceId
    | .majorVersion => .uint entry.majorVersion
    | .ttl => .uint entry.ttl
    | .minorVersion => .uint entry.minorVersion
    | _ => default

def SdOption.row (packetId index : Nat) (option : SdOption) : Row someipSdChildSchema where
  table := .option
  cell
    | .optPacketId => .uint packetId
    | .optionIndex => .uint index
    | .length => .uint option.body.length
    | .optType => .uint option.type.toNat
    | .l4proto => .uint option.endpoint.l4proto.toNat
    | .port => .uint option.endpoint.port
    | .address => .bytes option.endpoint.addr
    | _ => default

/-- The rows a message stands for. -/
def SdMessage.rows (packetId : Nat) (msg : SdMessage) : List (Row someipSdChildSchema) :=
  msg.entries.mapIdx (SdEntry.row packetId) ++ msg.options.mapIdx (SdOption.row packetId)

section Entries

variable {pkt : Bytes} {off : Nat}

/-- Where an entry stands, its row is the row it was built as. -/
theorem sdRow_entry (packetId : Nat) {index : Nat} (bounded : index < 256) {entry : SdEntry}
    (stands : StandsAt pkt off entry.encode) :
    sdRow packetId pkt (.entry (UInt8.ofNat index) off) = entry.row packetId index := by
  have read := readField_encodeFields rfl entry.fits stands
  rcases List.cons.inj read with ⟨type, read⟩
  rcases List.cons.inj read with ⟨index1stOpts, read⟩
  rcases List.cons.inj read with ⟨index2ndOpts, read⟩
  rcases List.cons.inj read with ⟨numOpt1, read⟩
  rcases List.cons.inj read with ⟨numOpt2, read⟩
  rcases List.cons.inj read with ⟨serviceId, read⟩
  rcases List.cons.inj read with ⟨instanceId, read⟩
  rcases List.cons.inj read with ⟨majorVersion, read⟩
  rcases List.cons.inj read with ⟨ttl, read⟩
  rcases List.cons.inj read with ⟨minorVersion, -⟩
  rw [sdRow, SdEntry.row]
  congr 1
  funext col
  cases col with
  | entryIndex => exact congrArg FieldValue.uint (Nat.mod_eq_of_lt bounded)
  | entryType => exact type
  | index1stOpts => exact index1stOpts
  | index2ndOpts => exact index2ndOpts
  | numOpt1 => exact numOpt1
  | numOpt2 => exact numOpt2
  | serviceId => exact serviceId
  | instanceId => exact instanceId
  | majorVersion => exact majorVersion
  | ttl => exact ttl
  | minorVersion => exact minorVersion
  | entryPacketId | optPacketId | optionIndex | length | optType | l4proto | port | address => rfl

theorem map_sdRow_entries (packetId : Nat) {entries : List SdEntry} (few : entries.length ≤ 256)
    (stands : StandsAt pkt off (entries.flatMap SdEntry.encode)) :
    (sdEntries off entries.length).map (sdRow packetId pkt) =
      entries.mapIdx (SdEntry.row packetId) := by
  apply List.ext_getElem
  · simp [sdEntries]
  · intro i below _
    have inside : i < entries.length := by simpa [sdEntries] using below
    have here := stands.flatMap_getElem SdEntry.length_encode inside
    simp only [sdEntries, List.getElem_map, List.getElem_range, List.getElem_mapIdx]
    exact sdRow_entry packetId (by omega) here

end Entries

/-! ### Options -/

section Options

variable {pkt : Bytes} {opt : Nat}

theorem not_isSdIpv4Option {type : UInt8} (isIpv6 : isSdIpv6Option type = true) :
    isSdIpv4Option type = false := by
  simp [isSdIpv4Option, isSdIpv6Option, kSdOptIpv4Endpoint, kSdOptIpv4Multicast,
    kSdOptIpv4SdEndpoint, kSdOptIpv6Endpoint, kSdOptIpv6Multicast, kSdOptIpv6SdEndpoint]
    at isIpv6 ⊢
  omega

theorem SdOption.readBig_length {option : SdOption} (stands : StandsAt pkt opt option.encode) :
    readBig pkt opt 2 = option.body.length := by
  rw [stands.left.readBig_eq]
  exact Nat.mod_eq_of_lt option.body_length_lt

theorem SdOption.byteAt_type {option : SdOption} (stands : StandsAt pkt opt option.encode) :
    byteAt pkt (opt + 2) = option.type := by
  have type := stands.right.head
  rwa [length_bigBytes] at type

theorem SdOption.standsAt_body {option : SdOption} (stands : StandsAt pkt opt option.encode) :
    StandsAt pkt (opt + 3) option.body := by
  have body := stands.right.tail
  rwa [length_bigBytes, Nat.add_assoc] at body

/-- The fields of an endpoint, where its body stands. -/
theorem endpoint_fields {reserved1 reserved2 l4proto : UInt8} {addr : Bytes} {port : Nat}
    (port_lt : port < 2 ^ 16)
    (stands : StandsAt pkt (opt + 3)
      (reserved1 :: (addr ++ (reserved2 :: l4proto :: bigBytes 2 port)))) :
    opt + 4 + addr.length + 1 + 1 + 2 ≤ pkt.length ∧
      readBytes pkt (opt + 4) addr.length = addr ∧
      byteAt pkt (opt + 4 + addr.length + 1) = l4proto ∧
      readBig pkt (opt + 4 + addr.length + 1 + 1) 2 = port := by
  have behind := stands.tail.right.tail
  have word := behind.tail.length_le
  rw [length_bigBytes] at word
  refine ⟨word, stands.tail.left.readBytes_eq, behind.head, ?_⟩
  rw [behind.tail.readBig_eq]
  exact Nat.mod_eq_of_lt port_lt

/-- Where an option stands, its endpoint is decoded. -/
theorem sdDecodeEndpoint_encode {option : SdOption} (stands : StandsAt pkt opt option.encode) :
    sdDecodeEndpoint pkt opt option.type pkt.length = option.endpoint := by
  have body := SdOption.standsAt_body stands
  rw [sdDecodeEndpoint_eq]
  cases option with
  | ipv4 type reserved1 addr reserved2 l4proto port isIpv4 addr_length port_lt =>
      rcases endpoint_fields port_lt body with ⟨inside, addrRead, protoRead, portRead⟩
      rw [addr_length] at inside addrRead protoRead portRead
      simp only [SdOption.type, isIpv4, if_true, Bool.not_true, Bool.false_and,
        Bool.false_eq_true, if_false, if_neg (Nat.not_lt.mpr inside), addrRead, protoRead, portRead]
      rfl
  | ipv6 type reserved1 addr reserved2 l4proto port isIpv6 addr_length port_lt =>
      rcases endpoint_fields port_lt body with ⟨inside, addrRead, protoRead, portRead⟩
      rw [addr_length] at inside addrRead protoRead portRead
      simp only [SdOption.type, not_isSdIpv4Option isIpv6, isIpv6, Bool.not_true, Bool.and_false,
        Bool.false_eq_true, if_false, if_neg (Nat.not_lt.mpr inside), addrRead, protoRead, portRead,
        Nat.sub_self, List.replicate_zero, List.append_nil]
      rfl
  | other type body notIpv4 notIpv6 =>
      simp only [SdOption.type, notIpv4, notIpv6, Bool.not_false, Bool.and_self, if_true]
      rfl

theorem sdRow_option (packetId : Nat) {index : Nat} (bounded : index < 256) {option : SdOption}
    (stands : StandsAt pkt opt option.encode) :
    sdRow packetId pkt (.option (UInt8.ofNat index) opt option.body.length option.type) =
      option.row packetId index := by
  have endpoint := sdDecodeEndpoint_encode stands
  rw [sdRow, SdOption.row, endpoint]
  congr 1
  funext col
  cases col with
  | optionIndex => exact congrArg FieldValue.uint (Nat.mod_eq_of_lt bounded)
  | entryPacketId | entryIndex | entryType | index1stOpts | index2ndOpts | numOpt1 | numOpt2
  | serviceId | instanceId | majorVersion | ttl | minorVersion => rfl
  | optPacketId | length | optType | l4proto | port | address => rfl

/-- A round takes an option that ends inside the region. -/
theorem sdNextOption_encode (index : Nat) {optEnd : Nat} {option : SdOption}
    (stands : StandsAt pkt opt option.encode) (inside : opt + option.encode.length ≤ optEnd) :
    sdNextOption pkt optEnd (index, opt) =
      some (.option (UInt8.ofNat index) opt option.body.length option.type,
        index + 1, opt + option.encode.length) := by
  rw [SdOption.length_encode] at inside
  rw [sdNextOption_eq, SdOption.length_encode]
  dsimp only
  rw [SdOption.readBig_length stands, SdOption.byteAt_type stands, if_neg (by omega),
    if_neg (by omega), Nat.add_assoc]

/-- The option loop takes the options that fill its region; `index` is the
number of options before them. -/
theorem drain_sdNextOption_encode (packetId index : Nat) {optEnd : Nat} {options : List SdOption}
    (few : index + options.length ≤ 256)
    (stands : StandsAt pkt opt (options.flatMap SdOption.encode))
    (fills : opt + (options.flatMap SdOption.encode).length = optEnd) :
    (drain (sdNextOption pkt optEnd) (optEnd - opt) (index, opt)).map (sdRow packetId pkt) =
      options.mapIdx fun i => SdOption.row packetId (index + i) := by
  induction options generalizing opt index with
  | nil =>
      have ended : sdNextOption pkt optEnd (index, opt) = none := by
        rw [sdNextOption_eq]
        dsimp only
        rw [if_pos]
        rw [← fills, List.flatMap_nil, List.length_nil]
        omega
      rw [drain_of_none _ ended]
      rfl
  | cons option options inductionHypothesis =>
      rw [List.flatMap_cons] at stands fills
      rw [List.length_append] at fills
      rw [List.length_cons] at few
      have taken := sdNextOption_encode index stands.left (by omega : _ ≤ optEnd)
      have rest := inductionHypothesis (index + 1) (by omega) stands.right (by omega)
      have row := sdRow_option packetId (by omega : index < 256) stands.left
      rw [drain_sdNextOption (index, opt), taken]
      dsimp only
      have shift : (fun i => SdOption.row packetId (index + (i + 1))) =
          fun i => SdOption.row packetId (index + 1 + i) := by
        funext i
        rw [Nat.add_assoc, Nat.add_comm 1]
      rw [List.map_cons, rest, row, List.mapIdx_cons, shift]
      rfl

theorem map_sdRow_options (packetId : Nat) {optEnd : Nat} {options : List SdOption}
    (few : options.length ≤ 256) (stands : StandsAt pkt opt (options.flatMap SdOption.encode))
    (fills : opt + (options.flatMap SdOption.encode).length = optEnd) :
    (sdOptions pkt optEnd opt).map (sdRow packetId pkt) =
      options.mapIdx (SdOption.row packetId) := by
  have rows := drain_sdNextOption_encode packetId 0 (by omega) stands fills
  simp only [Nat.zero_add] at rows
  exact rows

end Options

/-! ### The round trip -/

namespace SdMessage

variable {msg : SdMessage} {pkt : Bytes} {off : Nat}

/-- What the SOME/IP header says where a message stands. -/
theorem header_eq (stands : StandsAt pkt off msg.encode) :
    readUint pkt off SomeipSpec.serviceId = kSomeipSdServiceId ∧
      readUint pkt off SomeipSpec.methodId = kSomeipSdMethodId ∧
      readUint pkt off SomeipSpec.length = 8 + msg.payload.length := by
  have read := readField_encodeFields rfl msg.fits_headerValues stands.left
  rcases List.cons.inj read with ⟨serviceId, read⟩
  rcases List.cons.inj read with ⟨methodId, read⟩
  rcases List.cons.inj read with ⟨length, -⟩
  exact ⟨FieldValue.uint.inj serviceId, FieldValue.uint.inj methodId, FieldValue.uint.inj length⟩

theorem standsAt_payload (stands : StandsAt pkt off msg.encode) :
    StandsAt pkt (off + kSomeipHeaderLen) msg.payload := by
  have payload := stands.right
  rwa [length_encodeFields] at payload

/-- Where the parts of the payload stand. -/
theorem layout (stands : StandsAt pkt off msg.encode) :
    StandsAt pkt (off + 20) (bigBytes 4 msg.entryBytes.length) ∧
      StandsAt pkt (off + 24) msg.entryBytes ∧
      StandsAt pkt (off + 24 + msg.entryBytes.length) (bigBytes 4 msg.optionBytes.length) ∧
      StandsAt pkt (off + 28 + msg.entryBytes.length) msg.optionBytes := by
  have behindFlags := (standsAt_payload stands).right
  rw [List.length_cons, msg.reserved_length] at behindFlags
  have entries := behindFlags.right
  rw [length_bigBytes] at entries
  have options := entries.right.right
  rw [length_bigBytes, Nat.add_right_comm] at options
  exact ⟨behindFlags.left, entries.left, entries.right.left, options⟩

/-- A message is traversed as its entries, then its options. -/
theorem forEachSdChild_encode (stands : StandsAt pkt off msg.encode) :
    forEachSdChild pkt off =
      sdEntries (off + 24) msg.entries.length ++
        sdOptions pkt (off + 28 + msg.entryBytes.length + msg.optionBytes.length)
          (off + 28 + msg.entryBytes.length) := by
  rcases header_eq stands with ⟨serviceId, methodId, length⟩
  rcases layout stands with ⟨entriesLength, -, optionsLength, options⟩
  have inside := options.length_le
  have width := msg.length_payload
  have bound := msg.lengths_lt
  have count := msg.length_entryBytes
  rw [kSomeipSdEntrySize] at count
  have entriesLen : readUint pkt (off + 16) SomeipSdHeaderSpec.entriesLength =
      msg.entryBytes.length :=
    entriesLength.readBig_eq.trans (Nat.mod_eq_of_lt (by omega))
  have optionsLen : readBig pkt (off + 24 + msg.entryBytes.length) 4 = msg.optionBytes.length :=
    optionsLength.readBig_eq.trans (Nat.mod_eq_of_lt (by omega))
  have stop : clampEnd (off + 8 + (8 + msg.payload.length)) pkt.length =
      off + 28 + msg.entryBytes.length + msg.optionBytes.length := by
    rw [clampEnd, if_pos (by omega)]
    omega
  have entriesEnd : clampEnd (off + 24 + msg.entryBytes.length)
      (off + 28 + msg.entryBytes.length + msg.optionBytes.length) =
        off + 24 + msg.entryBytes.length := if_pos (by omega)
  have optEnd : clampEnd (off + 28 + msg.entryBytes.length + msg.optionBytes.length)
      (off + 28 + msg.entryBytes.length + msg.optionBytes.length) =
        off + 28 + msg.entryBytes.length + msg.optionBytes.length := if_pos (Nat.le_refl _)
  have entriesAt : off + kSomeipHeaderLen + kSomeipSdPreambleLen = off + 24 := rfl
  have optionsAt : off + 24 + msg.entryBytes.length + 4 = off + 28 + msg.entryBytes.length := by
    omega
  rw [forEachSdChild_eq, serviceId, methodId, length, stop]
  dsimp only
  rw [entriesAt, kSomeipHeaderLen, entriesLen, optionsLen, optionsAt, entriesEnd, optEnd,
    Nat.add_sub_cancel_left, count, kSomeipSdEntrySize, Nat.mul_div_cancel _ (by decide),
    if_neg (by omega), if_neg (by simp), if_neg (by omega), if_neg (by omega)]

end SdMessage

/-- Emitting the children of an encoded message appends the rows it stands for,
whatever precedes and follows it. -/
theorem emitSdChildren_encode (packetId : Nat) (msg : SdMessage) (before trailing : Bytes)
    (kids : SomeipSdChildTables) :
    emitSdChildren packetId (before ++ (msg.encode ++ trailing)) before.length kids =
      kids.appendAll (msg.rows packetId) := by
  have stands := StandsAt.mk before msg.encode trailing
  rcases SdMessage.layout stands with ⟨-, entries, -, options⟩
  have entryRows := map_sdRow_entries packetId msg.entries_length entries
  have optionRows := map_sdRow_options packetId msg.options_length options rfl
  rw [emitSdChildren_eq, SdMessage.forEachSdChild_encode stands, List.map_append, entryRows]
  exact congrArg (fun rows => kids.appendAll (_ ++ rows)) optionRows

end Nanotins.Children
