import Nanotins.Children.SomeipSd

/-!
Contract: what the endpoint fields of a service discovery option depend on.

Owns: the fields that both passes store for an option, the options whose
endpoint is read from behind their end, and that all others, and only these,
store what their own bytes say (`endpoint_ownBytes_iff`).

Does not own: encoded messages.
-/

namespace Nanotins.Children

open Nanotins.Library Nanotins.Wire Nanotins.SpecDag

/-! ### Options of a traversal -/

theorem option_mem_sdOptions {pkt : Bytes} {optEnd opt ptr length : Nat} {index type : UInt8}
    (member : .option index ptr length type ∈ sdOptions pkt optEnd opt) :
    length = readBig pkt ptr 2 ∧ type = byteAt pkt (ptr + 2) ∧ ptr + 3 + length ≤ optEnd := by
  refine forall_mem_drain (fun _ => True)
    (fun child => ∀ index ptr length type, child = .option index ptr length type →
      length = readBig pkt ptr 2 ∧ type = byteAt pkt (ptr + 2) ∧ ptr + 3 + length ≤ optEnd)
    ?_ trivial _ _ member _ _ _ _ rfl
  intro state behind child _ taken
  rcases sdNextOption_some taken with ⟨rfl, rfl, inside⟩
  refine ⟨?_, trivial⟩
  intro index ptr length type same
  cases same
  exact ⟨rfl, rfl, inside⟩

theorem option_notMem_sdEntries {entries nEntries ptr length : Nat} {index type : UInt8} :
    SdChild.option index ptr length type ∉ sdEntries entries nEntries := by
  simp [sdEntries]

/-- A reported option ends inside the packet; its length and type are read from it. -/
theorem option_mem_forEachSdChild {pkt : Bytes} {off ptr length : Nat} {index type : UInt8}
    (member : .option index ptr length type ∈ forEachSdChild pkt off) :
    length = readBig pkt ptr 2 ∧ type = byteAt pkt (ptr + 2) ∧ ptr + 3 + length ≤ pkt.length := by
  rw [forEachSdChild_eq] at member
  dsimp only at member
  have inside := clampEnd_le (off + 8 + readUint pkt off SomeipSpec.length) pkt.length
  split_ifs at member
  · contradiction
  · contradiction
  · contradiction
  · exact absurd member option_notMem_sdEntries
  · rcases List.mem_append.mp member with entry | option
    · exact absurd entry option_notMem_sdEntries
    · rcases option_mem_sdOptions option with ⟨lengthRead, typeRead, stop⟩
      exact ⟨lengthRead, typeRead, Nat.le_trans stop (Nat.le_trans (clampEnd_le _ _) inside)⟩

/-! ### Endpoint fields -/

/-- Both passes store these endpoint fields in the row of the option. -/
def StoresEndpoint (pkt : Bytes) (opt len : Nat) (type : UInt8) (addr : Bytes) (l4proto : UInt8)
    (port : Nat) : Prop :=
  ∀ packetId index,
    (∀ kids, emitSdChild packetId pkt kids (.option index opt len type) =
      SomeipSdOptionTable.add kids packetId index len type l4proto port addr) ∧
    ∀ state, scatterSdChild packetId pkt state (.option index opt len type) =
      state.row counterModulus .option fun oi =>
        [⟨.optPacketId, oi, .uint packetId⟩, ⟨.optionIndex, oi, .uint index.toNat⟩,
          ⟨.length, oi, .uint len⟩, ⟨.optType, oi, .uint type.toNat⟩,
          ⟨.l4proto, oi, .uint l4proto.toNat⟩, ⟨.port, oi, .uint port⟩,
          ⟨.address, oi, .bytes addr⟩]

theorem storesEndpoint_iff {pkt addr : Bytes} {opt len port : Nat} {type l4proto : UInt8} :
    StoresEndpoint pkt opt len type addr l4proto port ↔
      (sdDecodeEndpoint pkt opt type pkt.length).addr = addr ∧
        (sdDecodeEndpoint pkt opt type pkt.length).l4proto = l4proto ∧
          (sdDecodeEndpoint pkt opt type pkt.length).port = port := by
  constructor
  · intro stores
    have row := (stores 0 0).1 fun _ => []
    have address := congrFun row .address
    have proto := congrFun row .l4proto
    have portCell := congrFun row .port
    refine ⟨FieldValue.bytes.inj (List.head_eq_of_cons_eq address), ?_,
      FieldValue.uint.inj (List.head_eq_of_cons_eq portCell)⟩
    exact UInt8.toNat_inj.mp (FieldValue.uint.inj (List.head_eq_of_cons_eq proto))
  · rintro ⟨rfl, rfl, rfl⟩ packetId index
    exact ⟨fun _ => rfl, fun _ => rfl⟩

/-- The size of the address of an endpoint option. -/
def sdAddressLength (type : UInt8) : Nat := if isSdIpv4Option type then 4 else 16

/-- An endpoint option too short for two reserved octets, its address, protocol
and port. -/
def ShortEndpoint (len : Nat) (type : UInt8) : Prop :=
  (isSdIpv4Option type = true ∨ isSdIpv6Option type = true) ∧ len < sdAddressLength type + 5

/-- Where the address, the protocol and the port of an endpoint option lie. -/
def EndpointByte (type : UInt8) (i : Nat) : Prop :=
  4 ≤ i ∧ i < sdAddressLength type + 8 ∧ i ≠ sdAddressLength type + 4

/-- The option is too short for its endpoint, the packet is not, and what it
holds there is not all zero. -/
def LooksBehind (pkt : Bytes) (opt len : Nat) (type : UInt8) : Prop :=
  ShortEndpoint len type ∧ opt + sdAddressLength type + 8 ≤ pkt.length ∧
    ∃ i, EndpointByte type i ∧ byteAt pkt (opt + i) ≠ 0

section Decode

variable {pkt pkt' : Bytes} {opt opt' len : Nat} {type : UInt8}

theorem sdDecodeEndpoint_of_endpoint
    (endpoint : isSdIpv4Option type = true ∨ isSdIpv6Option type = true) :
    sdDecodeEndpoint pkt opt type pkt.length =
      if pkt.length < opt + sdAddressLength type + 8 then ⟨true, List.replicate 16 0, 0, 0⟩
      else
        ⟨true, readBytes pkt (opt + 4) (sdAddressLength type) ++
            List.replicate (16 - sdAddressLength type) 0,
          byteAt pkt (opt + (sdAddressLength type + 5)),
          readBig pkt (opt + (sdAddressLength type + 6)) 2⟩ := by
  have family : (!isSdIpv4Option type && !isSdIpv6Option type) = false := by
    rcases endpoint with v4 | v6
    · rw [v4]
      rfl
    · rw [v6, Bool.not_true, Bool.and_false]
  have proto : opt + 4 + sdAddressLength type + 1 = opt + (sdAddressLength type + 5) := by omega
  have stop : opt + (sdAddressLength type + 5) + 1 + 2 = opt + sdAddressLength type + 8 := by omega
  have port : opt + (sdAddressLength type + 5) + 1 = opt + (sdAddressLength type + 6) := by omega
  rw [sdDecodeEndpoint_eq, family, ← sdAddressLength]
  dsimp only
  rw [proto, stop, port]
  rfl

theorem sdDecodeEndpoint_of_other (v4 : isSdIpv4Option type = false)
    (v6 : isSdIpv6Option type = false) :
    sdDecodeEndpoint pkt opt type pkt.length = ⟨false, List.replicate 16 0, 0, 0⟩ := by
  rw [sdDecodeEndpoint_eq, v4, v6]
  rfl

theorem sdAddressLength_le (type : UInt8) : sdAddressLength type ≤ 16 := by
  rw [sdAddressLength]
  split <;> decide

theorem readBytes_eq_zero_iff {off n : Nat} :
    readBytes pkt off n = List.replicate n 0 ↔ ∀ i < n, byteAt pkt (off + i) = 0 := by
  rw [List.eq_replicate_iff, readBytes_eq_map]
  simp

theorem readBig_two_eq_zero_iff {off : Nat} :
    readBig pkt off 2 = 0 ↔ byteAt pkt off = 0 ∧ byteAt pkt (off + 1) = 0 := by
  rw [← UInt8.toNat_inj, ← UInt8.toNat_inj, readBig_succ, readBig_succ, readBig_zero, Nat.add_zero]
  show _ ↔ _ = 0 ∧ _ = 0
  omega

/-- An endpoint that fits the packet is all zero if its bytes are. -/
theorem sdDecodeEndpoint_eq_zero_iff
    (endpoint : isSdIpv4Option type = true ∨ isSdIpv6Option type = true)
    (inside : opt + sdAddressLength type + 8 ≤ pkt.length) :
    sdDecodeEndpoint pkt opt type pkt.length = ⟨true, List.replicate 16 0, 0, 0⟩ ↔
      ∀ i, EndpointByte type i → byteAt pkt (opt + i) = 0 := by
  have padded : List.replicate 16 (0 : UInt8) =
      List.replicate (sdAddressLength type) 0 ++ List.replicate (16 - sdAddressLength type) 0 := by
    rw [List.replicate_append_replicate, Nat.add_sub_cancel' (sdAddressLength_le type)]
  rw [sdDecodeEndpoint_of_endpoint endpoint, if_neg (by omega), SdEndpoint.mk.injEq, padded,
    List.append_left_inj, readBytes_eq_zero_iff, readBig_two_eq_zero_iff]
  constructor
  · rintro ⟨-, address, proto, high, low⟩ i ⟨above, below, notReserved⟩
    by_cases inAddress : i < sdAddressLength type + 4
    · have zero := address (i - 4) (by omega)
      rwa [Nat.add_assoc, Nat.add_sub_cancel' above] at zero
    obtain rfl | rfl | rfl : i = sdAddressLength type + 5 ∨ i = sdAddressLength type + 6 ∨
        i = sdAddressLength type + 7 := by omega
    · exact proto
    · exact high
    · exact low
  · intro zero
    refine ⟨rfl, fun i below => ?_, zero _ ?_, zero _ ?_, zero (sdAddressLength type + 7) ?_⟩
    · rw [Nat.add_assoc]
      exact zero _ ⟨by omega, by omega, by omega⟩
    all_goals exact ⟨by omega, by omega, by omega⟩

theorem sdDecodeEndpoint_isEndpoint (pkt : Bytes) (opt : Nat)
    (endpoint : isSdIpv4Option type = true ∨ isSdIpv6Option type = true) :
    (sdDecodeEndpoint pkt opt type pkt.length).isEndpoint = true := by
  rw [sdDecodeEndpoint_of_endpoint endpoint]
  split <;> rfl

/-- A short endpoint is stored as all zero unless it looks behind its end. -/
theorem storesEndpoint_zero_iff (short : ShortEndpoint len type) :
    StoresEndpoint pkt opt len type (List.replicate 16 0) 0 0 ↔
      ¬ LooksBehind pkt opt len type := by
  have fields : StoresEndpoint pkt opt len type (List.replicate 16 0) 0 0 ↔
      sdDecodeEndpoint pkt opt type pkt.length = ⟨true, List.replicate 16 0, 0, 0⟩ := by
    have isEndpoint := sdDecodeEndpoint_isEndpoint pkt opt short.1
    rw [storesEndpoint_iff]
    generalize sdDecodeEndpoint pkt opt type pkt.length = decoded at isEndpoint ⊢
    cases decoded
    rw [SdEndpoint.mk.injEq]
    exact (and_iff_right isEndpoint).symm
  rw [fields]
  by_cases inside : opt + sdAddressLength type + 8 ≤ pkt.length
  · rw [sdDecodeEndpoint_eq_zero_iff short.1 inside]
    constructor
    · rintro zero ⟨-, -, i, endpointByte, nonzero⟩
      exact nonzero (zero i endpointByte)
    · intro notBehind i endpointByte
      by_contra nonzero
      exact notBehind ⟨short, inside, i, endpointByte, nonzero⟩
  · rw [sdDecodeEndpoint_of_endpoint short.1, if_pos (by omega)]
    exact iff_of_true rfl fun behind => inside behind.2.1

/-- An option that is long enough is decoded from its own bytes. -/
theorem sdDecodeEndpoint_congr (long : ¬ ShortEndpoint len type)
    (same : ∀ i < 3 + len, byteAt pkt (opt + i) = byteAt pkt' (opt' + i))
    (inside : opt + 3 + len ≤ pkt.length) (inside' : opt' + 3 + len ≤ pkt'.length) :
    sdDecodeEndpoint pkt opt type pkt.length = sdDecodeEndpoint pkt' opt' type pkt'.length := by
  by_cases endpoint : isSdIpv4Option type = true ∨ isSdIpv6Option type = true
  · have enough : sdAddressLength type + 5 ≤ len := by
      by_contra few
      exact long ⟨endpoint, by omega⟩
    have addr : readBytes pkt (opt + 4) (sdAddressLength type) =
        readBytes pkt' (opt' + 4) (sdAddressLength type) := by
      rw [readBytes_eq_iff]
      intro i below
      rw [Nat.add_assoc, Nat.add_assoc]
      exact same (4 + i) (by omega)
    have port : readBig pkt (opt + (sdAddressLength type + 6)) 2 =
        readBig pkt' (opt' + (sdAddressLength type + 6)) 2 := by
      apply readBig_congr
      intro i below
      rw [Nat.add_assoc, Nat.add_assoc opt']
      exact same (sdAddressLength type + 6 + i) (by omega)
    rw [sdDecodeEndpoint_of_endpoint endpoint, sdDecodeEndpoint_of_endpoint endpoint,
      if_neg (by omega), if_neg (by omega), addr, port,
      same (sdAddressLength type + 5) (by omega)]
  · rcases not_or.mp endpoint with ⟨v4, v6⟩
    have v4 := Bool.eq_false_iff.mpr v4
    have v6 := Bool.eq_false_iff.mpr v6
    rw [sdDecodeEndpoint_of_other v4 v6, sdDecodeEndpoint_of_other v4 v6]

end Decode

/-! ### The own bytes of an option -/

/-- Two options store the same endpoint fields, all zero ones if they are too
short for an endpoint. -/
def OwnBytesEndpoint (pkt pkt' : Bytes) (opt opt' len : Nat) (type : UInt8) : Prop :=
  ∃ addr l4proto port,
    StoresEndpoint pkt opt len type addr l4proto port ∧
      StoresEndpoint pkt' opt' len type addr l4proto port ∧
        (ShortEndpoint len type → addr = List.replicate 16 0 ∧ l4proto = 0 ∧ port = 0)

/-- Options with the same bytes store what these bytes say exactly when neither
looks behind its end. -/
theorem endpoint_ownBytes_iff {pkt pkt' : Bytes} {off off' opt opt' len len' : Nat}
    {index index' type type' : UInt8}
    (visited : .option index opt len type ∈ forEachSdChild pkt off)
    (visited' : .option index' opt' len' type' ∈ forEachSdChild pkt' off')
    (same : readBytes pkt opt (3 + len) = readBytes pkt' opt' (3 + len')) :
    (len' = len ∧ type' = type ∧ OwnBytesEndpoint pkt pkt' opt opt' len type) ↔
      ¬ LooksBehind pkt opt len type ∧ ¬ LooksBehind pkt' opt' len' type' := by
  rcases option_mem_forEachSdChild visited with ⟨-, typeRead, inside⟩
  rcases option_mem_forEachSdChild visited' with ⟨-, typeRead', inside'⟩
  have lengths : len' = len := by
    have := congrArg List.length same
    rw [length_readBytes, length_readBytes] at this
    omega
  subst lengths
  have bytes := readBytes_eq_iff.mp same
  have types : type' = type := by
    rw [typeRead, typeRead', bytes 2 (by omega)]
  subst types
  constructor
  · rintro ⟨-, -, addr, l4proto, port, stores, stores', zero⟩
    constructor
    · intro behind
      rcases zero behind.1 with ⟨rfl, rfl, rfl⟩
      exact (storesEndpoint_zero_iff behind.1).mp stores behind
    · intro behind
      rcases zero behind.1 with ⟨rfl, rfl, rfl⟩
      exact (storesEndpoint_zero_iff behind.1).mp stores' behind
  · intro notBehind
    refine ⟨rfl, rfl, ?_⟩
    by_cases short : ShortEndpoint len' type'
    · exact ⟨_, _, _, (storesEndpoint_zero_iff short).mpr notBehind.1,
        (storesEndpoint_zero_iff short).mpr notBehind.2, fun _ => ⟨rfl, rfl, rfl⟩⟩
    · have decoded := sdDecodeEndpoint_congr short bytes inside inside'
      refine ⟨_, _, _, storesEndpoint_iff.mpr ⟨rfl, rfl, rfl⟩, ?_, fun long => absurd long short⟩
      rw [decoded]
      exact storesEndpoint_iff.mpr ⟨rfl, rfl, rfl⟩

/-- An Ethernet frame with a service discovery message that holds these options. -/
def sdFrame (options : Bytes) : Bytes :=
  List.replicate 12 0 ++ [0x08, 0x00] ++
    ([0x45, 0, 0, 0, 0, 0, 0, 0, 64, 17] ++ List.replicate 10 0) ++
    ([0x77, 0x1A, 0x77, 0x1A] ++ List.replicate 4 0) ++
    ([0xFF, 0xFF, 0x81, 0x00, 0, 0, 0, UInt8.ofNat (20 + options.length)] ++ List.replicate 8 1) ++
    (List.replicate 8 0 ++ [0, 0, 0, UInt8.ofNat options.length]) ++ options

def configurationOption : Bytes := [0x00, 0x09, 0x01, 0, 1, 2, 3, 4, 5, 6, 7, 8]

def endpointOption : Bytes := [0x00, 0x09, 0x04, 0, 10, 0, 0, 1, 0, 17, 0x77, 0x1A]

theorem endpoint_ownBytes_iff_endpoint :
    let pkt := sdFrame (endpointOption ++ configurationOption)
    let pkt' := sdFrame endpointOption
    ((9 = 9 ∧ (4 : UInt8) = 4 ∧ OwnBytesEndpoint pkt pkt' 70 70 9 4) ↔
      ¬ LooksBehind pkt 70 9 4 ∧ ¬ LooksBehind pkt' 70 9 4) :=
  endpoint_ownBytes_iff
    (by decide : .option 0 70 9 4 ∈ forEachSdChild (sdFrame (endpointOption ++ configurationOption)) 42)
    (by decide : .option 0 70 9 4 ∈ forEachSdChild (sdFrame endpointOption) 42) (by decide)

/-- An IPv4 endpoint option of length 1: only the reserved octet is its own. -/
def shortOption : Bytes := [0x00, 0x01, 0x04, 0x00]

/-- The short option takes its endpoint from the option behind it. -/
theorem endpoint_ownBytes_fails :
    let pkt := sdFrame (shortOption ++ configurationOption)
    let pkt' := sdFrame shortOption
    .option 0 70 1 4 ∈ forEachSdChild pkt 42 ∧ .option 0 70 1 4 ∈ forEachSdChild pkt' 42 ∧
      readBytes pkt 70 4 = readBytes pkt' 70 4 ∧ ¬ OwnBytesEndpoint pkt pkt' 70 70 1 4 := by
  refine ⟨by decide, by decide, by decide, ?_⟩
  rintro ⟨addr, l4proto, port, stores, stores', -⟩
  have proto := (storesEndpoint_iff.mp stores).2.1
  have proto' := (storesEndpoint_iff.mp stores').2.1
  have behind : (sdDecodeEndpoint (sdFrame (shortOption ++ configurationOption)) 70 4
      (sdFrame (shortOption ++ configurationOption)).length).l4proto = 2 := by decide
  have last : (sdDecodeEndpoint (sdFrame shortOption) 70 4
      (sdFrame shortOption).length).l4proto = 0 := by decide
  rw [behind] at proto
  rw [last, ← proto] at proto'
  exact absurd proto' (by decide)

end Nanotins.Children
